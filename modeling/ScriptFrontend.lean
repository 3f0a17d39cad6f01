import ScriptFrontend.CommandLine
import ScriptFrontend.Diagnostic.Basic
import ScriptFrontend.Diagnostic.Collection
import ScriptFrontend.Diagnostic.Fault
import ScriptFrontend.Grammar.Access
import ScriptFrontend.Grammar.Arrow
import ScriptFrontend.Grammar.Binding
import ScriptFrontend.Grammar.Block
import ScriptFrontend.Grammar.Class
import ScriptFrontend.Grammar.Declaration
import ScriptFrontend.Grammar.DocTag
import ScriptFrontend.Grammar.DocToken
import ScriptFrontend.Grammar.Element
import ScriptFrontend.Grammar.Expression
import ScriptFrontend.Grammar.Lead
import ScriptFrontend.Grammar.Lists
import ScriptFrontend.Grammar.Modifier
import ScriptFrontend.Grammar.Module
import ScriptFrontend.Grammar.Name
import ScriptFrontend.Grammar.Nonterminal
import ScriptFrontend.Grammar.Precedence
import ScriptFrontend.Grammar.Primary
import ScriptFrontend.Grammar.Production
import ScriptFrontend.Grammar.Reuse
import ScriptFrontend.Grammar.Signature
import ScriptFrontend.Grammar.Spelling
import ScriptFrontend.Grammar.Start
import ScriptFrontend.Grammar.State
import ScriptFrontend.Grammar.Statement
import ScriptFrontend.Grammar.Type
import ScriptFrontend.Grammar.TypeMember
import ScriptFrontend.Json.Basic
import ScriptFrontend.Json.Reader
import ScriptFrontend.Lowering.Basic
import ScriptFrontend.Lowering.Enumeration
import ScriptFrontend.Lowering.File
import ScriptFrontend.Main
import ScriptFrontend.Name.Supply
import ScriptFrontend.Number.Double
import ScriptFrontend.Options.Basic
import ScriptFrontend.Options.Config
import ScriptFrontend.Options.Glob
import ScriptFrontend.Output.Emit
import ScriptFrontend.Print.Expression
import ScriptFrontend.Print.Function
import ScriptFrontend.Print.Module
import ScriptFrontend.Print.Name
import ScriptFrontend.Print.Statement
import ScriptFrontend.Print.Writer
import ScriptFrontend.Program.Basic
import ScriptFrontend.Program.FileTree
import ScriptFrontend.Program.Project
import ScriptFrontend.Proofs.Diagnostic.Message
import ScriptFrontend.Proofs.Doc.Description
import ScriptFrontend.Proofs.Lowering.Enumeration
import ScriptFrontend.Proofs.Lowering.Qualified
import ScriptFrontend.Proofs.Lowering.Replacement
import ScriptFrontend.Proofs.Lowering.Variables
import ScriptFrontend.Proofs.Name.Request
import ScriptFrontend.Proofs.Numbering.File
import ScriptFrontend.Proofs.Options.Glob
import ScriptFrontend.Proofs.Pairing.File
import ScriptFrontend.Proofs.Print.Block
import ScriptFrontend.Proofs.Print.Expression
import ScriptFrontend.Proofs.Print.Name
import ScriptFrontend.Proofs.Print.Quote
import ScriptFrontend.Proofs.Print.Statement
import ScriptFrontend.Proofs.Program.Output
import ScriptFrontend.Proofs.Reading.Access
import ScriptFrontend.Proofs.Reading.Arrow
import ScriptFrontend.Proofs.Reading.Discipline
import ScriptFrontend.Proofs.Reading.DocTag
import ScriptFrontend.Proofs.Reading.File
import ScriptFrontend.Proofs.Reading.Operand
import ScriptFrontend.Proofs.Reading.Production
import ScriptFrontend.Proofs.Reading.Statement
import ScriptFrontend.Proofs.Registration.Deferred
import ScriptFrontend.Proofs.Registration.Hygiene
import ScriptFrontend.Proofs.Registration.Imported
import ScriptFrontend.Proofs.Registration.Parsed
import ScriptFrontend.Proofs.Registration.Pattern
import ScriptFrontend.Proofs.Registration.Registered
import ScriptFrontend.Proofs.Registration.StarTable
import ScriptFrontend.Proofs.Registration.Waiting
import ScriptFrontend.Proofs.Scope.Module
import ScriptFrontend.Proofs.Scope.Store
import ScriptFrontend.Proofs.Source.Pragma
import ScriptFrontend.Proofs.Source.Update
import ScriptFrontend.Proofs.Text.Boundary
import ScriptFrontend.Proofs.Text.Change
import ScriptFrontend.Proofs.Text.LineMap
import ScriptFrontend.Proofs.Text.Trivia
import ScriptFrontend.Proofs.Token.Aligned
import ScriptFrontend.Proofs.Token.CommentRange
import ScriptFrontend.Proofs.Token.Gap
import ScriptFrontend.Proofs.Token.LineBreak
import ScriptFrontend.Proofs.Token.Regex
import ScriptFrontend.Proofs.Token.Shown
import ScriptFrontend.Proofs.Token.Tiling
import ScriptFrontend.Proofs.Token.Trivia
import ScriptFrontend.Proofs.Tree.Cursor
import ScriptFrontend.Registration.Binding
import ScriptFrontend.Registration.Body
import ScriptFrontend.Registration.Context
import ScriptFrontend.Registration.Module
import ScriptFrontend.Registration.Setter
import ScriptFrontend.Scope.Binding
import ScriptFrontend.Scope.Module
import ScriptFrontend.Scope.Table
import ScriptFrontend.Script
import ScriptFrontend.Source.File
import ScriptFrontend.Source.Pragma
import ScriptFrontend.Source.Update
import ScriptFrontend.Text.Bytes
import ScriptFrontend.Text.CharClass
import ScriptFrontend.Text.IdentifierRanges
import ScriptFrontend.Text.Interner
import ScriptFrontend.Text.Path
import ScriptFrontend.Text.Span
import ScriptFrontend.Text.Spelling
import ScriptFrontend.Text.Trivia
import ScriptFrontend.Token.Comment
import ScriptFrontend.Token.Mark
import ScriptFrontend.Token.Number
import ScriptFrontend.Token.Quoted
import ScriptFrontend.Token.Scanner
import ScriptFrontend.Token.Window
import ScriptFrontend.Tree.Cursor
import ScriptFrontend.Tree.Dump
import ScriptFrontend.Tree.Flags
import ScriptFrontend.Tree.Form
import ScriptFrontend.Tree.Kind
import ScriptFrontend.Tree.Made
import ScriptFrontend.Tree.Node
import ScriptFrontend.Tree.Outline
import ScriptFrontend.Tree.Query
import ScriptFrontend.Tree.Relocation
