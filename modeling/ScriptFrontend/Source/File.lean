import ScriptFrontend.Grammar.Production
import ScriptFrontend.Source.Pragma

/-!
# Source files

A source file is a text together with the tree that was read from it, what is wrong with it, and
facts about the file as a whole: its pragmas, what they ask for, and what makes it a module. A JSON
text is read as a file with one expression. Names, documentation comments and their types can also be
read on their own.
-/

namespace ScriptFrontend

open Diagnostic (Fault)

structure SourceFile where
  root : Node
  fileName : String
  text : String
  target : ScriptTarget
  kind : ScriptKind
  isDeclarationFile : Bool := false
  diagnostics : List Diagnostic
  docDiagnostics : List Diagnostic
  pragmas : List (String × List Pragma) := []
  directives : Directives := {}
  /-- The first import, export or use of the module's own facts. -/
  moduleIndicator : Option Node := none
  nodeCount : Nat
  identifierCount : Nat
  names : List String
  nextId : Nat
  counts : ReuseCounts
  hasParents : Bool := false
  /-- The reading was cut short, because it did not move on. -/
  stalled : Bool := false
  /-- A part of the text was asked for that begins or ends inside of a character. -/
  torn : Bool := false
deriving Inhabited

namespace SourceFile

def statements (f : SourceFile) : List Node := ((f.root.statements?).map (·.items)).getD []

def isModule (f : SourceFile) : Bool := f.moduleIndicator.isSome

def hasErrors (f : SourceFile) : Bool := f.diagnostics.any Diagnostic.isError

def identifiers (f : SourceFile) : List String :=
  ((f.names.mergeSort fun a b => !(b < a)).splitBy (· == ·)).filterMap List.head?

def isDeclarationName (fileName : String) : Bool :=
  let lower := (Text.asciiLower fileName).toList
  let base := (lower.reverse.takeWhile fun c => c != '/' && c != '\\').reverse
  let ends (name : List Char) (ending : String) := ending.toList.isSuffixOf name
  ends lower ".d.ts" || ends lower ".d.mts" || ends lower ".d.cts" ||
    (ends base ".ts" && Text.contains (String.ofList base) ".d.")

def isModuleStatement (n : Node) : Bool :=
  n.hasModifier ModifierFlags.isExported ||
    match n.kind with
    | .importDeclaration | .exportAssignment | .exportDeclaration => true
    | _ =>
      match n.form with
      | .importEquals p => p.reference.kind == .externalModuleReference
      | _ => false

def isImportMeta (n : Node) : Bool :=
  match n.shape with
  | .metaProperty word => word == .importKeyword
  | _ => false

def moduleIndicator? (root : Node) : Option Node :=
  match (((root.statements?).map (·.items)).getD []).find? isModuleStatement with
  | some n => some n
  | none =>
    if root.flags.has NodeFlags.importMeta then root.preorder.find? isImportMeta else none

def ofState (s : ParserState) (root : Node) : SourceFile where
  root := root
  fileName := s.fileName
  text := s.text
  target := s.target
  kind := s.scriptKind
  diagnostics := s.diagnostics.items.toList
  docDiagnostics := s.docDiagnostics
  nodeCount := s.nodeCount
  identifierCount := s.identifierCount
  names := s.identifiers
  nextId := s.nextId
  counts := s.counts
  stalled := s.stalled
  torn := s.torn

def withPragmas (f : SourceFile) : SourceFile :=
  let groups := Pragma.groups (Pragma.ofText f.text)
  let (directives, faults) := Directives.ofPragmas f.text (groups.flatMap (·.2))
  let reported := faults.map fun (fault, range) =>
    Diagnostic.located f.fileName range.toSpan fault.message []
  { f with pragmas := groups, directives, diagnostics := f.diagnostics ++ reported }

end SourceFile

namespace Parse

def rootNode (statements : NodeList) (endOfFile : Node) : Parse Node := do
  finishAt .sourceFile 0 (← sourceText).utf8ByteSize (.sourceFile statements endOfFile)

def script : Parse Node := do
  skipToken
  let statements ← listOf .sourceElements (call .statement)
  let hasDoc := (← get).scanner.hasFlag TokenFlags.precedingDoc
  let endOfFile ← withDocs hasDoc (← tokenNode)
  let root ← rootNode statements endOfFile
  return root.addFlags (← get).fileFlags

/-! ## JSON -/

def isJsonLiteral : Parse Bool := lookAhead do return (← nextToken) != .colonToken

def isNegativeNumber : Parse Bool := lookAhead do
  if (← nextToken) != .numericLiteral then return false
  return (← nextToken) != .colonToken

def jsonValue : Parse Node := do
  match ← token with
  | .openBracketToken => arrayLiteral
  | .trueKeyword | .falseKeyword | .nullKeyword => tokenNode
  | .minusToken => if ← isNegativeNumber then prefixedExpression else objectLiteral
  | .numericLiteral | .stringLiteral => if ← isJsonLiteral then literal else objectLiteral
  | _ => objectLiteral

def jsonValues : Parse (Array Node) := do
  let mut values : Array Node := #[]
  for _ in rounds do
    if ← tokenIs .endOfFileToken then break
    values := values.push (← jsonValue)
    if values.size == 1 && (← token) != .endOfFileToken then errorHere .unexpectedToken []
  return values

def json : Parse Node := do
  skipToken
  let pos ← nodePos
  if ← tokenIs .endOfFileToken then
    return ← rootNode (.ofItems [] pos pos) (← tokenNode)
  let values ← jsonValues
  let e ←
    match values.toList with
    | [value] => pure value
    | _ => finish .arrayLiteralExpression pos (.list false (← listFrom values pos))
  let statement ← finish .expressionStatement pos (.wrapped e)
  let statements ← listFrom #[statement] pos
  rootNode statements (← expectedToken .endOfFileToken (some .unexpectedToken))

def wholeEntityName? : Parse (Option Node) := do
  skipToken
  let name ← entityName true none
  if (← tokenIs .endOfFileToken) && (← get).diagnostics.isEmpty then return some name
  return none

def wholeDocType (start stop : Nat) : Parse Node := do
  modifyScanner fun s => s.restrict start stop
  skipToken
  docTypeExpression false

end Parse

namespace SourceFile

def ofScript (s : ParserState) (setParents : Bool) : SourceFile :=
  let isDeclarationFile := isDeclarationName s.fileName
  let ambient := if isDeclarationFile then NodeFlags.ambient else .empty
  let (root, s) := Parse.script.run { s with contextFlags := s.contextFlags ||| ambient }
  { ofState s root with
    isDeclarationFile, hasParents := setParents
    moduleIndicator := moduleIndicator? root }.withPragmas

/-- Reads a file. The kind is that of its name where it is not known. What was read of a text that was torn
is no answer; `read?` gives none then. -/
def parse (fileName text : String) (target : ScriptTarget) (kind : ScriptKind)
    (setParents : Bool) : SourceFile :=
  let kind := kind.resolve fileName
  let s := ParserState.initial fileName text target kind none 0
  if kind = .json then
    let (root, s) := Parse.json.run s
    ofState s root
  else ofScript s setParents

/-- The file that a text is read as. There is none if a part of the text was asked for that begins or ends
inside of a character. -/
def read? (fileName text : String) (target : ScriptTarget) (kind : ScriptKind) (setParents : Bool) :
    Option SourceFile :=
  let f := parse fileName text target kind setParents
  if f.torn then none else some f

def parseJson (fileName text : String) : SourceFile :=
  let (root, s) := Parse.json.run (.initial fileName text .es2015 .json none 0)
  ofState s root

end SourceFile

structure PartReading where
  node : Node
  diagnostics : List Diagnostic
  /-- A part of the text was asked for that begins or ends inside of a character. -/
  torn : Bool
deriving Inhabited

def PartReading.ofState (s : ParserState) (n : Node) : PartReading :=
  ⟨n, s.diagnostics.items.toList, s.torn⟩

namespace Node

def ofEntityName? (text : String) (target : ScriptTarget) : Option Node :=
  (Parse.wholeEntityName?.run (.initial "" text target .js none 0)).1

/-- The documentation comment between two offsets of a text, with what is wrong in it. -/
def ofDocComment? (text : String) (start stop : Nat) : Option PartReading :=
  let read := Parse.inside NodeFlags.doc (Parse.call? (.docComment start stop))
  let (doc, s) := read.run (.initial "file.js" text .esNext .js none 0)
  doc.map (.ofState s)

/-- The type between braces between two offsets of a text, with what is wrong in it. -/
def ofDocType (text : String) (start stop : Nat) : PartReading :=
  let (t, s) := (Parse.wholeDocType start stop).run (.initial "file.js" text .esNext .js none 0)
  .ofState s t

end Node

end ScriptFrontend
