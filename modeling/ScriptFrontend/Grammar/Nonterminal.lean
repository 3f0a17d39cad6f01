import ScriptFrontend.Diagnostic.Fault
import ScriptFrontend.Grammar.Precedence
import ScriptFrontend.Tree.Form

/-!
# Nonterminals and lists of the grammar

The nonterminals are the names under which productions call each other where one may come back to
itself. The list contexts tell the lists apart that may be open while a part of them is read.
-/

namespace ScriptFrontend

inductive ListContext where
  | sourceElements
  | blockStatements
  | switchClauses
  | switchClauseStatements
  | typeMembers
  | classMembers
  | enumMembers
  | heritageClauseElement
  | variableDeclarations
  | objectBindingElements
  | arrayBindingElements
  | argumentExpressions
  | objectLiteralMembers
  | jsxAttributes
  | jsxChildren
  | arrayLiteralMembers
  | parameters
  | docParameters
  | typeParameters
  | typeArguments
  | tupleElementTypes
  | heritageClauses
  | specifiers
  | importAttributes
deriving DecidableEq, Repr, Inhabited

namespace ListContext

/-- All contexts, in the order in which open lists are asked for a token. -/
def all : List ListContext :=
  [.sourceElements, .blockStatements, .switchClauses, .switchClauseStatements, .typeMembers,
    .classMembers, .enumMembers, .heritageClauseElement, .variableDeclarations,
    .objectBindingElements, .arrayBindingElements, .argumentExpressions, .objectLiteralMembers,
    .jsxAttributes, .jsxChildren, .arrayLiteralMembers, .parameters, .docParameters,
    .typeParameters, .typeArguments, .tupleElementTypes, .heritageClauses, .specifiers,
    .importAttributes]

end ListContext

/-- How the parameters and the body of a signature are read. -/
structure SignatureMode where
  isGenerator : Bool := false
  isAsync : Bool := false
  isType : Bool := false
  ignoreMissingBrace : Bool := false
  isDoc : Bool := false
deriving DecidableEq, Repr, Inhabited

/-- Which tags a tag of a documentation comment takes as its own. -/
structure DocTargets where
  isProperty : Bool := false
  isParameter : Bool := false
  isCallbackParameter : Bool := false
deriving DecidableEq, Repr, Inhabited

structure ElementPlace where
  inExpression : Bool
  /-- The start of the first of several elements that stand side by side in an expression. -/
  firstOfRow : Option Nat := none
  parentTag : Option Node := none
  isOperand : Bool := false
deriving Inhabited

inductive Nonterminal where
  | type
  | operatorType
  | simpleType
  /-- An expression without commas. The body of an arrow function may have a return type before it
  only where that is allowed. -/
  | assignment (allowReturnType : Bool)
  | unary
  | simpleUnary
  /-- Operands joined by operators that bind closer than a level. -/
  | binary (floor : Precedence)
  | primary
  | leftHandSide
  | decorator
  /-- A name or a pattern that binds names, and what is reported for a private name. -/
  | binding (privateFault : Option Diagnostic.Fault)
  | statement
  | element (place : ElementPlace)
  | innerNamespace (flags : NodeFlags)
  | docComment (start : Nat) (stop : Nat)
  | docTag (earlier : List Node) (indent : Nat)
  /-- A tag that belongs to the tag before it, and the name that its own name must extend. -/
  | docChild (targets : DocTargets) (indent : Nat) (parent : Option Node)
deriving Inhabited

end ScriptFrontend
