import ScriptFrontend.Lowering.Basic

/-!
# Enumerations and namespaces as functions

An enumeration or a namespace becomes a variable and the call of a function that fills in an object.
The function knows the object by the name of the declaration, and the variable keeps the object from
one declaration of the name to the next. A member of a namespace that it exports is kept in the
object of the namespace too.
-/

namespace ScriptFrontend.Lowering

open Made

inductive Place where
  | file
  | inside
deriving DecidableEq, Repr

structure Role where
  name : String
  isFirst : Bool
  place : Place
  owner : Option String

def exportModifier (n : Node) (place : Place) : List Node :=
  if place = .file && n.isExported then [token .exportKeyword] else []

/-- The variable of a declaration. Where the name is declared already, a mark stands for it. -/
def variableOf (n : Node) (role : Role) : Node :=
  if !role.isFirst then marker .mergeDeclarationMarker n
  else
    let flags :=
      match role.place with
      | .file => .empty
      | .inside => NodeFlags.letDeclaration
    (variableStatement (exportModifier n role.place) flags
      [variableDeclaration (identifier role.name) none]).withOrigin n

def objectAt (place : Node) : Node :=
  binary place .barBarToken (parenthesized (assignment place (object [] false)))

def fillingCall (role : Role) (body : List Node) : Node :=
  let argument :=
    match role.owner with
    | none => objectAt (identifier role.name)
    | some owner => assignment (identifier role.name) (objectAt (member (identifier owner) role.name))
  expressionStatement (call (parenthesized (function [role.name] body)) [argument])

def declarationStatements (n : Node) (role : Role) (body : List Node) : List Node :=
  [variableOf n role, fillingCall role body, marker .endOfDeclarationMarker n]

/-! ## Members of enumerations -/

structure MemberState where
  next : Option Double := some .zero
  previous : Option String := none

/-- The value of a member without one of its own: one more than the member before. -/
def followingValue (enumeration : String) (s : MemberState) : Node × Option Double :=
  match s.next, s.previous with
  | none, some previous =>
    (binary (element (identifier enumeration) (stringLiteral previous)) .plusToken
      (numericLiteral "1"), none)
  | next, _ =>
    let value := next.getD .zero
    (numericLiteral value.toText, some value.succ)

/-- The assignment of a member. A value that is no string gets an entry for the name of the member,
too. -/
def memberAssignment (enumeration name : String) (value : Node) (isString : Bool) : Node :=
  let assigned := assignment (element (identifier enumeration) (stringLiteral name)) value
  if isString then assigned
  else assignment (element (identifier enumeration) assigned) (stringLiteral name)

def memberStatement (enumeration : String) (s : MemberState) (n : Node) :
    Option (Node × MemberState) := do
  let .enumMember name value := n.form | none
  let text ← name.nameText?
  let (valueNode, next) :=
    match value with
    | some e => (e, e.constant?.map Double.succ)
    | none => followingValue enumeration s
  let assigned := memberAssignment enumeration text valueNode (value.any Node.isStringValued)
  return (expressionStatement assigned, ⟨next, some text⟩)

def memberStatements (enumeration : String) : MemberState → List Node → List Node
  | _, [] => []
  | s, n :: rest =>
    match memberStatement enumeration s n with
    | some (statement, s) => statement :: memberStatements enumeration s rest
    | none => memberStatements enumeration s rest

/-! ## Members of namespaces -/

def memberCopy (owner name : String) : Node :=
  expressionStatement (assignment (member (identifier owner) name) (identifier name))

/-- An exported variable of a namespace becomes a member of its object. A pattern keeps its variables,
and each is copied. -/
def exportedVariables (n : Node) (owner : String) : List Node :=
  let valued := n.statementVariables.filterMap fun v =>
    match v.form with
    | .variableDeclaration p => p.value.map (p.name, ·)
    | _ => none
  let assignments := valued.filterMap fun (name, value) =>
    name.identifierText?.map fun text => assignment (member (identifier owner) text) value
  let patterns := (valued.filter (·.1.identifierText?.isNone)).flatMap fun (name, value) =>
    variableStatement [] NodeFlags.letDeclaration [variableDeclaration name (some value)] ::
      name.boundTexts.map (memberCopy owner)
  let assigned := (commas? assignments).map fun e => (expressionStatement e).withOrigin n
  assigned.toList ++ patterns

def exportedDeclaration? (n : Node) (owner : String) : Option (List Node) := do
  if n.kind == .functionDeclaration && n.body?.isNone then none
  let name ← n.declaredText?
  let removed := ModifierFlags.isExported ||| ModifierFlags.isDefault
  return [n.copied n.kind n.name? removed, memberCopy owner name]

/-- A name for a part of a module or namespace as a variable, or as a member of the object of the
namespace that exports it. -/
def aliasStatement (n : Node) (place : Place) (owner : Option String) : Node :=
  match n.form with
  | .importEquals p =>
    let value := p.reference.entityExpression
    let statement :=
      match owner, p.name.identifierText? with
      | some owner, some name =>
        expressionStatement (assignment (member (identifier owner) name) value)
      | _, _ =>
        variableStatement (exportModifier n place) .empty [variableDeclaration p.name (some value)]
    statement.withOrigin n
  | _ => (token .notEmittedStatement).withOrigin n

end ScriptFrontend.Lowering
