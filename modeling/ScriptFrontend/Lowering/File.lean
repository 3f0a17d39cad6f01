import ScriptFrontend.Lowering.Enumeration
import ScriptFrontend.Print.Writer

/-!
# Lowering a file

The lists of statements of a file are searched for enumerations, namespaces and names for parts of
modules. The tree stays as it is: the lowering says which statements stand in the place of which
node, and by which names the functions of enumerations and namespaces know their objects, so that
names of their members can be read as members of the objects.

Searching goes to nodes below a node, in at most three steps for each two levels of the tree, so
that the height of the tree bounds its depth.
-/

namespace ScriptFrontend

structure Lowering where
  /-- The statements in the place of a statement, by the number of its node. -/
  replacements : Std.HashMap Nat (List Node) := {}
  objectNames : Std.HashMap Nat String := {}

namespace Lowering

def replacement? (l : Lowering) (n : Node) : Option (List Node) :=
  if n.isSynthesized then none else l.replacements[n.id]?

def replace (l : Lowering) (n : Node) (statements : List Node) : Lowering :=
  { l with replacements := l.replacements.insert n.id statements }

def nameObject (l : Lowering) (n : Node) (name : String) : Lowering :=
  { l with objectNames := l.objectNames.insert n.id name }

end Lowering

abbrev Lower := StateM Lowering

namespace Lower

open Lowering

/-- Statements made so far, and the names declared so far in their scope. -/
structure BodyState where
  out : List Node := []
  declared : List String

def BodyState.add (s : BodyState) (statements : List Node) : BodyState :=
  { s with out := s.out ++ statements }

def BodyState.declare (s : BodyState) (names : List String) : BodyState :=
  { s with declared := names ++ s.declared }

/-- Nothing below such a node is searched from above. -/
def isClosed (n : Node) : Bool :=
  match n.kind with
  | .moduleDeclaration | .moduleBlock | .interfaceDeclaration | .typeAliasDeclaration => true
  | _ => false

def isContainer (n : Node) : Bool := n.kind == .enumDeclaration || n.kind == .moduleDeclaration

def role? (n : Node) (declared : List String) (place : Place) (owner : Option String) :
    Option Role := do
  let name ← n.declaredText?
  if n.isAmbient || (n.kind == .moduleDeclaration && !n.isInstantiated) then none
  return ⟨name, !declared.contains name, place, owner⟩

mutual

def below : Nat → Node → Lower Unit
  | 0, _ => pure ()
  | depth + 1, n => n.children.forM fun child => do
    if !isClosed child then
      child.clauseExpression?.forM (below depth)
      match child.statements? with
      | some l => statements depth .inside l.items
      | none => below depth child

def statements : Nat → Place → List Node → Lower Unit
  | 0, _, _ => pure ()
  | depth + 1, place, items => do
    let _ ← items.foldlM (fun (s : BodyState) n => do
      if isContainer n then
        let s ← declaration depth n s place none
        modify (·.replace n s.out)
        return { s with out := [] }
      else if n.isInnerAlias then
        modify (·.replace n [aliasStatement n place none])
        return s
      else
        below depth n
        return s.declare n.declaredTexts) { declared := Node.functionTexts items }

def declaration : Nat → Node → BodyState → Place → Option String → Lower BodyState
  | 0, _, s, _, _ => pure s
  | depth + 1, n, s, place, owner => do
    match role? n s.declared place owner with
    | none => return s
    | some role =>
      let s := s.declare [role.name]
      match n.form with
      | .enumeration _ _ members =>
        modify (·.nameObject n role.name)
        return s.add (declarationStatements n role (memberStatements role.name {} members.items))
      | _ => return s.add (← namespaceDeclaration depth n role)

def namespaceDeclaration : Nat → Node → Role → Lower (List Node)
  | 0, _, _ => pure []
  | depth + 1, n, role => do
    modify (·.nameObject n role.name)
    let body ←
      match n.body? with
      | none => pure []
      | some inner =>
        match inner.shape, inner.declaredText? with
        | .module, some name => namespaceDeclaration depth inner ⟨name, true, .inside, some role.name⟩
        | .module, none => pure []
        | _, _ =>
          match inner.statements? with
          | some l => namespaceBody depth l.items role.name
          | none => pure []
    return declarationStatements n role body

/-- The statements of a namespace. Its exports become members of its object. -/
def namespaceBody : Nat → List Node → String → Lower (List Node)
  | 0, _, _ => pure []
  | depth + 1, items, owner => do
    let s ← items.foldlM (fun (s : BodyState) n => do
      let exporter := if n.isExported then some owner else none
      if isContainer n then declaration depth n s .inside exporter
      else
        let s ←
          if n.isInnerAlias then pure (s.add [aliasStatement n .inside exporter])
          else if n.kind == .variableStatement && n.isExported && !n.isAmbient then
            below depth n
            pure (s.add (exportedVariables n owner))
          else if (n.kind == .functionDeclaration || n.kind == .classDeclaration) &&
              n.isExported && !n.isAmbient then
            match exportedDeclaration? n owner with
            | some copied =>
              below depth n
              pure (s.add copied)
            | none => pure s
          else
            below depth n
            pure (s.add [n])
        return s.declare n.declaredTexts) { declared := Node.functionTexts items }
    return s.out

end

end Lower

namespace Lowering

def ofTree (root : Node) : Lowering :=
  let items := ((root.statements?).map (·.items)).getD []
  ((Lower.statements (2 * root.height + 4) .file items).run {}).2

def memberOf? (l : Lowering) (scopes : ScopeTable) (n : Node) : Option Node := do
  if n.kind != .identifier then none
  let container ← scopes.exporterOf? n false
  if !Lower.isContainer container then none
  let object ← l.objectNames[container.id]?
  return Made.member (Made.identifier object) (← n.identifierText?)

def substitution (l : Lowering) (scopes : ScopeTable) : Substitution where
  expression := l.memberOf? scopes
  statement := l.replacement?

end Lowering

end ScriptFrontend
