import ScriptFrontend.Registration.Context

/-!
# Variables of a registered module

The variables of a module are declared in front of its body, so that setters can be told of them, and
what declares them in the body only assigns. Patterns are taken apart into assignments of their parts;
what they read from is kept in a temporary variable, so that it is evaluated once.
-/

namespace ScriptFrontend.Registration

open Made

structure State where
  names : NameSupply
  /-- The variables declared in front of the body, in order. -/
  hoisted : List String := []
  functions : List Node := []
  /-- Exports of enumerations and namespaces, held until the end of the declaration. -/
  deferred : List (Node × List Node) := []

abbrev Register := ReaderT Context (StateM State)

def hoist (name : String) : Register Unit :=
  modify fun s => if s.hoisted.contains name then s else { s with hoisted := s.hoisted ++ [name] }

def newName (base : String) : Register String :=
  modifyGet fun s =>
    let (name, names) := s.names.unique base
    (name, { s with names })

def newTemporary : Register String := do
  let name ← modifyGet fun s =>
    let (name, names) := s.names.temporary
    (name, { s with names })
  hoist name
  return name

def exportNames (c : Context) (n : Node) : List String :=
  match n.identifierText? with
  | none => []
  | some text =>
    let own := (c.scopes.exporterOf? n false).any (·.kind == .sourceFile)
    let declaration := c.scopes.importOf? n <|> c.scopes.valueOf? n
    let other := (declaration.map c.facts.exportNames).getD []
    other.foldl (fun names name => if names.contains name then names else names ++ [name])
      (if own then [text] else [])

def nameValue (value : Node) : Register (List Node × Node) := do
  if value.kind == .identifier && value.origin.isNone && value.isSynthesized then return ([], value)
  let name ← newTemporary
  return ([assignment (identifier name) value], identifier name)

def isRest (n : Node) : Bool :=
  match n.form with
  | .bindingElement p => p.dots.isSome
  | _ => false

def partOf? (isObject : Bool) (value : Node) (index : Nat) (p : Form.BindingElement) : Option Node :=
  if isObject then
    let key := p.propertyName.getD p.name
    match key.form with
    | .identifier text _ => some (member value text)
    | .literal text _ _ => some (element value (stringLiteral text))
    | .wrapped e => some (element value e)
    | _ => none
  else if p.dots.isSome then
    some (call (member value "slice") [numericLiteral (toString index)])
  else some (element value (numericLiteral (toString index)))

def withDefault (value : Node) : Option Node → Register (List Node × Node)
  | none => return ([], value)
  | some other => do
    let name ← newTemporary
    let isUndefined := binary (identifier name) .equalsEqualsEqualsToken undefined
    return ([assignment (identifier name) value], conditional isUndefined other (identifier name))

/-- An object pattern that takes what is left stays whole; its variables are exported behind it. -/
def wholePattern (target value : Node) : Register (List Node) := do
  let c ← read
  let exports := (target.boundNames target).flatMap fun (leaf, _) =>
    match leaf.identifierText? with
    | none => []
    | some text => (exportNames c leaf).map fun name => exportCall c name (identifier text)
  return assignment target value :: exports

mutual

def flatten (value : Node) : Node → Register (List Node)
  | .mk h (.list multiLine) [.list lh items] docs origin => do
    let (kept, value) ← nameValue value
    let isObject := h.kind == .objectBindingPattern
    if isObject && items.any isRest then
      return kept ++ (← wholePattern (.mk h (.list multiLine) [.list lh items] docs origin) value)
    return kept ++ (← flattenElements isObject value 0 items)
  | target => return [assignment target value]

def flattenElements (isObject : Bool) (value : Node) (index : Nat) : List Node → Register (List Node)
  | [] => return []
  | .mk _ .bindingElement [dots, key, .node target, default] _ _ :: rest => do
    let parts : Form.BindingElement := ⟨dots.node?, key.node?, target, default.node?⟩
    let assigned ←
      match partOf? isObject value index parts with
      | none => pure []
      | some part => do
        let (kept, part) ← withDefault part parts.value
        pure (kept ++ (← flatten part target))
    return assigned ++ (← flattenElements isObject value (index + 1) rest)
  | _ :: rest => flattenElements isObject value (index + 1) rest

end

/-- Declares the variables of a list in front of the body; what is left are assignments. -/
def hoistVariables (l : Node) : Register (List Node) := do
  let .list _ declarations := l.form | return []
  let mut out := []
  for n in declarations.items do
    if let .variableDeclaration p := n.form then
      p.name.boundTexts.forM hoist
      if let some value := p.value then out := out ++ (← flatten value p.name)
  return out

def assignmentStatement? (n : Node) (assignments : List Node) : Option Node :=
  (commas? assignments).map fun e => (expressionStatement e).withOrigin n

end ScriptFrontend.Registration
