import ScriptFrontend.Print.Name

/-!
# Printing functions and classes

Types and modifiers without a meaning at run time are left out, and so are members that only declare.
Parameters of a constructor that declare properties become assignments to them, behind the call of
the constructor of the base class if the body has one as a statement.
-/

namespace ScriptFrontend.Print

def decorators (modifiers : Option NodeList) : Print Unit := do
  for m in (modifiers.map (·.items)).getD [] do
    if m.kind == .decorator then
      write "@"
      m.expression?.forM expression
      endLine

def runModifiers (modifiers : Option NodeList) : Print Unit := do
  for m in (modifiers.map (·.items)).getD [] do
    let flag := ModifierFlags.ofKind m.kind
    if !flag.isEmpty && !flag.meets (ModifierFlags.erased ||| ModifierFlags.isDecorator) then
      m.kind.tokenText?.forM fun word => write (word ++ " ")

def statements (items : List Node) : Print Unit := do
  let substitution := (← read).substitution
  for n in items do
    for n in (substitution.statement n).getD [n] do
      statement n
      endLine

def isSuperCall (n : Node) : Bool :=
  n.kind == .expressionStatement && n.expression?.any fun e =>
    e.kind == .callExpression && e.expression?.any (·.kind == .superKeyword)

def propertyAssignment (name : String) : Print Unit := do
  write s!"this.{name} = {name};"
  endLine

def blockWith (items : List Node) (properties : List String) : Print Unit := do
  if items.isEmpty && properties.isEmpty then write "\x7b \x7d"
  else if properties.isEmpty then braced (statements items)
  else
    let split := ((items.findIdx? isSuperCall).map (· + 1)).getD 0
    braced do
      statements (items.take split)
      properties.forM propertyAssignment
      statements (items.drop split)

def propertyParameters (l : NodeList) : List String :=
  (l.items.filter (·.hasModifier ModifierFlags.parameterProperty)).filterMap fun p =>
    p.name?.bind Node.identifierText?

def functionBody (kind : Kind) (parameters : NodeList) (body : Node) : Print Unit :=
  match body.form with
  | .block _ l =>
    blockWith l.items (if kind == .constructor then propertyParameters parameters else [])
  | _ => pure ()

def isRunParameter (n : Node) : Bool :=
  match n.form with
  | .parameter p => p.name.identifierText? != some "this"
  | _ => false

def parameter (n : Node) : Print Unit := do
  let .parameter p := n.form | return
  if p.dots.isSome then write "..."
  printAs .binding p.name
  initializer p.value

def parameters (l : NodeList) : Print Unit := do
  write "("
  separated ", " parameter (l.items.filter isRunParameter)
  write ")"

def functionHead (kind : Kind) (p : Form.FunctionLike) : Print Unit := do
  let star := if p.asterisk.isSome then "*" else ""
  match kind with
  | .functionDeclaration | .functionExpression =>
    write s!"function{star} "
    p.name.forM name
  | .constructor => write "constructor"
  | _ =>
    if kind == .getAccessor then write "get "
    if kind == .setAccessor then write "set "
    write star
    p.name.forM propertyName

def function (n : Node) : Print Unit := do
  let .functionLike p := n.form | return
  decorators p.modifiers
  runModifiers p.modifiers
  if n.kind == .arrowFunction then
    parameters p.parameters
    write " => "
    p.body.forM fun body =>
      if body.kind == .block then functionBody n.kind p.parameters body else expression body
  else
    functionHead n.kind p
    parameters p.parameters
    p.body.forM fun body => do
      write " "
      functionBody n.kind p.parameters body

def classMember (n : Node) : Print Unit := do
  if n.hasModifier (ModifierFlags.isAmbient ||| ModifierFlags.isAbstract) then return
  match n.form with
  | .property p =>
    if n.kind == .propertyDeclaration then
      decorators p.modifiers
      runModifiers p.modifiers
      propertyName p.name
      initializer p.value
      write ";"
  | .functionLike p => if p.body.isSome then function n
  | .classStaticBlock _ body =>
    write "static "
    statement body
  | .token => if n.kind == .semicolonClassElement then write ";"
  | _ => pure ()

def baseClass (clause : Node) : Print Unit := do
  let .heritageClause .extendsKeyword types := clause.form | return
  types.items.head?.forM fun base => do
    write " extends "
    match base.form with
    | .typeReference name _ => expression name
    | _ => expression base

def classLike (n : Node) : Print Unit := do
  let .classLike p := n.form | return
  decorators p.modifiers
  runModifiers p.modifiers
  write "class"
  p.name.forM fun className => do
    write " "
    name className
  ((p.heritage.map (·.items)).getD []).forM baseClass
  write " "
  braced do
    for member in p.members.items do
      classMember member
      endLine

end ScriptFrontend.Print
