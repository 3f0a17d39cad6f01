import ScriptFrontend.Registration.Binding
import ScriptFrontend.Registration.Body
import ScriptFrontend.Registration.Setter
import ScriptFrontend.Source.File

/-!
# Registered modules

The registered form of a module is one call. It gives the loader the names of the modules that the
module depends on, and a function that is given a way to export and a description of the module, and
that returns the setters of the dependencies and the body.

In the body, what an import binds is read from the object of its module. Assigning to an exported variable
exports its new value; the assignment inside the call that exports is kept as it is. What the module asks of
its loader goes through the object that describes it.
-/

namespace ScriptFrontend.Registration

open Made

def exportChain (c : Context) (names : List String) (value : Node) : Node :=
  names.foldl (fun value name => exportCall c name value) value

def imported? (c : Context) (n : Node) : Option Node := do
  let declaration ← c.scopes.importOf? n
  let object ← c.bindings[declaration.parsed.id]?
  match declaration.form with
  | .importClause _ _ _ => some (member (identifier object) "default")
  | .specifier _ propertyName name =>
    match (propertyName.getD name).form with
    | .identifier text _ => some (member (identifier object) text)
    | .literal text _ _ => some (element (identifier object) (stringLiteral text))
    | _ => none
  | .named _ => some (identifier object)
  | _ => none

def exported? (c : Context) (n : Node) : Option (List String) :=
  if n.kind != .identifier then none
  else
    let names := exportNames c n
    if names.isEmpty then none else some names

def isUpdate (operator : Kind) : Bool := operator == .plusPlusToken || operator == .minusMinusToken

def inverse (operator : Kind) : Kind :=
  if operator == .plusPlusToken then .minusToken else .plusToken

/-- An update of an exported variable. Behind the variable, it is worth the value from before. -/
def updated? (c : Context) (n : Node) (operator : Kind) (operand : Node) : Option Node := do
  if !isUpdate operator then none
  let names ← exported? c operand
  if n.kind == .prefixUnaryExpression then return exportChain c names (kept n)
  let value := exportChain c names (kept (unary operator operand))
  return binary value (inverse operator) (numericLiteral "1")

def expression? (c : Context) (n : Node) : Option Node :=
  match n.form with
  | .identifier _ _ => imported? c n
  | .binary left operator _ =>
    if operator.kind.isAssignment then
      (exported? c left).map fun names => exportChain c names (kept n)
    else none
  | .unary operator operand =>
    if n.kind == .prefixUnaryExpression || n.kind == .postfixUnaryExpression then
      updated? c n operator operand
    else none
  | .call p =>
    if p.expression.kind == .importKeyword then
      let arguments := (p.arguments.map (·.items)).getD []
      some (call (member (identifier c.context) "import") arguments)
    else none
  | .metaProperty word _ =>
    if word == .importKeyword then some (member (identifier c.context) "meta") else none
  | _ => none

def substitution (c : Context) : Substitution where
  expression := expression? c

/-! ## The registered form -/

inductive Error where
  /-- The exports of a declaration at an offset were held and never released. -/
  | missingEnd (pos : Nat)
deriving DecidableEq, Repr

def Error.message : Error → String
  | .missingEnd pos =>
    s!"deferred exports for the declaration at {pos} were never flushed: " ++
      "missing end-of-declaration marker"

/-- The file is registered: a module, or a script that imports others while it runs. -/
def isRegistered (f : SourceFile) : Bool :=
  !f.isDeclarationFile && (f.isModule || f.root.flags.has NodeFlags.dynamicImport)

def isDirective (n : Node) : Bool :=
  n.kind == .expressionStatement && n.expression?.any (·.kind == .stringLiteral)

/-- Bodies of functions and classes are not part of what runs when their statement does. -/
def isFunctionOrClass (k : Kind) : Bool :=
  match k with
  | .functionDeclaration | .functionExpression | .arrowFunction | .methodDeclaration
  | .constructor | .getAccessor | .setAccessor | .classDeclaration | .classExpression => true
  | _ => false

def isWaiting (n : Node) : Bool :=
  n.kind == .awaitExpression || n.kind == .forOfStatement &&
    match n.form with
    | .forEach p => p.awaiting.isSome
    | _ => false

mutual

def waits : Node → Bool
  | .mk h s slots docs origin =>
    isWaiting (.mk h s slots docs origin) || !isFunctionOrClass h.kind && waitsSlots slots

def waitsSlots : List Slot → Bool
  | [] => false
  | slot :: rest => waitsSlot slot || waitsSlots rest

def waitsSlot : Slot → Bool
  | .absent => false
  | .node n => waits n
  | .list _ items => waitsItems items

def waitsItems : List Node → Bool
  | [] => false
  | n :: rest => waits n || waitsItems rest

end

def moduleNameStatement (c : Context) : Node :=
  let context := identifier c.context
  let value := binary context .ampersandAmpersandToken (member context "id")
  varStatement [variableDeclaration (identifier "__moduleName") (some value)]

def hoistedStatement (names : List String) : List Node :=
  if names.isEmpty then []
  else [varStatement (names.map fun name => variableDeclaration (identifier name) none)]

def strictDirective : Node := expressionStatement (stringLiteral "use strict")

def registration (setters body : List Node) (isAsync : Bool) : Node :=
  let modifiers := if isAsync then some (list [token .asyncKeyword]) else none
  let execute := functionLike .functionExpression modifiers none [] body
  object [property (identifier "setters") (array setters (!setters.isEmpty)),
    property (identifier "execute") execute] true

def registerCall (c : Context) (moduleName : Option String) (groups : List Dependency)
    (statements : List Node) : Node :=
  let names := array (groups.map fun d => stringLiteral d.moduleName) false
  let arguments := (moduleName.map stringLiteral).toList ++
    [names, function [c.exporter, c.context] statements]
  expressionStatement (call (member (identifier "System") "register") arguments)

def start (f : SourceFile) (scopes : ScopeTable) (facts : ModuleFacts) (lowering : Lowering) :
    Context × NameSupply :=
  let (exporter, names) := (NameSupply.ofNames f.identifiers).unique "exports"
  let (context, names) := names.unique "context"
  ({ scopes, facts, lowering, exporter, context }, names)

def ofFile (f : SourceFile) (scopes : ScopeTable) (facts : ModuleFacts) (lowering : Lowering) :
    Except Error (List Node × Context) :=
  let (c, names) := start f scopes facts lowering
  let (groups, c, names) := dependencies facts.imports c names
  let (directives, items) := f.statements.span isDirective
  let (execute, s) := (body (f.root.height + 1) items c).run { names }
  match s.deferred.head? with
  | some (declaration, _) => .error (.missingEnd declaration.pos)
  | none =>
    let ((helpers, star), names) := starHelper c s.names
    let (setters, _) := setters c star groups names
    let kept := directives.filter fun n =>
      n.expression?.bind Node.literalText? != some "use strict"
    let result := returnStatement (registration setters execute (items.any waits))
    let statements := strictDirective :: kept ++ hoistedStatement s.hoisted ++
      moduleNameStatement c :: s.functions ++ helpers ++ [result]
    .ok ([registerCall c f.directives.moduleName groups statements], c)

end ScriptFrontend.Registration
