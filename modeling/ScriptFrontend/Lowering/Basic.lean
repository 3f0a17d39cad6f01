import ScriptFrontend.Number.Double
import ScriptFrontend.Scope.Binding
import ScriptFrontend.Tree.Made

/-!
# Questions about declarations

What a declaration means for the program that runs: the names that it brings into its scope, whether
a namespace holds anything at run time, and which value a constant has. A function or class can be
copied without the modifiers and types that are gone when the program runs.
-/

namespace ScriptFrontend

namespace Node

def isAmbient (n : Node) : Bool := n.hasModifier ModifierFlags.isAmbient

def isExported (n : Node) : Bool := n.hasModifier ModifierFlags.isExported

def declaredText? (n : Node) : Option String := n.name?.bind identifierText?

def statementVariables (n : Node) : List Node :=
  match n.form with
  | .variableStatement _ l =>
    match l.form with
    | .list _ items => items.items
    | _ => []
  | _ => []

def declaredTexts (n : Node) : List String :=
  match n.kind with
  | .variableStatement => n.statementVariables.flatMap fun v => (v.name?.map boundTexts).getD []
  | .classDeclaration | .functionDeclaration => n.declaredText?.toList
  | _ => []

def functionTexts (statements : List Node) : List String :=
  (statements.filter (·.kind == .functionDeclaration)).filterMap declaredText?

def clauseExpression? (n : Node) : Option Node :=
  match n.form with
  | .caseClause e _ => e
  | _ => none

/-- Gives a name to a part of another module or namespace, `import x = A.B`. -/
def isInnerAlias (n : Node) : Bool :=
  match n.form with
  | .importEquals p =>
    !p.typeOnly && p.reference.kind != .externalModuleReference && !n.isAmbient
  | _ => false

/-- An expression for a name with dots in it. The first name stays the node that it is. -/
def entityExpression : Node → Node
  | .mk _ .qualifiedName [.node left, .node right] _ _ =>
    Made.member left.entityExpression (right.identifierText?.getD "")
  | n => n

/-! ## What a namespace holds -/

mutual

def isRunStatement : Node → Bool
  | .mk h .module slots docs origin =>
    !(Node.mk h .module slots docs origin).isAmbient && isRunBody slots
  | .mk _ (.importEquals typeOnly) _ _ _ => !typeOnly
  | .mk _ (.exportDeclaration typeOnly) _ _ _ => !typeOnly
  | .mk h s slots docs origin =>
    h.kind != .interfaceDeclaration && h.kind != .typeAliasDeclaration &&
      !(Node.mk h s slots docs origin).isAmbient

/-- The body among the parts of a namespace holds a statement with a meaning at run time. -/
def isRunBody : List Slot → Bool
  | [_, _, .node body] => isRunBlock body
  | _ => false

def isRunBlock : Node → Bool
  | .mk h .module slots docs origin =>
    !(Node.mk h .module slots docs origin).isAmbient && isRunBody slots
  | .mk _ (.block _) [.list _ items] _ _ => isRunItems items
  | _ => false

def isRunItems : List Node → Bool
  | [] => false
  | n :: rest => n.isRunStatement || isRunItems rest

end

def isInstantiated (n : Node) : Bool :=
  match n.shape with
  | .module => n.isRunStatement
  | _ => false

/-! ## Constants -/

def constant? : Node → Option Double
  | .mk h (.literal text _ _) _ _ _ =>
    if h.kind == .numericLiteral then Double.ofLiteral? text else none
  | .mk h (.unary operator) [.node operand] _ _ =>
    if h.kind == .prefixUnaryExpression then
      match operator with
      | .minusToken => operand.constant?.map Double.neg
      | .plusToken => operand.constant?
      | _ => none
    else none
  | .mk h .wrapped [.node e] _ _ => if h.kind == .parenthesizedExpression then e.constant? else none
  | _ => none

def isStringValued (n : Node) : Bool :=
  match n.kind with
  | .stringLiteral | .noSubstitutionTemplateLiteral | .templateExpression => true
  | _ => false

/-! ## Copies -/

def modifiersWithout (n : Node) (removed : ModifierFlags) : Option NodeList :=
  Made.list? (((n.modifiers?.map (·.items)).getD []).filter fun m =>
    !(ModifierFlags.ofKind m.kind).meets removed)

/-- A made copy of a function or class without types and without some modifiers. -/
def copied (n : Node) (kind : Kind) (name : Option Node) (removed : ModifierFlags) : Node :=
  let modifiers := n.modifiersWithout removed
  match n.form with
  | .functionLike p =>
    (Made.node kind (.functionLike
      { p with
        modifiers, name, question := none, exclamation := none, typeParameters := none,
        type := none })).withOrigin n
  | .classLike p =>
    (Made.node kind (.classLike { p with modifiers, name, typeParameters := none })).withOrigin n
  | _ => n

end Node

end ScriptFrontend
