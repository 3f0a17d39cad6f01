import ScriptFrontend.Tree.Form

/-!
# Made nodes

Nodes that were not read from a text. They have no place and no number, and are flagged as made. What
is not said of a part here is absent: made variables have no types, and made functions no modifiers.
-/

namespace ScriptFrontend

namespace Made

def head (kind : Kind) (flags : NodeFlags) : Head :=
  { kind, id := 0, pos := noPos, stop := noPos, flags := NodeFlags.synthesized ||| flags }

def node (kind : Kind) (form : Form) : Node := .ofForm (head kind .empty) form

def list (items : List Node) : NodeList := .ofItems items noPos noPos

def list? (items : List Node) : Option NodeList := if items.isEmpty then none else some (list items)

/-! ## Expressions -/

def token (kind : Kind) : Node := node kind .token

def identifier (text : String) : Node := node .identifier (.identifier text none)

def stringLiteral (text : String) : Node := node .stringLiteral (.literal text none .empty)

def numericLiteral (text : String) : Node := node .numericLiteral (.literal text none .empty)

def member (e : Node) (name : String) : Node :=
  node .propertyAccessExpression (.propertyAccess e none (identifier name))

def element (e argument : Node) : Node :=
  node .elementAccessExpression (.elementAccess e none argument)

def call (f : Node) (arguments : List Node) : Node :=
  node .callExpression (.call { expression := f, arguments := some (list arguments) })

def binary (left : Node) (operator : Kind) (right : Node) : Node :=
  node .binaryExpression (.binary left (token operator) right)

def assignment (target value : Node) : Node := binary target .equalsToken value

def commas? : List Node → Option Node
  | [] => none
  | first :: rest => some (rest.foldl (fun left right => binary left .commaToken right) first)

def unary (operator : Kind) (operand : Node) : Node :=
  node .prefixUnaryExpression (.unary operator operand)

def parenthesized (e : Node) : Node := node .parenthesizedExpression (.wrapped e)

def kept (e : Node) : Node := node .partiallyEmittedExpression (.wrapped e)

def undefined : Node := node .voidExpression (.wrapped (numericLiteral "0"))

def conditional (condition yes no : Node) : Node :=
  node .conditionalExpression
    (.conditional ⟨condition, token .questionToken, yes, token .colonToken, no⟩)

def object (properties : List Node) (multiLine : Bool) : Node :=
  node .objectLiteralExpression (.list multiLine (list properties))

def array (elements : List Node) (multiLine : Bool) : Node :=
  node .arrayLiteralExpression (.list multiLine (list elements))

def property (name value : Node) : Node :=
  node .propertyAssignment (.property { name, value := some value })

/-! ## Functions -/

def parameter (name : Node) : Node := node .parameter (.parameter { name })

def block (statements : List Node) : Node := node .block (.block true (list statements))

def functionLike (kind : Kind) (modifiers : Option NodeList) (name : Option Node)
    (parameters statements : List Node) : Node :=
  let parameters := list parameters
  node kind (.functionLike { modifiers, name, parameters, body := some (block statements) })

def function (parameters : List String) (statements : List Node) : Node :=
  functionLike .functionExpression none none (parameters.map (parameter ∘ identifier)) statements

def functionDeclaration (name : String) (parameters : List String) (statements : List Node) : Node :=
  functionLike .functionDeclaration none (some (identifier name))
    (parameters.map (parameter ∘ identifier)) statements

/-! ## Statements -/

def expressionStatement (e : Node) : Node := node .expressionStatement (.wrapped e)

def returnStatement (e : Node) : Node := node .returnStatement (.optionalExpression (some e))

def ifStatement (condition yes : Node) : Node := node .ifStatement (.ifElse condition yes none)

def variableDeclaration (name : Node) (value : Option Node) : Node :=
  node .variableDeclaration (.variableDeclaration { name, value })

def variableList (flags : NodeFlags) (declarations : List Node) : Node :=
  .ofForm (head .variableDeclarationList flags) (.list false (list declarations))

def variableStatement (modifiers : List Node) (flags : NodeFlags) (declarations : List Node) :
    Node :=
  node .variableStatement (.variableStatement (list? modifiers) (variableList flags declarations))

def varStatement (declarations : List Node) : Node := variableStatement [] .empty declarations

def forIn (name : String) (e : Node) (statements : List Node) : Node :=
  let start := variableList .empty [variableDeclaration (identifier name) none]
  node .forInStatement (.forEach { start, expression := e, body := block statements })

/-- A statement that prints nothing and marks where something about a declaration happens. -/
def marker (kind : Kind) (declaration : Node) : Node := (node kind .marker).withOrigin declaration

end Made

namespace Node

def remade (n : Node) (form : Form) : Node := (Made.node n.kind form).withOrigin n

end Node

end ScriptFrontend
