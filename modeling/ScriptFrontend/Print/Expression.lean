import ScriptFrontend.Print.Function
import ScriptFrontend.Print.Name
import ScriptFrontend.Scope.Binding

/-!
# Printing expressions

An expression is printed as what stands in its place, if anything does. Where a binary expression
stands in the place of one that binds closer it is put between parentheses. Assertions of types print
only what they assert. Elements keep their form, and the text between them is copied as it was read.
-/

namespace ScriptFrontend

/-! ## Elements -/

namespace Print

def tagName (n : Node) : Print Unit := do
  match n.form with
  | .identifier text _ => if Node.isIntrinsicName text then write text else expression n
  | .jsxNamespacedName space part =>
    name space
    write ":"
    name part
  | _ => expression n

def bracedExpression (dots expressionNode : Option Node) : Print Unit := do
  write "\x7b"
  if dots.isSome then write "..."
  expressionNode.forM expression
  write "\x7d"

def elementText (n : Node) (text : String) : Print Unit := do
  if n.isSynthesized then write text
  else
    let source := (← read).source
    modify (·.writeRaw (n.fullText source))

def child (n : Node) : Print Unit := do
  match n.form with
  | .jsxExpression dots e => bracedExpression dots e
  | .literal text _ _ =>
    if n.kind == .jsxText || n.kind == .jsxTextAllWhiteSpaces then elementText n text
  | _ => printAs .element n

def attributeValue (n : Node) : Print Unit := do
  write "="
  match n.form with
  | .literal _ _ _ => literal n
  | .jsxExpression dots e => bracedExpression dots e
  | _ => printAs .element n

def tagAttribute (n : Node) : Print Unit := do
  write " "
  match n.form with
  | .jsxAttribute attributeName value =>
    match attributeName.form with
    | .jsxNamespacedName _ _ => tagName attributeName
    | _ => name attributeName
    value.forM attributeValue
  | .wrapped e =>
    write "\x7b..."
    expression e
    write "\x7d"
  | _ => pure ()

def openingTag (nameNode attributes : Node) (closing : String) : Print Unit := do
  write "<"
  tagName nameNode
  if let .list _ l := attributes.form then l.items.forM tagAttribute
  write closing

def element (n : Node) : Print Unit := do
  match n.form with
  | .jsxElement opening children _ =>
    if let .jsxTag nameNode _ attributes := opening.form then
      openingTag nameNode attributes ">"
      children.items.forM child
      write "</"
      tagName nameNode
      write ">"
  | .jsxTag nameNode _ attributes => openingTag nameNode attributes " />"
  | .jsxFragment _ children _ =>
    write "<>"
    children.items.forM child
    write "</>"
  | _ => pure ()

end Print

/-! ## Expressions -/

namespace Node

def isCommaExpression (n : Node) : Bool :=
  match n.form with
  | .binary _ operator _ => operator.kind == .commaToken
  | _ => false

end Node

namespace Print

/-- The signs of two operators side by side must not become one other sign. -/
def needsBlankAfter (operator : Kind) (operand : Node) : Bool :=
  match operand.kind, operand.form with
  | .prefixUnaryExpression, .unary inner _ =>
    match operator, inner with
    | .plusToken, .plusToken | .plusToken, .plusPlusToken | .minusToken, .minusToken
    | .minusToken, .minusMinusToken => true
    | _, _ => false
  | _, _ => false

def inParentheses (p : Print Unit) : Print Unit := do
  write "("
  p
  write ")"

def argument (n : Node) : Print Unit :=
  if n.isSynthesized && n.isCommaExpression then inParentheses (expression n) else expression n

def itemLines (print : Node → Print Unit) : List Node → Print Unit
  | [] => pure ()
  | n :: rest => do
    print n
    if !rest.isEmpty then write ","
    endLine
    itemLines print rest

def arrayLiteral (multiLine : Bool) (items : List Node) : Print Unit := do
  if items.isEmpty then write "[]"
  else
    write "["
    if multiLine then
      endLine
      indented (itemLines expression items)
    else
      separated ", " expression items
      closeHole items
    write "]"

def shorthandMember (nameNode : Node) (value : Option Node) : Print Unit := do
  name nameNode
  ((← read).substitution.expression nameNode).forM fun replacement => do
    write ": "
    expression replacement
  initializer value

def objectMember (n : Node) : Print Unit := do
  match n.form with
  | .property p =>
    propertyName p.name
    p.value.forM fun e => do
      write ": "
      expression e
  | .shorthand nameNode _ value => shorthandMember nameNode value
  | .functionLike _ => function n
  | _ => expression n

def objectLiteral (multiLine : Bool) (items : List Node) : Print Unit := do
  if items.isEmpty then write "\x7b\x7d"
  else if multiLine then braced (itemLines objectMember items)
  else
    write "\x7b "
    separated ", " objectMember items
    write " \x7d"

def listExpression (n : Node) (multiLine : Bool) (items : List Node) : Print Unit :=
  match n.kind with
  | .arrayLiteralExpression => arrayLiteral multiLine items
  | .objectLiteralExpression => objectLiteral multiLine items
  | .objectBindingPattern | .arrayBindingPattern => printAs .binding n
  | .commaListExpression => separated ", " expression items
  | _ => pure ()

def wrapped (kind : Kind) (e : Node) : Print Unit := do
  match kind with
  | .parenthesizedExpression => inParentheses (expression e)
  | .deleteExpression =>
    write "delete "
    expression e
  | .typeOfExpression =>
    write "typeof "
    expression e
  | .voidExpression =>
    write "void "
    expression e
  | .awaitExpression =>
    write "await "
    expression e
  | .spreadElement | .spreadAssignment =>
    write "..."
    expression e
  | .computedPropertyName =>
    write "["
    expression e
    write "]"
  | .partiallyEmittedExpression => printAs .settled e
  | _ => expression e

def call (isNew : Bool) (p : Form.Call) : Print Unit := do
  if isNew then write "new "
  expression p.expression
  if p.questionDot.isSome then write "?."
  inParentheses (separated ", " argument ((p.arguments.map (·.items)).getD []))

def template (head : Node) (spans : List Node) : Print Unit := do
  literal head
  for span in spans do
    if let .templateSpan e piece := span.form then
      expression e
      literal piece

def unary (kind operator : Kind) (operand : Node) : Print Unit := do
  if kind == .postfixUnaryExpression then
    expression operand
    write (tokenTextOf operator)
  else
    write (tokenTextOf operator)
    if needsBlankAfter operator operand then write " "
    expression operand

def binary (left operator right : Node) : Print Unit := do
  expression left
  if operator.kind == .commaToken then write ", " else write s!" {tokenTextOf operator.kind} "
  expression right

def yield (asterisk e : Option Node) : Print Unit := do
  write "yield"
  if asterisk.isSome then write "*"
  e.forM fun e => do
    write " "
    expression e

def settled (n : Node) : Print Unit := do
  match n.form with
  | .identifier _ _ => name n
  | .literal _ _ _ => literal n
  | .token => if n.kind != .omittedExpression then write (tokenTextOf n.kind)
  | .templateLiteral head spans => template head spans.items
  | .list multiLine l => listExpression n multiLine l.items
  | .propertyAccess e questionDot member =>
    expression e
    write (if questionDot.isSome then "?." else ".")
    name member
  | .elementAccess e questionDot index =>
    expression e
    write (if questionDot.isSome then "?.[" else "[")
    expression index
    write "]"
  | .call p => call (n.kind == .newExpression) p
  | .taggedTemplate p =>
    expression p.tag
    if p.questionDot.isSome then write "?."
    expression p.template
  | .typedExpression e _ | .typeAssertion _ e => expression e
  | .wrapped e => wrapped n.kind e
  | .functionLike _ => function n
  | .classLike _ => classLike n
  | .unary operator operand => unary n.kind operator operand
  | .binary left operator right => binary left operator right
  | .conditional p =>
    expression p.condition
    write " ? "
    expression p.yes
    write " : "
    expression p.no
  | .yieldLike asterisk e => yield asterisk e
  | .metaProperty word member =>
    write (if word == .newKeyword then "new." else "import.")
    name member
  | .typeReference nameNode _ => expression nameNode
  | .jsxElement _ _ _ | .jsxTag _ _ _ | .jsxFragment _ _ _ => printAs .element n
  | _ => if !n.isSynthesized then writeSource n

def substituted (isWhole : Bool) (n : Node) : Print Unit := do
  match (← read).substitution.expression n with
  | some replacement =>
    if !isWhole && replacement.kind == .binaryExpression && n.kind != .binaryExpression then
      inParentheses (expression replacement)
    else expression replacement
  | none => settled n

end Print

end ScriptFrontend
