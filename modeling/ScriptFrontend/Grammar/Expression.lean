import ScriptFrontend.Grammar.Arrow
import ScriptFrontend.Grammar.Primary

/-!
# Expressions

From the inside out: operands with what follows them, operators before an operand, operators between
operands, conditional expressions, assignments and arrow functions.
-/

namespace ScriptFrontend

namespace Kind

def isLeftHandSide : Kind → Bool
  | .propertyAccessExpression | .elementAccessExpression | .newExpression | .callExpression
  | .jsxElement | .jsxSelfClosingElement | .jsxFragment | .taggedTemplateExpression
  | .arrayLiteralExpression | .parenthesizedExpression | .objectLiteralExpression
  | .classExpression | .functionExpression | .identifier | .privateIdentifier
  | .regularExpressionLiteral | .numericLiteral | .bigIntLiteral | .stringLiteral
  | .noSubstitutionTemplateLiteral | .templateExpression | .falseKeyword | .nullKeyword
  | .thisKeyword | .trueKeyword | .superKeyword | .nonNullExpression
  | .expressionWithTypeArguments | .metaProperty | .importKeyword | .missingDeclaration => true
  | _ => false

end Kind

namespace Parse

open Diagnostic (Fault)

/-! ## Operands -/

def superExpression : Parse Node := do
  let pos ← nodePos
  let e ← tokenNode
  if ← tokenIn [.openParenToken, .dotToken, .openBracketToken] then return e
  let _ ← expectedToken .dotToken (some .superAlone)
  let name ← nameAfterDot true true
  finish .propertyAccessExpression pos (.propertyAccess e none name)

def memberExpression : Parse Node := do
  let pos ← nodePos
  memberRest pos (← call .primary) true

def importExpression : Parse Node := do
  if ← lookAhead (nextIsIn [.openParenToken, .lessThanToken]) then
    noteFileFlag NodeFlags.dynamicImport
    tokenNode
  else if ← lookAhead (nextTokenIs .dotToken) then
    let pos ← nodePos
    skipToken
    skipToken
    let name ← identifierName
    noteFileFlag NodeFlags.importMeta
    finish .metaProperty pos (.metaProperty .importKeyword name)
  else memberExpression

def leftHandSide : Parse Node := do
  let pos ← nodePos
  let e ←
    if ← tokenIs .importKeyword then importExpression
    else if ← tokenIs .superKeyword then superExpression
    else memberExpression
  callRest pos e

def decoratorExpression : Parse Node := do
  if ← (inContext NodeFlags.awaitContext <&&> tokenIs .awaitKeyword) then
    let pos ← nodePos
    let e ← identifierOr .expressionExpected
    skipToken
    callRest pos (← memberRest pos e true)
  else call .leftHandSide

/-! ## Operators before and behind an operand -/

def updateExpression : Parse Node := do
  let operator ← token
  if operator == .plusPlusToken || operator == .minusMinusToken then
    return ← spanning .prefixUnaryExpression do
      skipToken
      return .unary operator (← call .leftHandSide)
  let isElement ←
    if operator == .lessThanToken && (← isElementVariant) then
      lookAhead do
        let k ← nextToken
        return k.isIdentifierOrWord || k == .greaterThanToken
    else pure false
  if isElement then return ← call (.element { inExpression := true })
  let e ← call .leftHandSide
  let operator ← token
  if (operator == .plusPlusToken || operator == .minusMinusToken) && !(← afterLineBreak) then
    skipToken
    return ← finish .postfixUnaryExpression e.pos (.unary operator e)
  return e

def prefixedExpression : Parse Node := spanning .prefixUnaryExpression do
  let operator ← token
  skipToken
  return .unary operator (← call .simpleUnary)

def wordExpression (kind : Kind) : Parse Node := spanning kind do
  skipToken
  return .wrapped (← call .simpleUnary)

def typeAssertion : Parse Node := spanning .typeAssertionExpression do
  require .lessThanToken
  let t ← type
  require .greaterThanToken
  return .typeAssertion t (← call .simpleUnary)

/-- `await` takes an operand in its context, and elsewhere if one follows on the line. -/
def isAwaitExpression : Parse Bool :=
  inContext NodeFlags.awaitContext <||> lookAhead nextIsWordOrLiteralOnLine

def simpleUnary : Parse Node := do
  match ← token with
  | .plusToken | .minusToken | .tildeToken | .exclamationToken => prefixedExpression
  | .deleteKeyword => wordExpression .deleteExpression
  | .typeOfKeyword => wordExpression .typeOfExpression
  | .voidKeyword => wordExpression .voidExpression
  | .lessThanToken =>
    if ← isElementVariant then call (.element { inExpression := true, isOperand := true })
    else typeAssertion
  | .awaitKeyword =>
    if ← isAwaitExpression then wordExpression .awaitExpression else updateExpression
  | _ => updateExpression

def isUpdateStart : Parse Bool := do
  match ← token with
  | .plusToken | .minusToken | .tildeToken | .exclamationToken | .deleteKeyword | .typeOfKeyword
  | .voidKeyword | .awaitKeyword => return false
  | .lessThanToken => isElementVariant
  | _ => return true

/-! ## Operators between operands -/

/-- The level at which the current operator joins an operand read above `floor`. -/
def operatorLevel? (floor : Precedence) : Parse (Option Precedence) := do
  match Precedence.ofOperator? (← rescanGreater) with
  | none => return none
  | some p =>
    unless p.continues floor do return none
    match ← token with
    | .inKeyword => if ← inContext NodeFlags.disallowIn then return none
    | .asKeyword | .satisfiesKeyword => if ← afterLineBreak then return none
    | _ => pure ()
    return some p

/-- The operators behind an operand that bind closer than `floor`, with their right operands. -/
def binaryRest (floor : Precedence) (left : Node) (pos : Nat) : Parse Node := do
  let mut left := left
  for _ in rounds do
    match ← operatorLevel? floor with
    | none => break
    | some level =>
      let k ← token
      if k == .asKeyword || k == .satisfiesKeyword then
        skipToken
        let t ← type
        let kind : Kind :=
          if k == .satisfiesKeyword then .satisfiesExpression else .asExpression
        left ← finish kind left.pos (.typedExpression left t)
      else
        let operator ← tokenNode
        let right ← call (.binary level)
        left ← finish .binaryExpression pos (.binary left operator right)
  return left

/-- An operand with the operators before it. A power of an operand with an operator before it is
refused. -/
def unary : Parse Node := do
  if ← isUpdateStart then
    let pos ← nodePos
    let e ← updateExpression
    if ← tokenIs .asteriskAsteriskToken then return ← binaryRest .power e pos
    return e
  let operator ← token
  let e ← call .simpleUnary
  if ← tokenIs .asteriskAsteriskToken then
    if e.kind == .typeAssertionExpression then errorAtNode e .assertionBeforePower []
    else errorAtNode e .unaryBeforePower [tokenName operator]
  return e

def binary (floor : Precedence) : Parse Node := do
  let pos ← nodePos
  binaryRest floor (← call .unary) pos

/-! ## Assignments -/

def conditionalRest (condition : Node) (pos : Nat) (allowReturnType : Bool) : Parse Node := do
  match ← optionalToken? .questionToken with
  | none => return condition
  | some question =>
    let yes ←
      outside (NodeFlags.disallowIn ||| NodeFlags.decoratorContext) (call (.assignment false))
    let colon ← expectedToken .colonToken none
    let no ←
      if colon.isMissing then missingNode .identifier false .expected [":"]
      else call (.assignment allowReturnType)
    finish .conditionalExpression pos (.conditional { condition, question, yes, colon, no })

def assignmentRest (e : Node) (pos : Nat) (allowReturnType : Bool) : Parse Node := do
  if e.kind.isLeftHandSide then
    if (← rescanGreater).isAssignment then
      let operator ← tokenNode
      let right ← call (.assignment allowReturnType)
      return ← finish .binaryExpression pos (.binary e operator right)
  conditionalRest e pos allowReturnType

/-- `yield` takes an operand in its context, and elsewhere if one follows on the line. -/
def isYieldExpression : Parse Bool :=
  tokenIs .yieldKeyword <&&>
    (inContext NodeFlags.yieldContext <||> lookAhead nextIsWordOrLiteralOnLine)

def yieldExpression : Parse Node := spanning .yieldExpression do
  skipToken
  if ← afterLineBreak then return .yieldLike none none
  unless ← (tokenIs .asteriskToken <||> isExpressionStart) do return .yieldLike none none
  let asterisk ← optionalToken? .asteriskToken
  return .yieldLike asterisk (some (← assignment))

def openAssignment (allowReturnType : Bool) : Parse Node := do
  if ← isYieldExpression then return ← yieldExpression
  if let some n ← arrow? allowReturnType then return n
  if let some n ← bareAsyncArrow? allowReturnType then return n
  let l ← lead
  let e ← call (.binary .comma)
  if e.kind == .identifier && (← tokenIs .equalsGreaterThanToken) then
    return ← bareArrow l e allowReturnType
  assignmentRest e l.pos allowReturnType

def assignmentAtDepth (allowReturnType : Bool) : Parse Node :=
  deeper (missingNode .identifier false .expressionExpected []) (openAssignment allowReturnType)

end Parse

end ScriptFrontend
