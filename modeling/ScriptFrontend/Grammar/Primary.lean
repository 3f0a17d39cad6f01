import ScriptFrontend.Grammar.Access
import ScriptFrontend.Grammar.Class

/-!
# Primary expressions

Literals, names, arrays, objects, functions, classes, and what is made by `new`.
-/

namespace ScriptFrontend.Parse

open Diagnostic (Fault)

def parenthesizedExpression : Parse Node := documented .parenthesizedExpression do
  require .openParenToken
  let e ← freeExpression
  require .closeParenToken
  return .wrapped e

def arrayLiteral : Parse Node := spanning .arrayLiteralExpression do
  let openPos ← tokenStart
  let opened ← expect .openBracketToken
  let multiLine ← afterLineBreak
  let l ← commaListOf .arrayLiteralMembers arrayElement false
  requireMatching .openBracketToken .closeBracketToken opened openPos
  return .list multiLine l

/-! ## Objects -/

def freeAssignment : Parse Node := allowIn assignment

/-- A property of an object, after its name and the marks behind it. A name alone stands for its
value as well. -/
def propertyAssignment (l : Lead) (mayBeShorthand : Bool) (name : Node)
    (question exclamation : Option Node) : Parse Node := do
  if ← (pure mayBeShorthand <&&> do return (← token) != .colonToken) then
    let equals ← optionalToken? .equalsToken
    let value ← if equals.isSome then some <$> freeAssignment else pure none
    finishLed l .shorthandPropertyAssignment (.shorthand name equals value)
  else
    require .colonToken
    let value ← freeAssignment
    finishLed l .propertyAssignment (.property
      { modifiers := l.modifiers, name, question, exclamation, value := some value })

def objectMember : Parse Node := do
  let l ← lead
  if (← optionalToken? .dotDotDotToken).isSome then
    let e ← assignment
    return ← finishLed l .spreadAssignment (.wrapped e)
  let l := { l with modifiers := ← modifiers { decorators := true } }
  if let some n ← accessor? l {} then return n
  let asterisk ← optionalToken? .asteriskToken
  let isName ← isIdentifier
  let name ← propertyName
  let question ← optionalToken? .questionToken
  let exclamation ← optionalToken? .exclamationToken
  if ← (pure asterisk.isSome <||> tokenIn [.openParenToken, .lessThanToken]) then
    methodDeclaration l asterisk name question exclamation none
  else propertyAssignment l isName name question exclamation

def objectLiteral : Parse Node := spanning .objectLiteralExpression do
  let openPos ← tokenStart
  let opened ← expect .openBraceToken
  let multiLine ← afterLineBreak
  let l ← commaListOf .objectLiteralMembers objectMember true
  requireMatching .openBraceToken .closeBraceToken opened openPos
  return .list multiLine l

/-! ## Classes and `new` -/

def classExpression : Parse Node := do classLike (← lead) .classExpression

def decoratedExpression : Parse Node := do
  let l ← lead
  let l := { l with modifiers := ← modifiers { decorators := true } }
  if ← tokenIs .classKeyword then return ← classLike l .classExpression
  let stop ← nodePos
  errorAtSpan stop 0 .expressionExpected []
  finishAt .missingDeclaration l.pos stop (.missingDeclaration l.modifiers)

/-- `new` with what it makes an object of; after a dot, a word about the call that runs. -/
def newExpression (primary : Parse Node) : Parse Node := do
  let pos ← nodePos
  require .newKeyword
  if ← optional .dotToken then
    let name ← identifierName
    return ← finish .metaProperty pos (.metaProperty .newKeyword name)
  let start ← nodePos
  let e ← memberRest start (← primary) false
  let (callee, typeArguments) := e.instantiation?.getD (e, none)
  if ← tokenIs .questionDotToken then
    errorHere .optionalChainFromNew [callee.textIn (← sourceText)]
  let given ← if ← tokenIs .openParenToken then some <$> arguments else pure none
  finish .newExpression pos (.call { expression := callee, typeArguments, arguments := given })

/-! ## Primary expressions -/

def primary : Parse Node := do
  match ← token with
  | .noSubstitutionTemplateLiteral =>
    if (← tokenFlags).has TokenFlags.invalidEscape then
      let _ ← rescanTemplate false
    literal
  | .numericLiteral | .bigIntLiteral | .stringLiteral => literal
  | .thisKeyword | .superKeyword | .nullKeyword | .trueKeyword | .falseKeyword => tokenNode
  | .openParenToken => parenthesizedExpression
  | .openBracketToken => arrayLiteral
  | .openBraceToken => objectLiteral
  | .asyncKeyword =>
    if ← lookAhead nextIsFunctionOnLine then functionExpression
    else identifierOr .expressionExpected
  | .atToken => decoratedExpression
  | .classKeyword => classExpression
  | .functionKeyword => functionExpression
  | .newKeyword => newExpression (call .primary)
  | .slashToken | .slashEqualsToken =>
    if (← rescanSlash) == .regularExpressionLiteral then literal
    else identifierOr .expressionExpected
  | .templateHead => templateExpression false
  | .privateIdentifier => privateName
  | _ => identifierOr .expressionExpected

end ScriptFrontend.Parse
