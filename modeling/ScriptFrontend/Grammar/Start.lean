import ScriptFrontend.Grammar.State

/-!
# What the current token may start

Tests on the current token, some of which look at the tokens after it: whether an expression, a
type, a declaration, a statement, a member or a parameter may start here. Lists ask them where to go
on and where to stop.
-/

namespace ScriptFrontend

namespace Kind

def startsLeftHandSide : Kind → Bool
  | .thisKeyword | .superKeyword | .nullKeyword | .trueKeyword | .falseKeyword | .numericLiteral
  | .bigIntLiteral | .stringLiteral | .noSubstitutionTemplateLiteral | .templateHead
  | .openParenToken | .openBracketToken | .openBraceToken | .functionKeyword | .classKeyword
  | .newKeyword | .slashToken | .slashEqualsToken | .identifier | .privateIdentifier => true
  | _ => false

def startsPrefixed : Kind → Bool
  | .plusToken | .minusToken | .tildeToken | .exclamationToken | .deleteKeyword | .typeOfKeyword
  | .voidKeyword | .plusPlusToken | .minusMinusToken | .lessThanToken | .awaitKeyword
  | .yieldKeyword | .privateIdentifier | .atToken => true
  | _ => false

def startsType : Kind → Bool
  | .anyKeyword | .unknownKeyword | .stringKeyword | .numberKeyword | .bigIntKeyword
  | .booleanKeyword | .readonlyKeyword | .symbolKeyword | .uniqueKeyword | .voidKeyword
  | .undefinedKeyword | .nullKeyword | .thisKeyword | .typeOfKeyword | .neverKeyword
  | .openBraceToken | .openBracketToken | .lessThanToken | .barToken | .ampersandToken
  | .newKeyword | .stringLiteral | .numericLiteral | .bigIntLiteral | .trueKeyword | .falseKeyword
  | .objectKeyword | .asteriskToken | .questionToken | .exclamationToken | .dotDotDotToken
  | .inferKeyword | .importKeyword | .assertsKeyword | .noSubstitutionTemplateLiteral
  | .templateHead => true
  | _ => false

/-- A token that starts a statement wherever it stands. The words of the later parts of a `try`
statement are read as one that is broken. -/
def startsStatement : Kind → Bool
  | .atToken | .semicolonToken | .openBraceToken | .varKeyword | .letKeyword | .usingKeyword
  | .functionKeyword | .classKeyword | .enumKeyword | .ifKeyword | .doKeyword | .whileKeyword
  | .forKeyword | .continueKeyword | .breakKeyword | .returnKeyword | .withKeyword | .switchKeyword
  | .throwKeyword | .tryKeyword | .debuggerKeyword | .catchKeyword | .finallyKeyword
  | .asyncKeyword | .declareKeyword | .interfaceKeyword | .moduleKeyword | .namespaceKeyword
  | .typeKeyword | .globalKeyword => true
  | _ => false

def startsMember : Kind → Bool
  | .publicKeyword | .privateKeyword | .protectedKeyword | .readonlyKeyword | .overrideKeyword
  | .staticKeyword | .accessorKeyword => true
  | _ => false

end Kind

namespace Parse

def nextIsNumber : Parse Bool := do
  skipToken
  tokenIn [.numericLiteral, .bigIntLiteral]

def nextIsIn (kinds : List Kind) : Parse Bool := do
  skipToken
  tokenIn kinds

/-! ## Names -/

/-- The current token may name a binding; the context of `yield` and `await` is not asked. -/
def isBindingIdentifier : Parse Bool := do
  let k ← token
  return k == .identifier || (k.value > Kind.withKeyword.value && k.isIdentifierOrWord)

def isBindingStart : Parse Bool :=
  tokenIn [.openBraceToken, .openBracketToken, .privateIdentifier] <||> isBindingIdentifier

/-! ## Expressions -/

def isLeftHandSideStart : Parse Bool := do
  let k ← token
  if k == .importKeyword then lookAhead (nextIsIn [.openParenToken, .lessThanToken, .dotToken])
  else if k.startsLeftHandSide then return true
  else isIdentifier

def isBinaryOperator : Parse Bool := do
  let k ← token
  if k == .inKeyword && (← inContext NodeFlags.disallowIn) then return false
  return (Precedence.ofOperator? k).isSome

/-- An operator without its left operand starts an expression too, so that it is read as a part of
one. -/
def isExpressionStart : Parse Bool := do
  if ← isLeftHandSideStart then return true
  if (← token).startsPrefixed then return true
  isBinaryOperator <||> isIdentifier

def isExpressionStatementStart : Parse Bool := do
  if ← tokenIn [.openBraceToken, .functionKeyword, .classKeyword, .atToken] then return false
  isExpressionStart

/-! ## Types and parameters -/

/-- A type that does not begin with a parenthesis starts here. Inside a list of parameters some
types are left out. -/
def isOpenTypeStart (amongParameters : Bool) : Parse Bool := do
  let k ← token
  if k.startsType then return true
  match k with
  | .functionKeyword => return !amongParameters
  | .minusToken => if amongParameters then return false else lookAhead nextIsNumber
  | .openParenToken => return false
  | _ => isIdentifier

def isUntypedParameterStart : Parse Bool := do
  if ← tokenIs .dotDotDotToken then return true
  if ← isBindingStart then return true
  let k ← token
  return k.isModifier || k == .atToken

def afterParenIsTypeStart : Parse Bool := do
  for _ in rounds do
    skipToken
    if ← tokenIs .closeParenToken then return true
    if ← isUntypedParameterStart then return true
    if ← isOpenTypeStart true then return true
    unless ← tokenIs .openParenToken do return ← isOpenTypeStart false
  return false

/-- A type starts here. A parenthesis inside a list of parameters starts none. -/
def isTypeStart (amongParameters : Bool) : Parse Bool := do
  if ← tokenIs .openParenToken then
    if amongParameters then return false else lookAhead afterParenIsTypeStart
  else isOpenTypeStart amongParameters

def isParameterStart (isDoc : Bool) : Parse Bool := do
  if ← isUntypedParameterStart then return true
  isTypeStart (!isDoc)

/-! ## Modifiers -/

def canFollowModifier : Parse Bool :=
  tokenIn [.openBracketToken, .openBraceToken, .asteriskToken, .dotDotDotToken] <||>
    isLiteralPropertyName

def nextOnLineCanFollowModifier : Parse Bool := do
  skipToken
  if ← afterLineBreak then return false
  canFollowModifier

def canFollowExport : Parse Bool := do
  if ← tokenIs .atToken then return true
  if ← tokenIn [.asteriskToken, .asKeyword, .openBraceToken] then return false
  canFollowModifier

def nextCanFollowExport : Parse Bool := do
  skipToken
  canFollowExport

def nextCanFollowDefault : Parse Bool := do
  match ← nextToken with
  | .classKeyword | .functionKeyword | .interfaceKeyword | .atToken => return true
  | .abstractKeyword => lookAhead nextIsClassOnLine
  | .asyncKeyword => lookAhead nextIsFunctionOnLine
  | _ => return false

def nextCanFollowModifier : Parse Bool := do
  match ← token with
  | .constKeyword => nextTokenIs .enumKeyword
  | .exportKeyword =>
    match ← nextToken with
    | .defaultKeyword => lookAhead nextCanFollowDefault
    | .typeKeyword => lookAhead nextCanFollowExport
    | _ => canFollowExport
  | .defaultKeyword => nextCanFollowDefault
  | .staticKeyword =>
    skipToken
    canFollowModifier
  | .getKeyword | .setKeyword =>
    skipToken
    tokenIs .openBracketToken <||> isLiteralPropertyName
  | _ => nextOnLineCanFollowModifier

/-! ## Members -/

def isTypeMemberStart : Parse Bool := do
  if ← tokenIn [.openParenToken, .lessThanToken, .getKeyword, .setKeyword] then return true
  let mut named := false
  for _ in rounds do
    unless (← token).isModifier do break
    named := true
    skipToken
  if ← tokenIs .openBracketToken then return true
  if ← isLiteralPropertyName then
    named := true
    skipToken
  if named then
    tokenIn [.openParenToken, .lessThanToken, .questionToken, .colonToken, .commaToken] <||>
      canEndStatement
  else return false

def isMemberAfter : Option Kind → Parse Bool
  | none => return false
  | some k => do
    if !k.isWord || k == .setKeyword || k == .getKeyword then return true
    tokenIn [.openParenToken, .lessThanToken, .exclamationToken, .colonToken, .equalsToken,
      .questionToken] <||> canEndStatement

/-- A member of a class starts here. The last of some modifiers may be its name. -/
def isClassMemberStart : Parse Bool := do
  if ← tokenIs .atToken then return true
  let mut name : Option Kind := none
  for _ in rounds do
    let k ← token
    unless k.isModifier do break
    if k.startsMember then return true
    name := some k
    skipToken
  if ← tokenIs .asteriskToken then return true
  if ← isLiteralPropertyName then
    name := some (← token)
    skipToken
  if ← tokenIs .openBracketToken then return true
  isMemberAfter name

/-- After an opening bracket: the parameter of an index signature, and not a computed name. -/
def isIndexSignatureBody : Parse Bool := do
  skipToken
  if ← tokenIn [.dotDotDotToken, .closeBracketToken] then return true
  if (← token).isModifier then
    skipToken
    if ← isIdentifier then return true
  else
    unless ← isIdentifier do return false
    skipToken
  if ← tokenIn [.colonToken, .commaToken] then return true
  unless ← tokenIs .questionToken do return false
  nextIsIn [.colonToken, .commaToken, .closeBracketToken]

def isIndexSignature : Parse Bool :=
  tokenIs .openBracketToken <&&> lookAhead isIndexSignatureBody

/-! ## Heritage -/

def isHeritageClause : Parse Bool := tokenIn [.extendsKeyword, .implementsKeyword]

def isHeritageClauseWithExpression : Parse Bool := do
  unless ← isHeritageClause do return false
  lookAhead do
    skipToken
    isExpressionStart

/-- An object literal as the base of a class: an empty one is the body of the class unless more of
the heritage follows. -/
def isHeritageObject : Parse Bool := do
  if ← nextTokenIs .closeBraceToken then
    nextIsIn [.commaToken, .openBraceToken, .extendsKeyword, .implementsKeyword]
  else return true

/-! ## Declarations and statements -/

def nextIsBindingOnLine (exceptOf : Bool) : Parse Bool := do
  skipToken
  if exceptOf && (← tokenIs .ofKeyword) then
    return ← lookAhead (nextIsIn [.equalsToken, .semicolonToken, .colonToken])
  if ← (isBindingIdentifier <||> tokenIs .openBraceToken) then return !(← afterLineBreak)
  return false

def nextIsUsingOnLine : Parse Bool := do
  unless ← nextTokenIs .usingKeyword do return false
  nextIsBindingOnLine false

def isUsingDeclaration : Parse Bool := lookAhead (nextIsBindingOnLine false)

def isAwaitUsingDeclaration : Parse Bool := lookAhead nextIsUsingOnLine

def isLetDeclaration : Parse Bool := lookAhead do
  skipToken
  isBindingIdentifier <||> tokenIn [.openBraceToken, .openBracketToken]

def isDeclarationAhead : Parse Bool := do
  for _ in rounds do
    match ← token with
    | .varKeyword | .letKeyword | .constKeyword | .functionKeyword | .classKeyword
    | .enumKeyword => return true
    | .usingKeyword => return ← isUsingDeclaration
    | .awaitKeyword => return ← isAwaitUsingDeclaration
    | .interfaceKeyword | .typeKeyword =>
      skipToken
      if ← afterLineBreak then return false
      return ← isIdentifier
    | .moduleKeyword | .namespaceKeyword => return ← nextIsIdentifierOrStringOnLine
    | .abstractKeyword | .accessorKeyword | .asyncKeyword | .declareKeyword | .privateKeyword
    | .protectedKeyword | .publicKeyword | .readonlyKeyword =>
      let before ← token
      skipToken
      if ← afterLineBreak then return false
      if before == .declareKeyword && (← tokenIs .typeKeyword) then return true
    | .globalKeyword => return ← nextIsIn [.openBraceToken, .identifier, .exportKeyword]
    | .importKeyword =>
      let next ← nextToken
      return next == .stringLiteral || next == .asteriskToken || next == .openBraceToken ||
        next.isIdentifierOrWord
    | .exportKeyword =>
      let next ← nextToken
      let next ← if next == .typeKeyword then lookAhead nextToken else pure next
      if [Kind.equalsToken, .asteriskToken, .openBraceToken, .defaultKeyword, .asKeyword,
          .atToken].contains next then
        return true
    | .staticKeyword => skipToken
    | _ => return false
  return false

def isDeclarationStart : Parse Bool := lookAhead isDeclarationAhead

def isStatementStart : Parse Bool := do
  let k ← token
  if k.startsStatement then return true
  match k with
  | .importKeyword =>
    isDeclarationStart <||> lookAhead (nextIsIn [.openParenToken, .lessThanToken, .dotToken])
  | .constKeyword | .exportKeyword => isDeclarationStart
  | .accessorKeyword | .publicKeyword | .privateKeyword | .protectedKeyword | .staticKeyword
  | .readonlyKeyword =>
    if ← isDeclarationStart then return true
    return !(← lookAhead nextIsIdentifierOrWordOnLine)
  | _ => isExpressionStart

end Parse

end ScriptFrontend
