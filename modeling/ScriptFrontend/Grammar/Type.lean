import ScriptFrontend.Grammar.TypeMember

/-!
# Types

From the outside in: conditional types, unions, intersections, operators before a type, marks behind
it, and simple types. The types that stand only in documentation comments are read everywhere and
reported later.
-/

namespace ScriptFrontend.Parse

open Diagnostic (Fault)

/-! ## Function types -/

/-- Moves past the start of a parameter; a pattern counts only if it is read without an error. -/
def passParameterStart : Parse Bool := do
  if (← token).isModifier then
    let _ ← modifiers {}
  if ← (isIdentifier <||> tokenIs .thisKeyword) then
    skipToken
    return true
  if ← tokenIn [.openBracketToken, .openBraceToken] then
    let before ← diagnosticCount
    let _ ← call (.binding none)
    return before == (← diagnosticCount)
  return false

/-- After an opening parenthesis: the parameters of a function type, without any doubt. -/
def isFunctionTypeBody : Parse Bool := do
  skipToken
  if ← tokenIn [.closeParenToken, .dotDotDotToken] then return true
  unless ← passParameterStart do return false
  if ← tokenIn [.colonToken, .commaToken, .questionToken, .equalsToken] then return true
  tokenIs .closeParenToken <&&> nextTokenIs .equalsGreaterThanToken

def isFunctionTypeStart : Parse Bool := do
  match ← token with
  | .lessThanToken | .newKeyword => return true
  | .openParenToken => lookAhead isFunctionTypeBody
  | .abstractKeyword => lookAhead (nextTokenIs .newKeyword)
  | _ => return false

def abstractModifier? : Parse (Option NodeList) := do
  unless ← tokenIs .abstractKeyword do return none
  let pos ← nodePos
  let m ← tokenNode
  return some (← listFrom #[m] pos)

def functionType : Parse Node := do
  let l ← lead
  let modifiers ← abstractModifier?
  let isConstructor ← optional .newKeyword
  let typeParameters ← typeParameters?
  let parameters ← parameters { isType := true }
  let t ← returnType? .equalsGreaterThanToken false
  finishLed l (if isConstructor then .constructorType else .functionType)
    (.functionLike { modifiers, typeParameters, parameters, type := t })

/-! ## Literals and names -/

def literalType (negative : Bool) : Parse Node := spanning .literalType do
  let pos ← nodePos
  if negative then skipToken
  let l ← if ← tokenIn [.trueKeyword, .falseKeyword, .nullKeyword] then tokenNode else literal
  if negative then
    return .literalType (← finish .prefixUnaryExpression pos (.unary .minusToken l))
  return .literalType l

def typeReference : Parse Node := spanning .typeReference do
  let name ← entityName true (some .typeExpected)
  return .typeReference name (← typeArgumentsOfName?)

def typeQuery : Parse Node := spanning .typeQuery do
  require .typeOfKeyword
  let name ← entityName true none
  if ← afterLineBreak then return .typeReference name none
  return .typeReference name (← typeArguments?)

def wordWithoutDot? : Parse (Option Node) := do
  let n ← tokenNode
  if ← tokenIs .dotToken then return none
  return some n

def thisType : Parse Node := spanning .thisType do
  skipToken
  return .token

def thisTypeOrPredicate : Parse Node := do
  let t ← thisType
  if ← (tokenIs .isKeyword <&&> do return !(← afterLineBreak)) then
    skipToken
    let is ← type
    return ← finish .typePredicate t.pos (.typePredicate none t (some is))
  return t

def assertsPredicate : Parse Node := spanning .typePredicate do
  let asserts ← expectedToken .assertsKeyword none
  let name ← if ← tokenIs .thisKeyword then thisType else identifier
  let t ← if ← optional .isKeyword then some <$> type else pure none
  return .typePredicate (some asserts) name t

/-! ## Imports and templates -/

def importTypeAttributes : Parse Node := do
  let openPos ← tokenStart
  let opened ← expect .openBraceToken
  if ← tokenIn [.withKeyword, .assertKeyword] then skipToken else errorHere .expected ["with"]
  require .colonToken
  let attributes ← importAttributes none
  let _ ← optional .commaToken
  requireMatching .openBraceToken .closeBraceToken opened openPos
  return attributes

def importType : Parse Node := do
  noteFileFlag NodeFlags.dynamicImport
  spanning .importType do
    let isTypeOf ← optional .typeOfKeyword
    require .importKeyword
    require .openParenToken
    let argument ← type
    let attributes ← if ← optional .commaToken then some <$> importTypeAttributes else pure none
    require .closeParenToken
    let qualifier ←
      if ← optional .dotToken then some <$> entityName true (some .typeExpected) else pure none
    let typeArguments ← typeArgumentsOfName?
    return .importType { isTypeOf, argument, attributes, qualifier, typeArguments }

/-- The first piece of a template. Escapes in it that stand for nothing were reported before. -/
def templateHead (isTagged : Bool) : Parse Node := do
  if !isTagged && (← tokenFlags).has TokenFlags.invalidEscape then
    modifyScanner fun s => s.rescanTemplate false
  literal

def templatePiece (isTagged : Bool) : Parse Node := do
  if ← tokenIs .closeBraceToken then
    let _ ← rescanTemplate isTagged
    literal
  else missingNode .templateTail false .expected ["\x7d"]

def templateSpans (kind : Kind) (part : Parse Node) (isTagged : Bool) : Parse NodeList := do
  let pos ← nodePos
  let mut spans : Array Node := #[]
  for _ in rounds do
    let start ← nodePos
    let e ← part
    let piece ← templatePiece isTagged
    spans := spans.push (← finish kind start (.templateSpan e piece))
    unless piece.kind == .templateMiddle do break
  listFrom spans pos

def templateType : Parse Node := spanning .templateLiteralType do
  let head ← templateHead false
  return .templateLiteral head (← templateSpans .templateLiteralTypeSpan type false)

/-! ## Types between brackets -/

def isMappedTypeBody : Parse Bool := do
  let k ← nextToken
  if k == .plusToken || k == .minusToken then return ← nextTokenIs .readonlyKeyword
  if k == .readonlyKeyword then skipToken
  tokenIs .openBracketToken <&&> nextIsIdentifier <&&> nextTokenIs .inKeyword

def mappedTypeParameter : Parse Node := spanning .typeParameter do
  let name ← identifierName
  require .inKeyword
  let bound ← type
  return .typeParameter { name, bound := some bound }

def signedToken? (kind : Kind) : Parse (Option Node) := do
  unless ← tokenIn [kind, .plusToken, .minusToken] do return none
  let n ← tokenNode
  if n.kind != kind then require kind
  return some n

def mappedType : Parse Node := spanning .mappedType do
  require .openBraceToken
  let readonlyToken ← signedToken? .readonlyKeyword
  require .openBracketToken
  let parameter ← mappedTypeParameter
  let nameType ← if ← optional .asKeyword then some <$> type else pure none
  require .closeBracketToken
  let question ← signedToken? .questionToken
  let t ← typeAnnotation?
  let _ ← semicolon
  let members ← listOf .typeMembers typeMember
  require .closeBraceToken
  return .mappedType
    { readonlyToken, parameter, nameType, question, type := t, members := some members }

def typeLiteral : Parse Node := spanning .typeLiteral do return .list false (← typeMembers)

def nextIsColonAfterName : Parse Bool := do
  let k ← nextToken
  if k == .colonToken then return true
  if k == .questionToken then nextTokenIs .colonToken else return false

def isNamedTupleMember : Parse Bool := do
  let k ← if ← tokenIs .dotDotDotToken then nextToken else token
  if k.isIdentifierOrWord then nextIsColonAfterName else return false

/-- An element of a tuple without a name. A mark behind its type makes it optional. -/
def tupleElementType : Parse Node := do
  let pos ← nodePos
  if ← optional .dotDotDotToken then
    let t ← type
    return ← finish .restType pos (.wrappedType false t)
  let t ← type
  match t.kind, t.form with
  | .docNullableType, .wrappedType true inner =>
    if t.pos == inner.pos then finishAt .optionalType t.pos t.stop (.wrappedType false inner)
    else return t
  | _, _ => return t

def tupleElement : Parse Node := do
  if ← lookAhead isNamedTupleMember then
    documented .namedTupleMember do
      let dots ← optionalToken? .dotDotDotToken
      let name ← identifierName
      let question ← optionalToken? .questionToken
      require .colonToken
      let t ← tupleElementType
      return .namedTupleMember { dots, name, question, type := t }
  else tupleElementType

def tupleType : Parse Node := spanning .tupleType do
  return .list false
    (← bracketedList .tupleElementTypes tupleElement .openBracketToken .closeBracketToken)

def parenthesizedType : Parse Node := spanning .parenthesizedType do
  require .openParenToken
  let t ← type
  require .closeParenToken
  return .wrappedType false t

/-! ## Types of documentation comments -/

/-- A question mark alone is a type of its own; before a type it makes the type nullable. -/
def docUnknownOrNullableType : Parse Node := do
  let pos ← nodePos
  skipToken
  if ← tokenIn [.commaToken, .closeBraceToken, .closeParenToken, .greaterThanToken, .equalsToken,
      .barToken] then
    return ← finish .docUnknownType pos .token
  let t ← type
  finish .docNullableType pos (.wrappedType false t)

def docFunctionType : Parse Node := do
  let l ← lead
  if ← lookAhead (nextTokenIs .openParenToken) then
    skipToken
    let parameters ← parameters { isType := true, isDoc := true }
    let t ← returnType? .colonToken false
    return ← finishLed l .docFunctionType (.functionLike { parameters, type := t })
  let name ← identifierName
  finish .typeReference l.pos (.typeReference name none)

/-! ## Simple types, marks behind them and operators before them -/

def simpleType : Parse Node := do
  match ← token with
  | .anyKeyword | .unknownKeyword | .stringKeyword | .numberKeyword | .bigIntKeyword
  | .symbolKeyword | .booleanKeyword | .undefinedKeyword | .neverKeyword | .objectKeyword =>
    match ← attempt wordWithoutDot? with
    | some n => return n
    | none => typeReference
  | .asteriskToken => spanning .docAllType do
      skipToken
      return .token
  | .questionToken => docUnknownOrNullableType
  | .functionKeyword => docFunctionType
  | .exclamationToken => spanning .docNonNullableType do
      skipToken
      return .wrappedType false (← call .simpleType)
  | .noSubstitutionTemplateLiteral | .stringLiteral | .numericLiteral | .bigIntLiteral
  | .trueKeyword | .falseKeyword | .nullKeyword => literalType false
  | .minusToken => if ← lookAhead nextIsNumber then literalType true else typeReference
  | .voidKeyword => tokenNode
  | .thisKeyword => thisTypeOrPredicate
  | .typeOfKeyword => if ← lookAhead (nextTokenIs .importKeyword) then importType else typeQuery
  | .openBraceToken => if ← lookAhead isMappedTypeBody then mappedType else typeLiteral
  | .openBracketToken => tupleType
  | .openParenToken => parenthesizedType
  | .importKeyword => importType
  | .assertsKeyword =>
    if ← lookAhead nextIsIdentifierOrWordOnLine then assertsPredicate else typeReference
  | .templateHead => templateType
  | _ => typeReference

def markedType : Parse Node := do
  let pos ← nodePos
  let mut t ← simpleType
  for _ in rounds do
    if ← afterLineBreak then break
    match ← token with
    | .exclamationToken =>
      skipToken
      t ← finish .docNonNullableType pos (.wrappedType true t)
    | .questionToken =>
      if ← lookAhead (do skipToken; isTypeStart false) then break
      skipToken
      t ← finish .docNullableType pos (.wrappedType true t)
    | .openBracketToken =>
      skipToken
      if ← isTypeStart false then
        let index ← type
        require .closeBracketToken
        t ← finish .indexedAccessType pos (.indexedAccessType t index)
      else
        require .closeBracketToken
        t ← finish .arrayType pos (.wrappedType false t)
    | _ => break
  return t

def inferredBound? : Parse (Option Node) := do
  unless ← optional .extendsKeyword do return none
  let bound ← disallowConditionalTypes type
  if ← inContext NodeFlags.disallowConditionalTypes then return some bound
  if ← tokenIs .questionToken then return none
  return some bound

def inferType : Parse Node := spanning .inferType do
  require .inferKeyword
  let parameter ← spanning .typeParameter do
    let name ← identifier
    let bound ← attempt inferredBound?
    return .typeParameter { name, bound }
  return .inferType parameter

def operatorType : Parse Node := do
  let k ← token
  match k with
  | .keyOfKeyword | .uniqueKeyword | .readonlyKeyword => spanning .typeOperator do
      skipToken
      return .typeOperator k (← call .operatorType)
  | .inferKeyword => inferType
  | _ => allowConditionalTypes markedType

/-! ## Unions, intersections and conditional types -/

def bareFunctionTypeFault (isConstructor inUnion : Bool) : Fault :=
  match isConstructor, inUnion with
  | false, true => .functionTypeInUnion
  | false, false => .functionTypeInIntersection
  | true, true => .constructorTypeInUnion
  | true, false => .constructorTypeInIntersection

def typeAmong (inUnion : Bool) (read : Parse Node) : Parse Node := do
  unless ← isFunctionTypeStart do return ← read
  let t ← functionType
  errorAtNode t (bareFunctionTypeFault (t.kind != .functionType) inUnion) []
  return t

def typesJoinedBy (operator kind : Kind) (read : Parse Node) : Parse Node := do
  let pos ← nodePos
  let inUnion := operator == .barToken
  let leading ← optional operator
  let first ← if leading then typeAmong inUnion read else read
  if !leading && !(← tokenIs operator) then return first
  let mut types := #[first]
  for _ in rounds do
    unless ← optional operator do break
    types := types.push (← typeAmong inUnion read)
  finish kind pos (.list false (← listFrom types pos))

def unionType : Parse Node :=
  typesJoinedBy .barToken .unionType (typesJoinedBy .ampersandToken .intersectionType operatorType)

def conditionalOrUnionType : Parse Node := do
  let pos ← nodePos
  let check ← unionType
  if ← inContext NodeFlags.disallowConditionalTypes then return check
  if ← afterLineBreak then return check
  unless ← optional .extendsKeyword do return check
  let bound ← disallowConditionalTypes type
  require .questionToken
  let yes ← allowConditionalTypes type
  require .colonToken
  let no ← allowConditionalTypes type
  finish .conditionalType pos (.conditionalType { check, bound, yes, no })

/-- A type. The context of the expression around it does not reach inside. -/
def wholeType : Parse Node := outside NodeFlags.outsideTypes do
  if ← isFunctionTypeStart then functionType else conditionalOrUnionType

end ScriptFrontend.Parse
