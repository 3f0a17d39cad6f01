import ScriptFrontend.Grammar.Modifier
import ScriptFrontend.Grammar.Name

/-!
# Signatures

Type annotations, type parameters, parameters and return types. The parameters of a signature are
read in the context of its function, and the decorators on them in the context around it.
-/

namespace ScriptFrontend.Parse

open Diagnostic (Fault)

def type : Parse Node := call .type

def typeAnnotation? : Parse (Option Node) := do
  if ← optional .colonToken then return some (← type)
  return none

/-! ## Type predicates and return types -/

def predicateName? : Parse (Option Node) := do
  let name ← identifier
  if ← (tokenIs .isKeyword <&&> do return !(← afterLineBreak)) then
    skipToken
    return some name
  return none

def typeOrPredicate : Parse Node := do
  let pos ← nodePos
  let name ← if ← isIdentifier then attempt predicateName? else pure none
  let t ← type
  match name with
  | some name => finish .typePredicate pos (.typePredicate none name (some t))
  | none => return t

/-- A return type follows, and its mark was passed. A member of a type may have the wrong mark. -/
def passReturnMark (mark : Kind) (isType : Bool) : Parse Bool := do
  if mark == .equalsGreaterThanToken then
    require mark
    return true
  if ← optional .colonToken then return true
  if isType && (← tokenIs .equalsGreaterThanToken) then
    errorHere .expected [":"]
    skipToken
    return true
  return false

def returnType? (mark : Kind) (isType : Bool) : Parse (Option Node) := do
  if ← passReturnMark mark isType then return some (← allowConditionalTypes typeOrPredicate)
  return none

/-! ## Types of documentation comments -/

def docType : Parse Node := do
  modifyScanner Scanner.enterDocType
  let pos ← nodePos
  if ← optional .moduleKeyword then
    for _ in rounds do
      if ← tokenIn [.closeBraceToken, .endOfFileToken, .commaToken, .whitespaceTrivia] then break
      let _ ← nextDocToken
    modifyScanner Scanner.leaveDocType
    return ← finish .docNamepathType pos .token
  let hasDots ← optional .dotDotDotToken
  let mut t ← typeOrPredicate
  modifyScanner Scanner.leaveDocType
  if hasDots then t ← finish .docVariadicType pos (.wrappedType false t)
  if ← tokenIs .equalsToken then
    skipToken
    return ← finish .docOptionalType pos (.wrappedType true t)
  return t

/-- A parameter of a function type of a documentation comment: a type, or one named by a word. -/
def docParameter : Parse Node := spanning .parameter do
  let pos ← nodePos
  let name ←
    if ← tokenIn [.thisKeyword, .newKeyword] then
      let name ← identifierName
      require .colonToken
      pure name
    else finishAt .identifier pos pos (.identifier "" none)
  let t ← docType
  return .parameter { name, type := some t }

/-! ## Type parameters -/

/-- The bound of a type parameter. An expression in its place is kept, so that it can be reported. -/
def typeParameter : Parse Node := spanning .typeParameter do
  let modifiers ← modifiers { const := true }
  let name ← identifier
  let mut bound := none
  let mut expression := none
  if ← optional .extendsKeyword then
    if ← (isTypeStart false <||> do return !(← isExpressionStart)) then bound := some (← type)
    else expression := some (← call .unary)
  let fallback ← if ← optional .equalsToken then some <$> type else pure none
  return .typeParameter { modifiers, name, bound, fallback, expression }

def typeParameters? : Parse (Option NodeList) := do
  if ← tokenIs .lessThanToken then
    return some (← bracketedList .typeParameters typeParameter .lessThanToken .greaterThanToken)
  return none

def typeArgumentList : Parse NodeList :=
  bracketedList .typeArguments type .lessThanToken .greaterThanToken

def typeArguments? : Parse (Option NodeList) := do
  if ← tokenIs .lessThanToken then return some (← typeArgumentList)
  return none

def typeArgumentsOfName? : Parse (Option NodeList) := do
  if ← afterLineBreak then return none
  if (← rescanLess) == .lessThanToken then return some (← typeArgumentList)
  return none

/-! ## Parameters -/

/-- A parameter's name. Where it is missing before a modifier, the modifier is skipped. -/
def parameterName (modifiers : Option NodeList) : Parse Node := do
  let name ← call (.binding (some .privateParameter))
  let unmodified :=
    match modifiers with
    | some l => l.isEmpty
    | none => true
  if name.pos == name.stop && unmodified && (← token).isModifier then skipToken
  return name

def parameter? (outerAwait guess : Bool) : Parse (Option Node) := do
  let l ← lead
  let readModifiers := modifiers { decorators := true }
  let modifiers ←
    if outerAwait then inside NodeFlags.awaitContext readModifiers
    else outside NodeFlags.awaitContext readModifiers
  if ← tokenIs .thisKeyword then
    let name ← takeIdentifier
    let t ← typeAnnotation?
    errorAtFirst modifiers .modifiersOnThis
    return some (← finishLed l .parameter (.parameter { modifiers, name, type := t }))
  beneathTop do
    let dots ← optionalToken? .dotDotDotToken
    let mayBe ← pure guess <||> isBindingIdentifier <||> tokenIn [.openBracketToken, .openBraceToken]
    if !mayBe then return none
    let name ← parameterName modifiers
    let question ← optionalToken? .questionToken
    let t ← typeAnnotation?
    let value ← initializer?
    return some (← finishLed l .parameter
      (.parameter { modifiers, dots, name, question, type := t, value }))

def parameter (outerAwait : Bool) : Parse Node := do
  match ← parameter? outerAwait true with
  | some n => return n
  | none => missingNode .parameter true .parameterExpected []

/-- The parameters between the parentheses of a signature; none if one of them cannot be a parameter
and must not be guessed. -/
def parameterList? (mode : SignatureMode) (guess : Bool) : Parse (Option NodeList) := do
  let outerAwait ← inContext NodeFlags.awaitContext
  inSignature mode.isGenerator mode.isAsync do
    if mode.isDoc then return some (← commaListOf .docParameters docParameter false)
    else if guess then return some (← commaListOf .parameters (parameter outerAwait) false)
    else commaListOf? .parameters (parameter? outerAwait false) false

def parameters (mode : SignatureMode) : Parse NodeList := do
  unless ← expect .openParenToken do return ← missingList
  let l ← parameterList? mode true
  require .closeParenToken
  match l with
  | some l => return l
  | none => missingList

end ScriptFrontend.Parse
