import ScriptFrontend.Grammar.Access

/-!
# Arrow functions

Whether a parenthesis opens the parameters of an arrow function is told by the tokens after it, or
else by reading it as one and seeing where that fails. Offsets where it failed are kept, so that this
is done once.
-/

namespace ScriptFrontend

/-- Whether an arrow function starts at a token. -/
inductive ArrowGuess where
  | no
  | yes
  | unknown
deriving DecidableEq, Repr, Inhabited

namespace Node

mutual

/-- A return type with an error by which it is no return type of an arrow function. -/
def blocksArrow : Node → Bool
  | .mk h s slots docs origin =>
    match h.kind with
    | .typeReference =>
      match (Node.mk h s slots docs origin).form with
      | .typeReference name _ => name.isMissing
      | _ => false
    | .functionType | .constructorType =>
      match (Node.mk h s slots docs origin).form with
      | .functionLike p => p.parameters.head.missing || blocksArrowAt 7 slots
      | _ => false
    | .parenthesizedType => blocksArrowAt 0 slots
    | _ => false

def blocksArrowAt : Nat → List Slot → Bool
  | 0, .node n :: _ => n.blocksArrow
  | k + 1, _ :: rest => blocksArrowAt k rest
  | _, _ => false

end

mutual

def insideParentheses : Node → Node
  | .mk h s slots docs origin =>
    if h.kind == .parenthesizedType then
      (insideParenthesesAt slots).getD (.mk h s slots docs origin)
    else .mk h s slots docs origin

def insideParenthesesAt : List Slot → Option Node
  | .node n :: _ => some n.insideParentheses
  | _ => none

end

end Node

namespace Parse

def isAsyncMode (l : Lead) : SignatureMode := functionMode false (l.has .asyncKeyword)

def asyncModifier? : Parse (Option NodeList) := do
  unless ← tokenIs .asyncKeyword do return none
  let pos ← nodePos
  let m ← tokenNode
  return some (← listFrom #[m] pos)

/-! ## Bodies -/

/-- The body of an arrow function. A statement in its place is read as a block without its brace. -/
def arrowBody (mode : SignatureMode) (allowReturnType : Bool) : Parse Node := do
  if ← tokenIs .openBraceToken then return ← functionBlock mode none
  let isStatement ←
    if ← tokenIn [.semicolonToken, .functionKeyword, .classKeyword] then pure false
    else isStatementStart <&&> do return !(← isExpressionStatementStart)
  if isStatement then
    return ← functionBlock { mode with ignoreMissingBrace := true } none
  let read := call (.assignment allowReturnType)
  beneathTop (if mode.isAsync then inside NodeFlags.awaitContext read
    else outside NodeFlags.awaitContext read)

/-! ## One parameter without parentheses -/

def bareArrow (l : Lead) (name : Node) (allowReturnType : Bool) : Parse Node := do
  let p ← finish .parameter name.pos (.parameter { name })
  let parameters := NodeList.ofItems [p] p.pos p.stop
  let arrow ← expectedToken .equalsGreaterThanToken none
  let mode : SignatureMode := functionMode false l.modifiers.isSome
  let body ← arrowBody mode allowReturnType
  finishLed l .arrowFunction (.functionLike
    { modifiers := l.modifiers, parameters, arrow := some arrow, body := some body })

def isBareAsyncArrow : Parse Bool := do
  skipToken
  if ← (afterLineBreak <||> tokenIs .equalsGreaterThanToken) then return false
  let e ← call (.binary .comma)
  if ← afterLineBreak then return false
  return e.kind == .identifier && (← tokenIs .equalsGreaterThanToken)

def bareAsyncArrow? (allowReturnType : Bool) : Parse (Option Node) := do
  unless ← tokenIs .asyncKeyword do return none
  unless ← lookAhead isBareAsyncArrow do return none
  let l ← lead
  let l := { l with modifiers := ← asyncModifier? }
  let name ← call (.binary .comma)
  return some (← bareArrow l name allowReturnType)

/-! ## Parameters between parentheses -/

def guessAfterParen (second : Kind) : Parse ArrowGuess := do
  match second with
  | .closeParenToken =>
    if ← nextIsIn [.equalsGreaterThanToken, .colonToken, .openBraceToken] then return .yes
    return .no
  | .openBracketToken | .openBraceToken => return .unknown
  | .dotDotDotToken => return .yes
  | _ =>
    if ← (pure (second.isModifier && second != .asyncKeyword) <&&> lookAhead nextIsIdentifier) then
      if ← nextTokenIs .asKeyword then return .no
      return .yes
    unless ← (isIdentifier <||> pure (second == .thisKeyword)) do return .no
    match ← nextToken with
    | .colonToken => return .yes
    | .questionToken =>
      if ← nextIsIn [.colonToken, .commaToken, .equalsToken, .closeParenToken] then return .yes
      return .no
    | .commaToken | .equalsToken | .closeParenToken => return .unknown
    | _ => return .no

/-- After the name in angle brackets where elements may stand as well. -/
def isGenericArrow : Parse Bool := do
  let _ ← optional .constKeyword
  match ← nextToken with
  | .extendsKeyword => return !(← nextIsIn [.equalsToken, .greaterThanToken, .slashToken])
  | .commaToken | .equalsToken => return true
  | _ => return false

def guessAfterAngle : Parse ArrowGuess := do
  unless ← (isIdentifier <||> tokenIs .constKeyword) do return .no
  if ← isElementVariant then
    if ← lookAhead isGenericArrow then return .yes
    return .no
  return .unknown

def guessArrowAhead : Parse ArrowGuess := do
  if ← tokenIs .asyncKeyword then
    skipToken
    if ← afterLineBreak then return .no
    unless ← tokenIn [.openParenToken, .lessThanToken] do return .no
  let first ← token
  let second ← nextToken
  if first == .openParenToken then guessAfterParen second else guessAfterAngle

def guessArrow : Parse ArrowGuess := do
  match ← token with
  | .openParenToken | .lessThanToken | .asyncKeyword => lookAhead guessArrowAhead
  | .equalsGreaterThanToken => return .yes
  | _ => return .no

/-- The parameters of an arrow function; none if they cannot be that and must not be guessed. -/
def arrowParameters? (mode : SignatureMode) (guess : Bool) : Parse (Option NodeList) := do
  unless ← expect .openParenToken do
    if guess then return some (← missingList)
    return none
  match ← parameterList? mode guess with
  | none => return none
  | some l =>
    let closed ← expect .closeParenToken
    if closed || guess then return some l
    return none

/-- An arrow function with parentheses. Unless it must be one, it is given up as soon as the text
does not look like one. -/
def parenthesizedArrow? (guess allowReturnType : Bool) : Parse (Option Node) := do
  let l ← lead
  let l := { l with modifiers := ← asyncModifier? }
  let mode := isAsyncMode l
  let typeParameters ← typeParameters?
  let some parameters ← arrowParameters? mode guess | return none
  let hasColon ← tokenIs .colonToken
  let t ← returnType? .colonToken false
  if !guess && t.any Node.blocksArrow then return none
  let isDocFunction := (t.map Node.insideParentheses).any (·.kind == .docFunctionType)
  let last ← token
  if !guess && last != .equalsGreaterThanToken && (isDocFunction || last != .openBraceToken) then
    return none
  let arrow ← expectedToken .equalsGreaterThanToken none
  let body ←
    if last == .equalsGreaterThanToken || last == .openBraceToken then
      arrowBody mode allowReturnType
    else identifier
  -- Between the parts of a conditional expression a colon is no mark of a return type.
  if !allowReturnType && hasColon && !(← tokenIs .colonToken) then return none
  return some (← finishLed l .arrowFunction (.functionLike
    { modifiers := l.modifiers, typeParameters, parameters, type := t, arrow := some arrow,
      body := some body }))

def possibleArrow? (allowReturnType : Bool) : Parse (Option Node) := do
  let start ← tokenStart
  if (← get).notArrows.contains start then return none
  let n ← parenthesizedArrow? false allowReturnType
  if n.isNone then modify fun s => { s with notArrows := start :: s.notArrows }
  return n

def arrow? (allowReturnType : Bool) : Parse (Option Node) := do
  match ← guessArrow with
  | .no => return none
  | .yes => parenthesizedArrow? true true
  | .unknown => attempt (possibleArrow? allowReturnType)

end Parse

end ScriptFrontend
