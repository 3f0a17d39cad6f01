import ScriptFrontend.Grammar.Reuse
import ScriptFrontend.Grammar.Start

/-!
# Lists

A list goes on while its elements may start and ends where its terminator stands. At a token that is
neither, the list reports it; if a list around this one can do something with the token then this
list ends, and else the token is skipped.
-/

namespace ScriptFrontend.Parse

open Diagnostic (Fault)

/-- An element of a list may start at the current token. Looking for a place to go on after an error,
some tokens do not count. -/
def isElementToken (context : ListContext) (recovering : Bool) : Parse Bool := do
  match context with
  | .sourceElements | .blockStatements | .switchClauseStatements =>
    if recovering && (← tokenIs .semicolonToken) then return false
    isStatementStart
  | .switchClauses => tokenIn [.caseKeyword, .defaultKeyword]
  | .typeMembers => lookAhead isTypeMemberStart
  | .classMembers =>
    if ← lookAhead isClassMemberStart then return true
    return (← tokenIs .semicolonToken) && !recovering
  | .enumMembers => tokenIs .openBracketToken <||> isLiteralPropertyName
  | .objectLiteralMembers =>
    tokenIn [.openBracketToken, .asteriskToken, .dotDotDotToken, .dotToken] <||>
      isLiteralPropertyName
  | .objectBindingElements =>
    tokenIn [.openBracketToken, .dotDotDotToken] <||> isLiteralPropertyName
  | .importAttributes => isAnyWord <||> tokenIs .stringLiteral
  | .heritageClauseElement =>
    if ← tokenIs .openBraceToken then return ← lookAhead isHeritageObject
    let starts ← if recovering then isIdentifier else isLeftHandSideStart
    if !starts then return false
    return !(← isHeritageClauseWithExpression)
  | .variableDeclarations => isBindingStart
  | .arrayBindingElements => tokenIn [.commaToken, .dotDotDotToken] <||> isBindingStart
  | .typeParameters => tokenIn [.inKeyword, .constKeyword] <||> isIdentifier
  | .arrayLiteralMembers =>
    tokenIn [.commaToken, .dotToken, .dotDotDotToken] <||> isExpressionStart
  | .argumentExpressions => tokenIs .dotDotDotToken <||> isExpressionStart
  | .parameters => isParameterStart false
  | .docParameters => isParameterStart true
  | .typeArguments | .tupleElementTypes => tokenIs .commaToken <||> isTypeStart false
  | .heritageClauses => isHeritageClause
  | .specifiers =>
    if ← tokenIs .fromKeyword then
      if ← lookAhead (nextTokenIs .stringLiteral) then return false
    tokenIs .stringLiteral <||> isAnyWord
  | .jsxAttributes => isAnyWord <||> tokenIs .openBraceToken
  | .jsxChildren => return true

def isElementStart (context : ListContext) (recovering : Bool) : Parse Bool :=
  startsElement context (isElementToken context recovering)

def isTerminator (context : ListContext) : Parse Bool := do
  if ← tokenIs .endOfFileToken then return true
  match context with
  | .blockStatements | .switchClauses | .typeMembers | .classMembers | .enumMembers
  | .objectLiteralMembers | .objectBindingElements | .specifiers | .importAttributes =>
    tokenIs .closeBraceToken
  | .switchClauseStatements => tokenIn [.closeBraceToken, .caseKeyword, .defaultKeyword]
  | .heritageClauseElement => tokenIn [.openBraceToken, .extendsKeyword, .implementsKeyword]
  | .variableDeclarations =>
    canEndStatement <||> tokenIn [.inKeyword, .ofKeyword, .equalsGreaterThanToken]
  | .typeParameters =>
    tokenIn [.greaterThanToken, .openParenToken, .openBraceToken, .extendsKeyword,
      .implementsKeyword]
  | .argumentExpressions => tokenIn [.closeParenToken, .semicolonToken]
  | .arrayLiteralMembers | .tupleElementTypes | .arrayBindingElements =>
    tokenIs .closeBracketToken
  | .docParameters | .parameters => tokenIn [.closeParenToken, .closeBracketToken]
  | .typeArguments => return (← token) != .commaToken
  | .heritageClauses => tokenIn [.openBraceToken, .closeBraceToken]
  | .jsxAttributes => tokenIn [.greaterThanToken, .slashToken]
  | .jsxChildren => tokenIs .lessThanToken <&&> lookAhead (nextTokenIs .slashToken)
  | .sourceElements => return false

def isWantedByOpenList : Parse Bool := do
  let openLists := (← get).openLists
  for context in ListContext.all do
    if openLists.contains context then
      if ← (isElementStart context true <||> isTerminator context) then return true
  return false

def errorInList (context : ListContext) : Parse Unit := do
  let k ← token
  match context with
  | .sourceElements =>
    if k == .defaultKeyword then errorHere .expected ["export"]
    else if ← (pure k.isIdentifierOrWord <&&> do return !(← isStatementStart)) then
      errorHere .unexpectedWord []
    else errorHere .declarationOrStatementExpected []
  | .blockStatements => errorHere .declarationOrStatementExpected []
  | .switchClauses => errorHere .caseOrDefaultExpected []
  | .switchClauseStatements => errorHere .statementExpected []
  | .typeMembers => errorHere .propertyOrSignatureExpected []
  | .classMembers => errorHere .classMemberExpected []
  | .enumMembers => errorHere .enumMemberExpected []
  | .heritageClauseElement => errorHere .expressionExpected []
  | .variableDeclarations =>
    if k.isWord then errorHere .variableNameNotAllowed [tokenName k]
    else errorHere .variableDeclarationExpected []
  | .objectBindingElements => errorHere .propertyPatternExpected []
  | .arrayBindingElements => errorHere .elementPatternExpected []
  | .argumentExpressions => errorHere .argumentExpected []
  | .objectLiteralMembers => errorHere .propertyAssignmentExpected []
  | .arrayLiteralMembers => errorHere .expressionOrCommaExpected []
  | .docParameters => errorHere .parameterExpected []
  | .parameters =>
    if k.isWord then errorHere .parameterNameNotAllowed [tokenName k]
    else errorHere .parameterExpected []
  | .typeParameters => errorHere .typeParameterExpected []
  | .typeArguments => errorHere .typeArgumentExpected []
  | .tupleElementTypes => errorHere .typeExpected []
  | .heritageClauses => errorHere .openBraceExpected []
  | .specifiers =>
    if k == .fromKeyword then errorHere .expected ["\x7d"] else errorHere .identifierExpected []
  | .jsxAttributes | .jsxChildren => errorHere .identifierExpected []
  | .importAttributes => errorHere .identifierOrStringExpected []

/-- Reports the current token and tells whether the list ends at it; else skips it. -/
def endsAtStrayToken (context : ListContext) : Parse Bool := do
  errorInList context
  if ← isWantedByOpenList then return true
  skipToken
  return false

def withOpenList {α : Type} (context : ListContext) (p : Parse α) : Parse α := do
  let openLists := (← get).openLists
  modify fun s => { s with openLists := context :: openLists }
  let result ← p
  modify fun s => { s with openLists := openLists }
  return result

def pushSome (items : Array Node) : Option Node → Array Node
  | some n => items.push n
  | none => items

def listOf (context : ListContext) (read : Parse Node) : Parse NodeList := do
  let pos ← nodePos
  let items ← withOpenList context do
    let mut items : Array Node := #[]
    for _ in rounds do
      if ← isTerminator context then break
      if ← isElementStart context false then
        let start ← nodePos
        items := pushSome items (← element? context (some <$> read))
        -- An element that is nested too deep reads nothing.
        if start == (← nodePos) && !(← tokenIs .endOfFileToken) then skipToken
      else if ← endsAtStrayToken context then break
    return items
  listFrom items pos

/-- The elements of a list with commas between them, as far as it was read. -/
structure CommaItems where
  items : Array Node := #[]
  endsInComma : Bool := false
  failed : Bool := false

/-- Reports a missing comma. Some lists let a semicolon stand in its place on the same line. -/
def expectComma (context : ListContext) (allowSemicolons : Bool) : Parse Unit := do
  let fault := if context == .enumMembers then some Fault.enumMemberFollow else none
  let _ ← expectWith .commaToken fault true
  if allowSemicolons then
    if ← tokenIs .semicolonToken then
      unless ← afterLineBreak do skipToken

/-- Elements with commas between them up to the terminator of a list, or up to one that could not be
read. Some lists let semicolons stand after commas. -/
def commaItems (context : ListContext) (read : Parse (Option Node)) (allowSemicolons : Bool) :
    Parse CommaItems := do
  let mut l : CommaItems := {}
  for _ in rounds do
    if ← isElementStart context false then
      let start ← nodePos
      match ← element? context read with
      | none =>
        l := { l with failed := true }
        break
      | some n =>
        let comma ← optional .commaToken
        l := { l with items := l.items.push n, endsInComma := comma }
        if comma then continue
        if ← isTerminator context then break
        expectComma context allowSemicolons
        if start == (← nodePos) then skipToken
    else if ← isTerminator context then break
    else if ← endsAtStrayToken context then break
  return l

/-- A list with commas between its elements; no list if an element could not be read. -/
def commaListOf? (context : ListContext) (read : Parse (Option Node)) (allowSemicolons : Bool) :
    Parse (Option NodeList) := do
  let pos ← nodePos
  let l ← withOpenList context (commaItems context read allowSemicolons)
  if l.failed then return none
  let stop ← nodePos
  return some ⟨⟨pos, stop, l.endsInComma, false, false⟩, l.items.toList⟩

def commaListOf (context : ListContext) (read : Parse Node) (allowSemicolons : Bool) :
    Parse NodeList := do
  match ← commaListOf? context (some <$> read) allowSemicolons with
  | some l => return l
  | none => missingList

/-- A list with commas between two brackets; missing if the first bracket is. -/
def bracketedList (context : ListContext) (read : Parse Node) (opening closing : Kind) :
    Parse NodeList := do
  if ← expect opening then
    let l ← commaListOf context read false
    require closing
    return l
  missingList

end ScriptFrontend.Parse
