import ScriptFrontend.Grammar.TypeMember
import ScriptFrontend.Grammar.Spelling

/-!
# Classes and interfaces

Members of classes, heritage clauses, and the declarations that hold them. What follows a property
without a semicolon is explained as well as it can be.
-/

namespace ScriptFrontend.Parse

open Diagnostic (Fault)

/-! ## Constructors -/

def passConstructorName : Parse Bool := do
  if ← tokenIs .constructorKeyword then return ← expect .constructorKeyword
  if ← (tokenIs .stringLiteral <&&> do return (← lookAhead nextToken) == .openParenToken) then
    return ← attemptTest do return (← literal).literalText? == some "constructor"
  return false

def constructor? (l : Lead) : Parse (Option Node) := attempt do
  unless ← passConstructorName do return none
  let typeParameters ← typeParameters?
  let parameters ← parameters {}
  let t ← returnType? .colonToken false
  let body ← functionBody? {} (some .braceOrSemicolonExpected)
  return some (← finishLed l .constructor (.functionLike
    { modifiers := l.modifiers, typeParameters, parameters, type := t, body }))

/-! ## Properties -/

def propertyEnd (name : Node) (hasType hasValue : Bool) : Parse Unit := do
  if ← (tokenIs .atToken <&&> do return !(← afterLineBreak)) then
    errorHere .lateDecorators []
  else if ← tokenIs .openParenToken then
    errorHere .callInType []
    skipToken
  else if ← (pure hasType <&&> do return !(← canEndStatement)) then
    if hasValue then errorHere .expected [";"] else errorHere .equalsForInitializer []
  else if ← trySemicolon then return
  else if hasValue then errorHere .expected [";"]
  else errorMissingSemicolon name

def propertyDeclaration (l : Lead) (name : Node) (question : Option Node) : Parse Node := do
  let exclamation ←
    if question.isSome || (← afterLineBreak) then pure none
    else optionalToken? .exclamationToken
  let t ← typeAnnotation?
  let value ←
    outside (NodeFlags.outsideTypes ||| NodeFlags.disallowIn) initializer?
  propertyEnd name t.isSome value.isSome
  finishLed l .propertyDeclaration (.property
    { modifiers := l.modifiers, name, question, exclamation, type := t, value })

def propertyOrMethod (l : Lead) : Parse Node := do
  let asterisk ← optionalToken? .asteriskToken
  let name ← propertyName
  let question ← optionalToken? .questionToken
  if asterisk.isSome || (← tokenIn [.openParenToken, .lessThanToken]) then
    methodDeclaration l asterisk name question none (some .braceOrSemicolonExpected)
  else propertyDeclaration l name question

/-! ## Members -/

def staticBlock (l : Lead) : Parse Node := do
  let _ ← expectedToken .staticKeyword none
  let body ← inSignature false true (block false none)
  finishLed l .classStaticBlockDeclaration (.classStaticBlock l.modifiers body)

/-- The current token is a name of a property or method, or the mark of a generator. -/
def isMemberName : Parse Bool :=
  isAnyWord <||> tokenIn [.stringLiteral, .numericLiteral, .bigIntLiteral, .asteriskToken,
    .openBracketToken]

def classMember : Parse Node := do
  let l ← lead
  if ← tokenIs .semicolonToken then
    skipToken
    return ← finishLed l .semicolonClassElement .token
  let l := { l with
    modifiers := ← modifiers { decorators := true, const := true, staticBlocks := true } }
  if ← (tokenIs .staticKeyword <&&> lookAhead (nextTokenIs .openBraceToken)) then
    return ← staticBlock l
  if let some n ← accessor? l {} then return n
  if ← tokenIn [.constructorKeyword, .stringLiteral] then
    if let some n ← constructor? l then return n
  if ← isIndexSignature then return ← indexSignature l
  if ← isMemberName then
    if l.has .declareKeyword then
      return ← inside NodeFlags.ambient (propertyOrMethod (l.addFlags NodeFlags.ambient))
    return ← propertyOrMethod l
  let name ← missingNode .identifier true .declarationExpected []
  propertyDeclaration l name none

/-! ## Heritage -/

/-- A base with its type arguments, unless these were read as a part of it. -/
def heritageElement : Parse Node := do
  let pos ← nodePos
  let e ← call .leftHandSide
  if e.kind == .expressionWithTypeArguments then return e
  let arguments ← typeArguments?
  finish .expressionWithTypeArguments pos (.typeReference e arguments)

def heritageClause : Parse Node := spanning .heritageClause do
  let word ← token
  skipToken
  return .heritageClause word (← commaListOf .heritageClauseElement heritageElement false)

def heritageClauses? : Parse (Option NodeList) := do
  if ← isHeritageClause then return some (← listOf .heritageClauses heritageClause)
  return none

/-! ## Declarations -/

def className? : Parse (Option Node) := do
  unless ← isBindingIdentifier do return none
  if ← (tokenIs .implementsKeyword <&&> lookAhead nextIsIdentifierOrWord) then return none
  return some (← takeIdentifier)

def classBody : Parse (Option NodeList × NodeList) := do
  let heritage ← heritageClauses?
  if ← expect .openBraceToken then
    let members ← listOf .classMembers classMember
    require .closeBraceToken
    return (heritage, members)
  return (heritage, ← missingList)

def classLike (l : Lead) (kind : Kind) : Parse Node := do
  require .classKeyword
  let name ← className?
  let typeParameters ← typeParameters?
  let (heritage, members) ←
    if l.has .exportKeyword then inside NodeFlags.awaitContext classBody else classBody
  finishLed l kind (.classLike { modifiers := l.modifiers, name, typeParameters, heritage, members })

def interfaceDeclaration (l : Lead) : Parse Node := do
  require .interfaceKeyword
  let name ← identifier
  let typeParameters ← typeParameters?
  let heritage ← heritageClauses?
  let members ← typeMembers
  finishLed l .interfaceDeclaration (.classLike
    { modifiers := l.modifiers, name := some name, typeParameters, heritage, members })

end ScriptFrontend.Parse
