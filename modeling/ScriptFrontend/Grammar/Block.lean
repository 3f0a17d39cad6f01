import ScriptFrontend.Grammar.Signature

/-!
# Blocks and functions

Blocks of statements, the bodies of functions, and the functions that stand in classes, in objects
and in expressions.
-/

namespace ScriptFrontend.Parse

open Diagnostic (Fault)

def statement : Parse Node := call .statement

/-- A block. A missing brace leaves the statements unread unless that is to be ignored. -/
def block (ignoreMissingBrace : Bool) (fault : Option Fault) : Parse Node := do
  let l ← lead
  let openPos ← tokenStart
  let opened ← expectWith .openBraceToken fault true
  if !opened && !ignoreMissingBrace then
    return ← finishLed l .block (.block false (← missingList))
  let multiLine ← afterLineBreak
  let statements ← listOf .blockStatements statement
  requireMatching .openBraceToken .closeBraceToken opened openPos
  let n ← finishLed l .block (.block multiLine statements)
  if ← tokenIs .equalsToken then
    errorHere .equalsAfterBlock []
    skipToken
  return n

/-! ## Bodies of functions -/

def functionMode (isGenerator isAsync : Bool) : SignatureMode :=
  { isGenerator := isGenerator, isAsync := isAsync }

def functionBlock (mode : SignatureMode) (fault : Option Fault) : Parse Node :=
  beneathTop (inSignature mode.isGenerator mode.isAsync
    (outside NodeFlags.decoratorContext (block mode.ignoreMissingBrace fault)))

def typeMemberEnd : Parse Unit := do
  unless ← optional .commaToken do
    let _ ← semicolon

def functionBody? (mode : SignatureMode) (fault : Option Fault) : Parse (Option Node) := do
  unless ← tokenIs .openBraceToken do
    if mode.isType then
      typeMemberEnd
      return none
    if ← canEndStatement then
      let _ ← semicolon
      return none
  return some (← functionBlock mode fault)

/-! ## Functions with names -/

def methodDeclaration (l : Lead) (asterisk : Option Node) (name : Node)
    (question exclamation : Option Node) (fault : Option Fault) : Parse Node := do
  let mode := functionMode asterisk.isSome (l.has .asyncKeyword)
  let typeParameters ← typeParameters?
  let parameters ← parameters mode
  let t ← returnType? .colonToken false
  let body ← functionBody? mode fault
  finishLed l .methodDeclaration (.functionLike
    { modifiers := l.modifiers, asterisk, name := some name, question, exclamation,
      typeParameters, parameters, type := t, body })

/-- An accessor, after its word. Type parameters and a type of its result are kept, so that they can
be reported. -/
def accessorDeclaration (l : Lead) (kind : Kind) (mode : SignatureMode) : Parse Node := do
  let name ← propertyName
  let typeParameters ← typeParameters?
  let parameters ← parameters {}
  let t ← returnType? .colonToken false
  let body ← functionBody? mode none
  finishLed l kind (.functionLike
    { modifiers := l.modifiers, name := some name, typeParameters, parameters, type := t, body })

def accessor? (l : Lead) (mode : SignatureMode) : Parse (Option Node) := do
  if ← contextualModifier .getKeyword then
    return some (← accessorDeclaration l .getAccessor mode)
  if ← contextualModifier .setKeyword then
    return some (← accessorDeclaration l .setAccessor mode)
  return none

def indexSignature (l : Lead) : Parse Node := do
  let parameters ←
    bracketedList .parameters (parameter false) .openBracketToken .closeBracketToken
  let t ← typeAnnotation?
  typeMemberEnd
  finishLed l .indexSignature (.functionLike { modifiers := l.modifiers, parameters, type := t })

def functionDeclaration (l : Lead) : Parse Node := do
  require .functionKeyword
  let asterisk ← optionalToken? .asteriskToken
  let name ← if l.has .defaultKeyword then bindingIdentifier? else some <$> identifier
  let mode := functionMode asterisk.isSome (l.has .asyncKeyword)
  let typeParameters ← typeParameters?
  let parameters ←
    if l.has .exportKeyword then inside NodeFlags.awaitContext (parameters mode)
    else parameters mode
  let t ← returnType? .colonToken false
  let body ← functionBody? mode (some .braceOrSemicolonExpected)
  finishLed l .functionDeclaration (.functionLike
    { modifiers := l.modifiers, asterisk, name, typeParameters, parameters, type := t, body })

/-- A function as an expression. Its name follows the rules of its own body. -/
def functionExpression : Parse Node := outside NodeFlags.decoratorContext do
  let l ← lead
  let modifiers ← modifiers {}
  let l := { l with modifiers := modifiers }
  require .functionKeyword
  let asterisk ← optionalToken? .asteriskToken
  let mode := functionMode asterisk.isSome (l.has .asyncKeyword)
  let added : NodeFlags :=
    (if mode.isGenerator then NodeFlags.yieldContext else .empty) |||
      (if mode.isAsync then NodeFlags.awaitContext else .empty)
  let name ← inside added bindingIdentifier?
  let typeParameters ← typeParameters?
  let parameters ← parameters mode
  let t ← returnType? .colonToken false
  let body ← functionBlock mode none
  finishLed l .functionExpression (.functionLike
    { modifiers, asterisk, name, typeParameters, parameters, type := t, body := some body })

end ScriptFrontend.Parse
