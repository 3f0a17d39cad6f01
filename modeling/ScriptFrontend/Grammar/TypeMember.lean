import ScriptFrontend.Grammar.Block

/-!
# Members of object types

Call and construct signatures, accessors, index signatures, properties and methods, and the lists of
them between braces.
-/

namespace ScriptFrontend.Parse

def signatureMember (kind : Kind) : Parse Node := documented kind do
  if kind == .constructSignature then require .newKeyword
  let typeParameters ← typeParameters?
  let parameters ← parameters { isType := true }
  let t ← returnType? .colonToken true
  typeMemberEnd
  return .functionLike { typeParameters, parameters, type := t }

def propertyOrMethodSignature (l : Lead) : Parse Node := do
  let name ← propertyName
  let question ← optionalToken? .questionToken
  if ← tokenIn [.openParenToken, .lessThanToken] then
    let typeParameters ← typeParameters?
    let parameters ← parameters { isType := true }
    let t ← returnType? .colonToken true
    typeMemberEnd
    finishLed l .methodSignature (.functionLike
      { modifiers := l.modifiers, name := some name, question, typeParameters, parameters,
        type := t })
  else
    let t ← typeAnnotation?
    let value ← initializer?
    typeMemberEnd
    finishLed l .propertySignature (.property
      { modifiers := l.modifiers, name, question, type := t, value })

def typeMember : Parse Node := do
  if ← tokenIn [.openParenToken, .lessThanToken] then return ← signatureMember .callSignature
  if ← (tokenIs .newKeyword <&&> lookAhead (nextIsIn [.openParenToken, .lessThanToken])) then
    return ← signatureMember .constructSignature
  let l ← lead
  let l := { l with modifiers := ← modifiers {} }
  if let some n ← accessor? l { isType := true } then return n
  if ← isIndexSignature then return ← indexSignature l
  propertyOrMethodSignature l

/-- Members between braces; missing without the opening one. -/
def typeMembers : Parse NodeList := do
  if ← expect .openBraceToken then
    let l ← listOf .typeMembers typeMember
    require .closeBraceToken
    return l
  missingList

end ScriptFrontend.Parse
