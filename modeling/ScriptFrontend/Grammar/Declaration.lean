import ScriptFrontend.Grammar.Class
import ScriptFrontend.Grammar.Module
import ScriptFrontend.Grammar.Type
import ScriptFrontend.Grammar.Binding

/-!
# Declarations

Type aliases and enumerations, and the choice of a declaration by its first word after the
modifiers. A declaration that only declares what is elsewhere is read in a context of its own.
-/

namespace ScriptFrontend.Parse

open Diagnostic (Fault)

def intrinsic? : Parse (Option Node) := do
  if ← tokenIs .intrinsicKeyword then attempt wordWithoutDot? else return none

def typeAliasDeclaration (l : Lead) : Parse Node := do
  require .typeKeyword
  if ← afterLineBreak then errorHere .lineBreakNotPermitted []
  let name ← identifier
  let typeParameters ← typeParameters?
  require .equalsToken
  let t ← match ← intrinsic? with
    | some n => pure n
    | none => type
  let _ ← semicolon
  finishLed l .typeAliasDeclaration (.typeAlias
    { modifiers := l.modifiers, name, typeParameters, type := t })

def enumMember : Parse Node := documented .enumMember do
  let name ← propertyName
  return .enumMember name (← allowIn initializer?)

def enumDeclaration (l : Lead) : Parse Node := do
  require .enumKeyword
  let name ← identifier
  let members ←
    if ← expect .openBraceToken then
      let members ← outsideYieldAndAwait (commaListOf .enumMembers enumMember false)
      require .closeBraceToken
      pure members
    else missingList
  finishLed l .enumDeclaration (.enumeration l.modifiers name members)

def missingDeclaration (l : Lead) : Parse Node := do
  let stop ← nodePos
  errorAtSpan stop 0 .declarationExpected []
  withDocs l.hasDoc
    (← finishAt .missingDeclaration l.pos stop (.missingDeclaration l.modifiers))

def declarationAfter (l : Lead) : Parse Node := do
  match ← token with
  | .varKeyword | .letKeyword | .constKeyword | .usingKeyword | .awaitKeyword =>
    variableStatement l
  | .functionKeyword => functionDeclaration l
  | .classKeyword => classLike l .classDeclaration
  | .interfaceKeyword => interfaceDeclaration l
  | .typeKeyword => typeAliasDeclaration l
  | .enumKeyword => enumDeclaration l
  | .globalKeyword | .moduleKeyword | .namespaceKeyword => moduleDeclaration l
  | .importKeyword => importDeclaration l
  | .exportKeyword => exportForm l
  | _ => missingDeclaration l

def declaration : Parse Node := do
  let l ← lead
  let l := { l with modifiers := ← modifiers { decorators := true } }
  if l.has .declareKeyword then
    inside NodeFlags.ambient (declarationAfter (l.addFlags NodeFlags.ambient))
  else declarationAfter l

end ScriptFrontend.Parse
