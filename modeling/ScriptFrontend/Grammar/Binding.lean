import ScriptFrontend.Grammar.Signature

/-!
# Bindings and variables

A binding is a name or a pattern of bindings that takes an object or an array apart. Declarations of
variables begin with one, and statements and loops hold lists of them.
-/

namespace ScriptFrontend.Parse

open Diagnostic (Fault)

def objectBindingElement : Parse Node := spanning .bindingElement do
  let dots ← optionalToken? .dotDotDotToken
  let isName ← isBindingIdentifier
  let property ← propertyName
  if isName && !(← tokenIs .colonToken) then
    return .bindingElement { dots, name := property, value := ← initializer? }
  require .colonToken
  let name ← call (.binding none)
  return .bindingElement { dots, propertyName := some property, name, value := ← initializer? }

def arrayBindingElement : Parse Node := do
  let pos ← nodePos
  if ← tokenIs .commaToken then return ← finish .omittedExpression pos .token
  let dots ← optionalToken? .dotDotDotToken
  let name ← call (.binding none)
  let value ← initializer?
  finish .bindingElement pos (.bindingElement { dots, name, value })

def bindingPattern (kind : Kind) (context : ListContext) (read : Parse Node)
    (opening closing : Kind) : Parse Node := spanning kind do
  require opening
  let l ← allowIn (commaListOf context read false)
  require closing
  return .list false l

def nameOrPattern (privateFault : Option Fault) : Parse Node := do
  match ← token with
  | .openBracketToken =>
    bindingPattern .arrayBindingPattern .arrayBindingElements arrayBindingElement
      .openBracketToken .closeBracketToken
  | .openBraceToken =>
    bindingPattern .objectBindingPattern .objectBindingElements objectBindingElement
      .openBraceToken .closeBraceToken
  | .privateIdentifier =>
    match privateFault with
    | some fault =>
      errorHere fault []
      takeIdentifier
    | none => identifierIf (← isBindingIdentifier) none
  | _ => identifierIf (← isBindingIdentifier) none

/-! ## Variables -/

def variableDeclaration (allowExclamation : Bool) : Parse Node := documented .variableDeclaration do
  let name ← call (.binding (some .privateInVariable))
  let exclamation ←
    if allowExclamation && name.kind == .identifier && !(← afterLineBreak) then
      optionalToken? .exclamationToken
    else pure none
  let t ← typeAnnotation?
  let value ← if ← tokenIn [.inKeyword, .ofKeyword] then pure none else initializer?
  return .variableDeclaration { name, exclamation, type := t, value }

/-- Moves past the word of a list of variables; gives back the flags it stands for. -/
def variableWord : Parse NodeFlags := do
  let flags : NodeFlags ←
    match ← token with
    | .letKeyword => pure NodeFlags.letDeclaration
    | .constKeyword => pure NodeFlags.constDeclaration
    | .usingKeyword => pure NodeFlags.usingDeclaration
    | .awaitKeyword =>
      skipToken
      pure NodeFlags.awaitUsing
    | _ => pure .empty
  skipToken
  return flags

/-- Variables with the word before them. In the head of a loop `in` is no operator, and `of` with a
name before a closing parenthesis leaves the list empty. -/
def variableList (inLoop : Bool) : Parse Node := do
  let pos ← nodePos
  let flags ← variableWord
  let isEmpty ←
    tokenIs .ofKeyword <&&> lookAhead (nextIsIdentifier <&&> nextTokenIs .closeParenToken)
  let l ←
    if isEmpty then missingList
    else
      let read := commaListOf .variableDeclarations (variableDeclaration !inLoop) false
      if inLoop then disallowIn read else allowIn read
  return (← finish .variableDeclarationList pos (.list false l)).addFlags flags

def variableStatement (l : Lead) : Parse Node := do
  let declarations ← variableList false
  let _ ← semicolon
  finishLed l .variableStatement (.variableStatement l.modifiers declarations)

end ScriptFrontend.Parse
