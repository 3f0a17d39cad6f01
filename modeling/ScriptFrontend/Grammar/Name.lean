import ScriptFrontend.Grammar.Lists
import ScriptFrontend.Grammar.Lead

/-!
# Literals and names of members

Literals with their written and their meant text, names of properties, sequences of expressions, and
the attributes of an import.
-/

namespace ScriptFrontend.Parse

open Diagnostic (Fault)

/-! ## Literals -/

def templateText (kind : Kind) : Parse String := do
  let written ← tokenText
  let closing :=
    if (← tokenFlags).has TokenFlags.unterminated then 0
    else if kind == .noSubstitutionTemplateLiteral || kind == .templateTail then 1
    else 2
  let start := min written.utf8ByteSize 1
  return Text.slice written start (max (written.utf8ByteSize - closing) start)

def literalOf (kind : Kind) : Parse Node := do
  let pos ← nodePos
  let text ← tokenValue
  let raw ← if kind.isTemplatePiece then some <$> templateText kind else pure none
  let flags := (← tokenFlags).without (TokenFlags.precedingLineBreak ||| TokenFlags.precedingDoc)
  skipToken
  finish kind pos (.literal text raw flags)

def literal : Parse Node := do literalOf (← token)

def nameLiteral : Parse Node := do
  let n ← literal
  if let some text := n.literalText? then noteIdentifier text
  return n

/-! ## Expressions -/

def assignment : Parse Node := call (.assignment true)

def expressionSequence : Parse Node := outside NodeFlags.decoratorContext do
  let pos ← nodePos
  let mut left ← assignment
  for _ in rounds do
    match ← optionalToken? .commaToken with
    | none => break
    | some comma => left ← finish .binaryExpression pos (.binary left comma (← assignment))
  return left

def freeExpression : Parse Node := allowIn expressionSequence

def initializer? : Parse (Option Node) := do
  if ← optional .equalsToken then return some (← assignment)
  return none

/-! ## Names of properties -/

def computedName : Parse Node := spanning .computedPropertyName do
  require .openBracketToken
  let e ← freeExpression
  require .closeBracketToken
  return .wrapped e

def propertyName : Parse Node := do
  match ← token with
  | .stringLiteral | .numericLiteral | .bigIntLiteral => nameLiteral
  | .openBracketToken => computedName
  | .privateIdentifier => privateName
  | _ => identifierName

def bindingIdentifier? : Parse (Option Node) := do
  if ← isBindingIdentifier then return some (← takeIdentifier)
  return none

/-! ## Import attributes -/

def importAttribute : Parse Node := spanning .importAttribute do
  let name ← if ← isAnyWord then identifierName else literalOf .stringLiteral
  require .colonToken
  return .importAttribute name (← assignment)

/-- Attributes between braces, after their word where it has not been read yet. -/
def importAttributes (word : Option Kind) : Parse Node := spanning .importAttributes do
  if let some word := word then require word
  let openPos ← tokenStart
  if ← expect .openBraceToken then
    let multiLine ← afterLineBreak
    let l ← commaListOf .importAttributes importAttribute true
    requireMatching .openBraceToken .closeBraceToken true openPos
    return .list multiLine l
  let pos ← nodePos
  return .list false (.ofItems [] pos pos)

def importAttributes? : Parse (Option Node) := do
  let k ← token
  if (k == .withKeyword || k == .assertKeyword) && !(← afterLineBreak) then
    return some (← importAttributes (some k))
  return none

end ScriptFrontend.Parse
