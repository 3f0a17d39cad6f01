import ScriptFrontend.Grammar.Type

/-!
# Accesses and calls

What may follow an operand: members, elements, tagged templates, type arguments, arguments, and the
marks of optional chains. A chain goes on through marks that its value is there.
-/

namespace ScriptFrontend

namespace Kind

def canFollowTypeArguments : Kind → Bool
  | .openParenToken | .noSubstitutionTemplateLiteral | .templateHead | .dotToken
  | .closeParenToken | .closeBracketToken | .colonToken | .semicolonToken | .questionToken
  | .equalsEqualsToken | .equalsEqualsEqualsToken | .exclamationEqualsToken
  | .exclamationEqualsEqualsToken | .ampersandAmpersandToken | .barBarToken
  | .questionQuestionToken | .caretToken | .ampersandToken | .barToken | .closeBraceToken
  | .endOfFileToken => true
  | _ => false

end Kind

namespace Node

def inChain (n : Node) : Bool := n.flags.has NodeFlags.optionalChain

def chainedIf (n : Node) (chained : Bool) : Node :=
  if chained then n.addFlags NodeFlags.optionalChain else n

mutual

/-- Marks that a value is there, down to something that is a link of an optional chain, are links of
it too. Gives back the node, and whether it is a link. -/
def joinChain : Node → Node × Bool
  | .mk h s slots docs origin =>
    if h.flags.has NodeFlags.optionalChain then (.mk h s slots docs origin, true)
    else if h.kind != .nonNullExpression then (.mk h s slots docs origin, false)
    else
      let r := joinChainSlots slots
      if r.2 then
        (.mk { h with flags := h.flags ||| NodeFlags.optionalChain } s r.1 docs origin, true)
      else (.mk h s slots docs origin, false)

def joinChainSlots : List Slot → List Slot × Bool
  | .node n :: rest =>
    let r := n.joinChain
    (.node r.1 :: rest, r.2)
  | slots => (slots, false)

end

def instantiation? (n : Node) : Option (Node × Option NodeList) :=
  if n.kind == .expressionWithTypeArguments then
    match n.form with
    | .typeReference e arguments => some (e, arguments)
    | _ => none
  else none

end Node

namespace Parse

open Diagnostic (Fault)

/-! ## Arguments -/

def arrayElement : Parse Node := do
  match ← token with
  | .dotDotDotToken => spanning .spreadElement do
      skipToken
      return .wrapped (← assignment)
  | .commaToken =>
    let pos ← nodePos
    finish .omittedExpression pos .token
  | _ => assignment

def argument : Parse Node :=
  outside (NodeFlags.disallowIn ||| NodeFlags.decoratorContext) arrayElement

def arguments : Parse NodeList := do
  require .openParenToken
  let l ← commaListOf .argumentExpressions argument false
  require .closeParenToken
  return l

def expressionTypeArguments? : Parse (Option NodeList) := attempt do
  if ← isJavaScript then return none
  unless (← rescanLess) == .lessThanToken do return none
  skipToken
  let l ← commaListOf .typeArguments type false
  unless (← rescanGreater) == .greaterThanToken do return none
  skipToken
  if (← token).canFollowTypeArguments then return some l
  return none

/-! ## Templates -/

def isTemplateStart : Parse Bool := tokenIn [.noSubstitutionTemplateLiteral, .templateHead]

def templateExpression (isTagged : Bool) : Parse Node := spanning .templateExpression do
  let head ← templateHead isTagged
  return .templateLiteral head (← templateSpans .templateSpan freeExpression isTagged)

def taggedTemplate (pos : Nat) (tag : Node) (questionDot : Option Node)
    (typeArguments : Option NodeList) : Parse Node := do
  let template ←
    if ← tokenIs .noSubstitutionTemplateLiteral then
      let _ ← rescanTemplate true
      literal
    else templateExpression true
  let n ← finish .taggedTemplateExpression pos
    (.taggedTemplate { tag, questionDot, typeArguments, template })
  return n.chainedIf (questionDot.isSome || tag.inChain)

/-! ## Members and elements -/

def isOptionalAccess : Parse Bool :=
  tokenIs .questionDotToken <&&> lookAhead do
    skipToken
    isAnyWord <||> tokenIs .openBracketToken <||> isTemplateStart

def chained (e : Node) (questionDot : Option Node) : Node × Bool :=
  if questionDot.isSome then (e, true) else e.joinChain

def propertyAccess (pos : Nat) (e : Node) (questionDot : Option Node) : Parse Node := do
  let name ← nameAfterDot true true
  let (e, chain) := chained e questionDot
  if let some (_, some arguments) := e.instantiation? then
    errorAt (arguments.pos - 1) (arguments.stop + 1) .accessAfterInstantiation []
  let n ← finish .propertyAccessExpression pos (.propertyAccess e questionDot name)
  return n.chainedIf chain

def elementAccess (pos : Nat) (e : Node) (questionDot : Option Node) : Parse Node := do
  let index ←
    if ← tokenIs .closeBracketToken then missingNode .identifier true .elementAccessArgument []
    else
      let index ← freeExpression
      if index.kind == .stringLiteral || index.kind == .numericLiteral then
        if let some text := index.literalText? then noteIdentifier text
      pure index
  require .closeBracketToken
  let (e, chain) := chained e questionDot
  let n ← finish .elementAccessExpression pos (.elementAccess e questionDot index)
  return n.chainedIf chain

def chainMark? (allowChain : Bool) : Parse (Option Node) := do
  if ← (pure allowChain <&&> isOptionalAccess) then
    return some (← expectedToken .questionDotToken none)
  return none

/-- A member's name follows. Behind the mark of a chain no dot stands before it. -/
def passMemberDot (chained : Bool) : Parse Bool :=
  if chained then isAnyWord else optional .dotToken

/-- An element's index follows, and its bracket was passed. A decorator ends before a bracket. -/
def passElementBracket (chained : Bool) : Parse Bool := do
  if !chained && (← inContext NodeFlags.decoratorContext) then return false
  optional .openBracketToken

/-- One access, template, mark or list of type arguments behind an operand. -/
def memberStep? (pos : Nat) (e : Node) (allowChain : Bool) : Parse (Option Node) := do
  let questionDot ← chainMark? allowChain
  if ← passMemberDot questionDot.isSome then return some (← propertyAccess pos e questionDot)
  if ← passElementBracket questionDot.isSome then
    return some (← elementAccess pos e questionDot)
  if ← isTemplateStart then
    match questionDot, e.instantiation? with
    | none, some (tag, arguments) => return some (← taggedTemplate pos tag none arguments)
    | _, _ => return some (← taggedTemplate pos e questionDot none)
  if questionDot.isSome then return none
  if ← (tokenIs .exclamationToken <&&> do return !(← afterLineBreak)) then
    skipToken
    return some (← finish .nonNullExpression pos (.wrapped e))
  match ← expressionTypeArguments? with
  | some l => return some (← finish .expressionWithTypeArguments pos (.typeReference e (some l)))
  | none => return none

/-- All accesses, templates, marks and type arguments behind an operand. -/
def memberRest (pos : Nat) (e : Node) (allowChain : Bool) : Parse Node := do
  let mut e := e
  for _ in rounds do
    match ← memberStep? pos e allowChain with
    | some next => e := next
    | none => break
  return e

/-! ## Calls -/

def callRest (pos : Nat) (e : Node) : Parse Node := do
  let mut e := e
  for _ in rounds do
    e ← memberRest pos e true
    let questionDot ← optionalToken? .questionDotToken
    let mut typeArguments : Option NodeList := none
    if questionDot.isSome then
      typeArguments ← expressionTypeArguments?
      if ← isTemplateStart then
        e ← taggedTemplate pos e questionDot typeArguments
        continue
    if ← (pure typeArguments.isSome <||> tokenIs .openParenToken) then
      if questionDot.isNone then
        if let some (callee, given) := e.instantiation? then
          e := callee
          typeArguments := given
      let given ← arguments
      let (callee, chain) := chained e questionDot
      let call ← finish .callExpression pos
        (.call { expression := callee, questionDot, typeArguments, arguments := some given })
      e := call.chainedIf chain
      continue
    if questionDot.isSome then
      let name ← missingNode .identifier false .identifierExpected []
      let n ← finish .propertyAccessExpression pos (.propertyAccess e questionDot name)
      e := n.chainedIf true
    break
  return e

end Parse

end ScriptFrontend
