import ScriptFrontend.Grammar.Lists

/-!
# Modifiers and decorators

A word is a modifier only if what follows it can be modified. Decorators may stand before the
modifiers and once more among them.
-/

namespace ScriptFrontend

structure ModifierMode where
  decorators : Bool := false
  const : Bool := false
  staticBlocks : Bool := false
deriving DecidableEq, Repr, Inhabited

namespace Parse

open Diagnostic (Fault)

def contextualModifier (kind : Kind) : Parse Bool :=
  tokenIs kind <&&> attemptTest nextCanFollowModifier

def passModifier (mode : ModifierMode) (seenStatic : Bool) : Parse Bool := do
  let k ← token
  if k == .constKeyword && mode.const then return ← attemptTest nextOnLineCanFollowModifier
  if k == .staticKeyword then
    if mode.staticBlocks then
      if ← lookAhead (nextTokenIs .openBraceToken) then return false
    if seenStatic then return false
  if k.isModifier then attemptTest nextCanFollowModifier else return false

def modifier? (mode : ModifierMode) (seenStatic : Bool) : Parse (Option Node) := do
  let pos ← nodePos
  let kind ← token
  if ← passModifier mode seenStatic then return some (← finish kind pos .token)
  return none

def decorator? : Parse (Option Node) := do
  let pos ← nodePos
  unless ← optional .atToken do return none
  let e ← inside NodeFlags.decoratorContext (call .decorator)
  return some (← finish .decorator pos (.wrapped e))

def modifiersAfter (mode : ModifierMode) (before : Array Node) : Parse (Array Node) := do
  let mut items := before
  for _ in rounds do
    match ← modifier? mode (items.any (·.kind == .staticKeyword)) with
    | none => break
    | some m => items := items.push m
  return items

def decoratorsAfter (before : Array Node) : Parse (Array Node) := do
  let mut items := before
  for _ in rounds do
    match ← decorator? with
    | none => break
    | some d => items := items.push d
  return items

def moreModifiers (mode : ModifierMode) (decorators : Nat) (items : Array Node) :
    Parse (Array Node) := do
  if mode.decorators && items.size > decorators then
    let more ← decoratorsAfter items
    if more.size > items.size then return ← modifiersAfter mode more
  return items

def modifiers (mode : ModifierMode) : Parse (Option NodeList) := do
  let pos ← nodePos
  let decorators ← if mode.decorators then decoratorsAfter #[] else pure #[]
  let items ← modifiersAfter mode decorators
  let items ← moreModifiers mode decorators.size items
  if items.isEmpty then return none
  return some (← listFrom items pos)

def errorAtFirst (modifiers : Option NodeList) (fault : Fault) : Parse Unit := do
  if let some m := modifiers.bind (·.items.head?) then errorAtNode m fault []

end Parse

end ScriptFrontend
