import ScriptFrontend.Tree.Query

/-!
# Finding list elements by their start

A cursor answers which element of a list starts at an offset: of several the outermost one. Questions
mostly come in ascending order, so the element after the last answer is tried before the tree is
searched from its root.
-/

namespace ScriptFrontend

namespace Node

mutual

/-- The outermost element of a list below a node that starts at an offset, and the elements after
it. -/
def elementAt? (position : Nat) : Node → Option (Node × List Node)
  | .mk _ _ slots _ _ => elementInSlots? position slots

def elementInSlots? (position : Nat) : List Slot → Option (Node × List Node)
  | [] => none
  | slot :: rest =>
    match elementInSlot? position slot with
    | some found => found
    | none => elementInSlots? position rest

def elementInSlot? (position : Nat) : Slot → Option (Option (Node × List Node))
  | .absent => none
  | .node n => if n.pos ≤ position && position < n.stop then some (n.elementAt? position) else none
  | .list head items =>
    if position < head.pos || head.stop ≤ position then none
    else some (elementInItems? position items)

def elementInItems? (position : Nat) : List Node → Option (Node × List Node)
  | [] => none
  | n :: rest =>
    if n.pos == position then some (n, rest)
    else if n.pos < position && position < n.stop then n.elementAt? position
    else elementInItems? position rest

end

end Node

structure ElementCursor where
  root : Node
  current : Option Node
  ahead : List Node
  lastPosition : Option Nat
deriving Inhabited

namespace ElementCursor

def ofRoot (root : Node) : ElementCursor :=
  match (root.statements?.map (·.items)).getD [] with
  | [] => ⟨root, none, [], none⟩
  | n :: rest => ⟨root, some n, rest, none⟩

/-- Goes to the next element if the current one ends at the offset. -/
def advance (c : ElementCursor) (position : Nat) : ElementCursor :=
  match c.current, c.ahead with
  | some n, next :: rest =>
    if n.stop == position then { c with current := some next, ahead := rest } else c
  | _, _ => c

def search (c : ElementCursor) (position : Nat) : ElementCursor :=
  match c.root.elementAt? position with
  | some (n, rest) => { c with current := some n, ahead := rest }
  | none => { c with current := none, ahead := [] }

def nodeAt (c : ElementCursor) (position : Nat) : Option Node × ElementCursor :=
  if c.lastPosition == some position then (c.current, c)
  else
    let c := c.advance position
    let c := if c.current.any (·.pos == position) then c else c.search position
    (c.current, { c with lastPosition := some position })

end ElementCursor

end ScriptFrontend
