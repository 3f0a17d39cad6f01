import ScriptFrontend.Text.Span
import ScriptFrontend.Tree.Query

/-!
# Moving a tree to an edited text

After an edit the nodes behind it move with their text, and the nodes that it touches are marked; the
nodes before it stay. How far an edit reaches back over the nodes before it is found by the nearest
node that starts there. A moved tree is faithful if its names and literals read in the new text what
they read in the old one and its nodes still lie in order.
-/

namespace ScriptFrontend

/-- A part of an old text and where it ends in the new one. -/
structure Relocation where
  start : Nat
  oldStop : Nat
  newStop : Nat
deriving DecidableEq, Repr, Inhabited

namespace Relocation

def ofChange (c : Text.Change) : Relocation := ⟨c.span.start, c.span.stop, c.newSpan.stop⟩

def shift (r : Relocation) (p : Nat) : Nat :=
  Text.wrap (p + r.newStop + Text.offsetLimit - r.oldStop)

/-- Where an offset before, in or behind the edit goes. One inside stays as far as there is text. -/
def snap (r : Relocation) (p : Nat) : Nat := if p ≥ r.oldStop then r.shift p else min p r.newStop

/-- An offset of the new text behind the edit, in the old text. -/
def unshift (r : Relocation) (p : Nat) : Nat :=
  Text.wrap (p + r.oldStop + Text.offsetLimit - r.newStop)

end Relocation

namespace Node

/-! ## Moving -/

mutual

def moved (r : Relocation) : Node → Node
  | .mk h s slots docs origin =>
    .mk { h with pos := r.shift h.pos, stop := r.shift h.stop } s (movedSlots r slots)
      (movedItems r docs) origin

def movedSlots (r : Relocation) : List Slot → List Slot
  | [] => []
  | slot :: rest => movedSlot r slot :: movedSlots r rest

def movedSlot (r : Relocation) : Slot → Slot
  | .absent => .absent
  | .node n => .node (n.moved r)
  | .list head items =>
    .list { head with pos := r.shift head.pos, stop := r.shift head.stop } (movedItems r items)

def movedItems (r : Relocation) : List Node → List Node
  | [] => []
  | n :: rest => n.moved r :: movedItems r rest

end

mutual

/-- The node in the new text, with what the edit touches marked. -/
def relocated (r : Relocation) : Node → Node
  | .mk h s slots docs origin =>
    if h.pos > r.oldStop then moved r (.mk h s slots docs origin)
    else if h.stop < r.start then .mk h s slots docs origin
    else
      .mk { h with pos := r.snap h.pos, stop := r.snap h.stop, touched := true } s
        (relocatedSlots r slots) (relocatedItems r docs) origin

def relocatedSlots (r : Relocation) : List Slot → List Slot
  | [] => []
  | slot :: rest => relocatedSlot r slot :: relocatedSlots r rest

def relocatedSlot (r : Relocation) : Slot → Slot
  | .absent => .absent
  | .node n => .node (n.relocated r)
  | .list head items =>
    if head.pos > r.oldStop then movedSlot r (.list head items)
    else if head.stop < r.start then .list head items
    else
      .list { head with pos := r.snap head.pos, stop := r.snap head.stop, touched := true }
        (relocatedItems r items)

def relocatedItems (r : Relocation) : List Node → List Node
  | [] => []
  | n :: rest => n.relocated r :: relocatedItems r rest

end

/-! ## Faithful trees -/

/-- Nodes follow each other without overlap from an offset on. The end of the last one, if so. -/
def endInOrder? (start : Nat) : List Node → Option Nat
  | [] => some start
  | n :: rest => if n.pos < start then none else endInOrder? n.stop rest

def isOrdered (n : Node) : Bool :=
  (endInOrder? n.pos n.docs).isSome && (endInOrder? n.pos n.children).any (· ≤ n.stop)

/-- The text of the node is its own: a name or a simple literal. -/
def isTextual (n : Node) : Bool :=
  n.kind == .stringLiteral || n.kind == .numericLiteral || n.kind == .identifier

def readsSame (r : Relocation) (oldText newText : String) (n : Node) : Bool :=
  !n.isTextual ||
    Text.slice oldText (r.unshift n.pos) (r.unshift n.stop) == n.fullText newText

def isWithin (n : Node) : Option Text.Range → Bool
  | some range => range.pos ≤ n.pos && n.stop ≤ range.stop
  | none => true

mutual

def isFaithful (r : Relocation) (oldText newText : String) (parent : Option Text.Range) :
    Node → Bool
  | .mk h s slots docs origin =>
    let n : Node := .mk h s slots docs origin
    let holds :=
      if h.touched then n.isWithin parent
      else h.pos > r.newStop && n.readsSame r oldText newText
    let range : Text.Range := ⟨h.pos, h.stop⟩
    if !h.touched && h.pos ≤ r.newStop then true
    else
      holds && faithfulSlots r oldText newText range slots &&
        faithfulItems r oldText newText range docs && n.isOrdered

def faithfulSlots (r : Relocation) (oldText newText : String) (parent : Text.Range) :
    List Slot → Bool
  | [] => true
  | slot :: rest =>
    faithfulSlot r oldText newText parent slot && faithfulSlots r oldText newText parent rest

def faithfulSlot (r : Relocation) (oldText newText : String) (parent : Text.Range) : Slot → Bool
  | .absent => true
  | .node n => n.isFaithful r oldText newText (some parent)
  | .list _ items => faithfulItems r oldText newText parent items

def faithfulItems (r : Relocation) (oldText newText : String) (parent : Text.Range) :
    List Node → Bool
  | [] => true
  | n :: rest =>
    n.isFaithful r oldText newText (some parent) && faithfulItems r oldText newText parent rest

end

/-! ## The nearest node -/

mutual

def lastBelow? : Node → Option Node
  | .mk _ _ slots _ _ => lastInSlots? slots

def lastInSlots? : List Slot → Option Node
  | [] => none
  | slot :: rest => lastInSlots? rest <|> lastInSlot? slot

def lastInSlot? : Slot → Option Node
  | .absent => none
  | .node n => if n.isMissing then none else some ((lastBelow? n).getD n)
  | .list _ items => lastInItems? items

def lastInItems? : List Node → Option Node
  | [] => none
  | n :: rest =>
    lastInItems? rest <|> if n.isMissing then none else some ((lastBelow? n).getD n)

end

structure NearestSearch where
  best : Node
  before : Option Node := none
  isOver : Bool := false
deriving Inhabited

mutual

/-- Goes down along the nodes that hold the offset, up to the first one that starts behind it. -/
def searchNearest (position : Nat) (s : NearestSearch) : Node → NearestSearch
  | .mk _ _ slots _ _ => { searchSlots position s slots with isOver := true }

def searchSlots (position : Nat) (s : NearestSearch) : List Slot → NearestSearch
  | [] => s
  | slot :: rest =>
    let s := searchSlot position s slot
    if s.isOver then s else searchSlots position s rest

def searchSlot (position : Nat) (s : NearestSearch) : Slot → NearestSearch
  | .absent => s
  | .node n => searchNode position s n
  | .list _ items => searchItems position s items

def searchItems (position : Nat) (s : NearestSearch) : List Node → NearestSearch
  | [] => s
  | n :: rest =>
    let s := searchNode position s n
    if s.isOver then s else searchItems position s rest

def searchNode (position : Nat) (s : NearestSearch) : Node → NearestSearch
  | .mk h shape slots docs origin =>
    let n : Node := .mk h shape slots docs origin
    if n.isMissing then s
    else if h.pos > position then { s with isOver := true }
    else
      let s := if h.pos ≥ s.best.pos then { s with best := n } else s
      if position < h.stop then { searchSlots position s slots with isOver := true }
      else { s with before := some n }

end

def nearestTo (root : Node) (position : Nat) : Node :=
  let s := searchNearest position { best := root } root
  match s.before.map fun n => (lastBelow? n).getD n with
  | some last => if last.pos > s.best.pos then last else s.best
  | none => s.best

/-- Where a change may make a difference: from before the node that it starts in, and one more node
before that one, because a token may have been read with a look at the one after it. -/
def affectedBy (root : Node) (c : Text.Change) : Text.Change :=
  let back (start : Nat) : Nat := if start = 0 then 0 else (root.nearestTo start).pos - 1
  let start := back (back c.span.start)
  ⟨Text.Span.ofBounds start c.span.stop, Text.wrap (c.newLength + (c.span.start - start))⟩

end Node

end ScriptFrontend
