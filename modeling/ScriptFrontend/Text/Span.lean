import ScriptFrontend.Text.Bytes

/-!
# Spans, ranges and edits

A `Span` is a start and a length, a `Range` is a half-open pair of offsets, and a `Change` says
which span of an old text was replaced by how many bytes of a new one. `Change.between` finds the
smallest such edit between two texts whose ends do not cut a character. Offsets are words of 32 bits,
so the end of a span that a caller made up may lie before its start.

Sums start again at zero where a caller chooses the offsets: in spans, in edits and where a tree is moved by
an edit. Offsets that are found in a text, lines, numbers of nodes and counts of names are plain numbers
everywhere else. They are what words of 32 bits would be as long as a text, and what is counted in it, stays
below `offsetLimit`.
-/

namespace ScriptFrontend.Text

def offsetLimit : Nat := 4294967296

/-- What is left of a sum of offsets. It starts again at zero where it reaches the limit. -/
def wrap (n : Nat) : Nat := n % offsetLimit

theorem wrap_of_lt {n : Nat} (h : n < offsetLimit) : wrap n = n := Nat.mod_eq_of_lt h

structure Span where
  start : Nat
  length : Nat
deriving DecidableEq, Repr, Inhabited

namespace Span

def stop (s : Span) : Nat := wrap (s.start + s.length)

def ofBounds (start stop : Nat) : Span := ⟨start, wrap (stop + offsetLimit - start)⟩

theorem length_ofBounds {start stop : Nat} (h : start ≤ stop) (limit : stop < offsetLimit) :
    (ofBounds start stop).length = stop - start := by
  have le : stop - start < offsetLimit := Nat.lt_of_le_of_lt (Nat.sub_le stop start) limit
  rw [ofBounds, Nat.sub_add_comm h, wrap, Nat.add_mod_right, Nat.mod_eq_of_lt le]

def isEmpty (s : Span) : Bool := s.length == 0

def contains (s : Span) (pos : Nat) : Bool := s.start ≤ pos && pos < s.stop

def overlaps (s t : Span) : Bool := s.start < t.stop && t.start < s.stop

/-- Written as a pair of offsets joined by two dots. -/
def dotted (s : Span) : String := s!"{s.start}..{s.stop}"

def bracketed (s : Span) : String := s!"[{s.start}, {s.stop})"

end Span

structure Range where
  pos : Nat
  stop : Nat
deriving DecidableEq, Repr, Inhabited

namespace Range

def size (r : Range) : Nat := r.stop - r.pos

def isEmpty (r : Range) : Bool := r.pos == r.stop

def toSpan (r : Range) : Span := Span.ofBounds r.pos r.stop

def ofSpan (s : Span) : Range := ⟨s.start, s.stop⟩

def dotted (r : Range) : String := s!"{r.pos}..{r.stop}"

end Range

/-- The old `span` is replaced by `newLength` bytes. -/
structure Change where
  span : Span
  newLength : Nat
deriving DecidableEq, Repr, Inhabited

namespace Change

def unchanged : Change := ⟨⟨0, 0⟩, 0⟩

def isUnchanged (c : Change) : Bool := c.span.length == 0 && c.newLength == 0

def newSpan (c : Change) : Span := ⟨c.span.start, c.newLength⟩

def delta (c : Change) : Int := (c.newLength : Int) - c.span.length

/-- How many numbers from zero on pass the test before one fails it, at most `limit`. -/
def countWhile (p : Nat → Bool) (limit : Nat) : Nat :=
  go limit 0
where
  go : Nat → Nat → Nat
    | 0, k => k
    | fuel + 1, k => if p k then go fuel (k + 1) else k

/-- How many bytes two texts share from their starts on, at most `limit`. -/
def sharedLead (old new : String) (limit : Nat) : Nat :=
  countWhile (fun k => byteAt old k == byteAt new k) limit

/-- How many bytes two texts share from their ends back, at most `limit`. -/
def sharedTail (old new : String) (limit : Nat) : Nat :=
  countWhile
    (fun k => byteAt old (old.utf8ByteSize - 1 - k) == byteAt new (new.utf8ByteSize - 1 - k)) limit

/-- The largest number up to `n` that passes the test, or zero. -/
def lowerUntil (p : Nat → Bool) : Nat → Nat
  | 0 => 0
  | n + 1 => if p (n + 1) then n + 1 else lowerUntil p n

/-- The edit that keeps the longest shared start, and after it the longest shared end, such that
neither cuts a character. -/
def between (old new : String) : Change :=
  let oldSize := old.utf8ByteSize
  let newSize := new.utf8ByteSize
  let limit := min oldSize newSize
  let lead := lowerUntil (fun k => isBoundary old k && isBoundary new k) (sharedLead old new limit)
  let tail := lowerUntil
    (fun k => isBoundary old (oldSize - k) && isBoundary new (newSize - k))
    (sharedTail old new (limit - lead))
  ⟨Span.ofBounds (wrap lead) (wrap (oldSize - tail)), wrap (newSize - tail - lead)⟩

/-- The text that the edit makes of `old` by putting in `inserted`. -/
def apply (c : Change) (old inserted : String) : String :=
  slice old 0 c.span.start ++ inserted ++ dropTo old c.span.stop

def dotted (c : Change) : String := c.span.dotted ++ " -> " ++ toString c.newLength

end Change

end ScriptFrontend.Text
