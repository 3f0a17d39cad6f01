import ScriptFrontend.Grammar.State
import ScriptFrontend.Proofs.Diagnostic.Collection
import ScriptFrontend.Proofs.Token.Standing

/-!
# Disciplines of reading

A reading of a text goes on in it and comes to an end. What has to be known for that of the text, of
an old tree at hand and of the production that is being read is a discipline. A world says how far a
reading has come and which token stands there.

A production may call another one without having moved on only if that one has a lower rank; so no
chain of calls at one place is longer than the number of ranks.
-/

namespace ScriptFrontend

open Diagnostic (Fault)

def Nonterminal.rank : Nonterminal → Nat
  | .docComment .. => 0
  | .simpleType | .primary | .binding _ | .element _ | .innerNamespace _ | .docTag .. | .docChild .. => 1
  | .operatorType | .leftHandSide => 2
  | .type | .simpleUnary | .decorator => 3
  | .unary => 4
  | .binary _ => 5
  | .assignment _ => 6
  | .statement => 7

theorem Nonterminal.rank_le (n : Nonterminal) : n.rank ≤ 7 := by
  unfold rank
  split <;> decide

theorem Nonterminal.rank_pos (n : Nonterminal) (h : ∀ start stop, n ≠ .docComment start stop) :
    0 < n.rank := by
  cases n with
  | docComment start stop => exact absurd rfl (h start stop)
  | _ => exact Nat.succ_pos _

/-- What stands where a nonterminal is read that cannot begin with another token. -/
def Nonterminal.opening? : Nonterminal → Option Kind
  | .element _ => some .lessThanToken
  | .docTag .. => some .atToken
  | _ => none

namespace ParserState

/-- What a reading leaves as it found it. Offsets are only added to those that open no arrow function,
and diagnostics to those before, none where another one starts. -/
structure Keeps (s t : ParserState) : Prop where
  fileName : t.fileName = s.fileName
  target : t.target = s.target
  scriptKind : t.scriptKind = s.scriptKind
  contextFlags : t.contextFlags = s.contextFlags
  openLists : t.openLists = s.openLists
  topLevel : t.topLevel = s.topLevel
  depth : t.depth = s.depth
  notArrows : s.notArrows ⊆ t.notArrows
  diagnostics : s.diagnostics.items.toList <+: t.diagnostics.items.toList
  distinct : s.diagnostics.IsDistinct → t.diagnostics.IsDistinct

theorem Keeps.refl (s : ParserState) : s.Keeps s :=
  ⟨rfl, rfl, rfl, rfl, rfl, rfl, rfl, List.Subset.refl _, List.prefix_refl _, id⟩

theorem Keeps.trans {s t u : ParserState} (h : s.Keeps t) (h' : t.Keeps u) : s.Keeps u where
  fileName := h'.fileName.trans h.fileName
  target := h'.target.trans h.target
  scriptKind := h'.scriptKind.trans h.scriptKind
  contextFlags := h'.contextFlags.trans h.contextFlags
  openLists := h'.openLists.trans h.openLists
  topLevel := h'.topLevel.trans h.topLevel
  depth := h'.depth.trans h.depth
  notArrows := List.Subset.trans h.notArrows h'.notArrows
  diagnostics := h.diagnostics.trans h'.diagnostics
  distinct := h'.distinct ∘ h.distinct

/-- One state comes from another one by reading on. -/
structure Follows (s t : ParserState) : Prop extends s.Keeps t where
  stop : s.scanner.stop ≤ t.scanner.stop
  whole : s.scanner.IsWhole → t.scanner.IsWhole

theorem Follows.refl (s : ParserState) : s.Follows s := ⟨.refl s, Nat.le_refl _, id⟩

theorem Follows.trans {s t u : ParserState} (h : s.Follows t) (h' : t.Follows u) : s.Follows u :=
  ⟨h.toKeeps.trans h'.toKeeps, Nat.le_trans h.stop h'.stop, h'.whole ∘ h.whole⟩

end ParserState

structure Discipline where
  text : String
  holds : ElementCursor → Prop
  /-- The elements of the old tree that may be taken over are not empty and end inside of the text. -/
  found : ∀ {c : ElementCursor} (pos : Nat), holds c → holds (c.nodeAt pos).2 ∧
    ∀ n, (c.nodeAt pos).1 = some n → n.isMissing = false → n.head.touched = false →
      pos < n.stop ∧ n.stop ≤ text.utf8ByteSize
  /-- Whether the reading was cut short before. It stays so, and else it is not cut short. -/
  stalled : Bool
  floor : Nat
  rank : Nat

namespace Discipline

def size (D : Discipline) : Nat := D.text.utf8ByteSize

def Covers (D : Discipline) (offset rank : Nat) : Prop :=
  D.floor < offset ∨ (D.floor = offset ∧ rank < D.rank)

theorem Covers.mono {D : Discipline} {i j r : Nat} (h : D.Covers i r) (le : i ≤ j) : D.Covers j r := by
  unfold Covers at h ⊢
  omega

theorem Covers.lower {D : Discipline} {i r r' : Nat} (h : D.Covers i r) (le : r' ≤ r) :
    D.Covers i r' := by
  unfold Covers at h ⊢
  omega

structure Stands (D : Discipline) (s : ParserState) : Prop where
  placed : s.scanner.Placed
  text : s.text = D.text
  cursor : ∀ c ∈ s.cursor, D.holds c
  going : s.stalled = D.stalled

end Discipline

/-- How far a reading has come, and what stands there. -/
structure World (D : Discipline) where
  offset : Nat
  token : Kind
  inside : offset ≤ D.size
  above : D.Covers offset 0

namespace World

variable {D : Discipline}

/-- A reading goes from one world to the other. It does not come to an end where it stands. -/
structure Before (m w : World D) : Prop where
  offset : m.offset ≤ w.offset
  live : w.offset = m.offset → m.token ≠ .endOfFileToken → w.token ≠ .endOfFileToken

theorem Before.refl (m : World D) : m.Before m := ⟨Nat.le_refl _, fun _ token => token⟩

theorem Before.trans {m w v : World D} (h : m.Before w) (h' : w.Before v) : m.Before v := by
  have le := h.offset
  have le' := h'.offset
  exact ⟨by omega, fun same token => h'.live (by omega) (h.live (by omega) token)⟩

structure At (m : World D) (s : ParserState) : Prop extends D.Stands s where
  offset : s.scanner.fullStart = m.offset
  token : s.scanner.token = m.token

end World

/-- A world that a reading from `m` on comes to. -/
structure Later {D : Discipline} (m : World D) where
  world : World D
  before : m.Before world

def Later.trans {D : Discipline} {m : World D} (w : Later m) (v : Later w.world) : Later m :=
  ⟨v.world, w.before.trans v.before⟩

structure Past {D : Discipline} (m : World D) extends Later m where
  past : m.offset < world.offset

/-! ## What is known of a world -/

namespace World

variable {D : Discipline}

class Allows (m : World D) (n : Nonterminal) : Prop where
  covers : D.Covers m.offset n.rank

class Free (m : World D) : Prop where
  covers : D.Covers m.offset 7

class Shows (m : World D) (k : outParam Kind) : Prop where
  token : m.token = k

class Live (m : World D) : Prop where
  token : m.token ≠ .endOfFileToken

/-- Behind a token of the kind any nonterminal may be called. -/
class Ready (m : World D) (k : Kind) : Prop where
  ready : D.Covers m.offset 7 ∨ m.token = k

class From (i : Nat) (m : World D) : Prop where
  le : i ≤ m.offset

class After (i : Nat) (m : World D) : Prop where
  lt : i < m.offset

end World

structure Freed {D : Discipline} (m : World D) extends Later m where
  free : world.Free

/-- A later world in which the text does not end. -/
structure Alive {D : Discipline} (m : World D) extends Later m where
  live : world.Live

/-- The same world, where it is known which token stands there. -/
structure Shown {D : Discipline} (m : World D) (k : Kind) : Prop where
  token : m.token = k

def Shown.world {D : Discipline} {m : World D} {k : Kind} (_ : Shown m k) : World D := m

/-- A test that comes out true by computation. -/
class Holds (test : Bool) : Prop where
  eq : test = true

@[reducible]
def Kind.isSolid : Kind → Bool
  | .endOfFileToken => false
  | _ => true

theorem Kind.ne_of_isSolid {k : Kind} (h : k.isSolid = true) : k ≠ .endOfFileToken := by
  rintro rfl
  cases h

section

open World

variable {D : Discipline} {m : World D} {k : Kind} {i : Nat}

instance : Holds true := ⟨rfl⟩

instance Past.free (w : Past m) : w.world.Free := ⟨by
  have past := w.past
  have above := m.above
  unfold Discipline.Covers at above ⊢
  omega⟩

instance (w : Freed m) : w.world.Free := w.free

instance (w : Alive m) : w.world.Live := w.live

instance World.Free.later [h : m.Free] (w : Later m) : w.world.Free :=
  ⟨h.covers.mono w.before.offset⟩

instance World.Allows.of_free (n : Nonterminal) [h : m.Free] : m.Allows n :=
  ⟨h.covers.lower n.rank_le⟩

instance World.Allows.later (n : Nonterminal) [h : m.Allows n] (w : Later m) : w.world.Allows n :=
  ⟨h.covers.mono w.before.offset⟩

instance World.Live.of_shows [h : m.Shows k] [solid : Holds k.isSolid] : m.Live :=
  ⟨h.token ▸ Kind.ne_of_isSolid solid.eq⟩

instance World.Ready.of_free [h : m.Free] : m.Ready k := ⟨.inl h.covers⟩

instance World.Ready.of_shows [h : m.Shows k] : m.Ready k := ⟨.inr h.token⟩

instance (w : Shown m k) : w.world.Shows k := ⟨w.token⟩

instance [free : m.Free] (w : Shown m k) : w.world.Free := free

instance (n : Nonterminal) [allows : m.Allows n] (w : Shown m k) : w.world.Allows n := allows

instance [after : m.After i] (w : Shown m k) : w.world.After i := after

instance World.From.refl : m.From m.offset := ⟨Nat.le_refl _⟩

instance World.From.later [h : m.From i] (w : Later m) : w.world.From i :=
  ⟨Nat.le_trans h.le w.before.offset⟩

instance World.From.shown [h : m.From i] (w : Shown m k) : w.world.From i := h

instance World.After.past [h : m.From i] (w : Past m) : w.world.After i :=
  ⟨Nat.lt_of_le_of_lt h.le w.past⟩

instance World.After.later [h : m.After i] (w : Later m) : w.world.After i :=
  ⟨Nat.lt_of_lt_of_le h.lt w.before.offset⟩

end

end ScriptFrontend
