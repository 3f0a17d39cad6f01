import ScriptFrontend.Proofs.Text.Boundary
import ScriptFrontend.Text.Span

/-!
# The smallest edit between two texts

A difference between two texts says up to where they share their lead and from where on they share
their tail, both at boundaries of both texts. The edit that is found has the longest lead, and behind
it the longest tail. Its ends are words; where both texts are shorter than words reach they are the
ends of the difference.
-/

namespace ScriptFrontend.Text

variable {old new : String} {p : Nat → Bool} {n k : Nat}

/-! ## Counting up and going back -/

theorem Change.countWhile_go {fuel start : Nat} :
    start ≤ countWhile.go p fuel start ∧ countWhile.go p fuel start ≤ start + fuel ∧
      (∀ k, start ≤ k → k < countWhile.go p fuel start → p k = true) ∧
      (countWhile.go p fuel start < start + fuel → p (countWhile.go p fuel start) = false) := by
  induction fuel generalizing start with
  | zero => exact ⟨Nat.le_refl _, Nat.le_refl _, fun k le lt => absurd lt (Nat.not_lt.mpr le),
      fun lt => absurd lt (Nat.lt_irrefl _)⟩
  | succ fuel ih =>
    rw [countWhile.go]
    cases passes : p start with
    | false => exact ⟨Nat.le_refl _, by simp, fun k le lt => absurd lt (Nat.not_lt.mpr le), fun _ => passes⟩
    | true =>
      obtain ⟨le, bound, all, fails⟩ := @ih (start + 1)
      simp only [if_true]
      refine ⟨by omega, by omega, fun k from_start lt => ?_, fun lt => fails (by omega)⟩
      rcases Nat.eq_or_lt_of_le from_start with rfl | later
      · exact passes
      · exact all k later lt

theorem Change.countWhile_le (p : Nat → Bool) (n : Nat) : countWhile p n ≤ n := by
  have bound : countWhile.go p n 0 ≤ 0 + n := countWhile_go.2.1
  rwa [Nat.zero_add] at bound

theorem Change.of_lt_countWhile (h : k < countWhile p n) : p k = true :=
  countWhile_go.2.2.1 k (Nat.zero_le k) h

theorem Change.le_countWhile (le : k ≤ n) (all : ∀ i < k, p i = true) : k ≤ countWhile p n := by
  rcases Nat.lt_or_ge (countWhile p n) k with less | enough
  · have fails : p (countWhile p n) = false :=
      countWhile_go.2.2.2 (Nat.lt_of_lt_of_le less (by omega))
    exact absurd (all _ less) (by simp [fails])
  · exact enough

theorem Change.lowerUntil_le (p : Nat → Bool) (n : Nat) : lowerUntil p n ≤ n := by
  induction n with
  | zero => exact Nat.le_refl 0
  | succ n ih =>
    rw [lowerUntil]
    split
    · exact Nat.le_refl _
    · exact Nat.le_succ_of_le ih

theorem Change.lowerUntil_holds (zero : p 0 = true) (n : Nat) : p (lowerUntil p n) = true := by
  induction n with
  | zero => exact zero
  | succ n ih =>
    rw [lowerUntil]
    split
    · assumption
    · exact ih

theorem Change.le_lowerUntil (le : k ≤ n) (holds : p k = true) : k ≤ lowerUntil p n := by
  induction n with
  | zero => exact le
  | succ n ih =>
    rw [lowerUntil]
    split
    · exact le
    · rename_i fails
      rcases Nat.eq_or_lt_of_le le with rfl | lower
      · exact absurd holds fails
      · exact ih (Nat.le_of_lt_succ lower)

/-! ## Differences -/

/-- Where two texts differ: they are the same before `lead`, and behind `oldStop` and `newStop`. -/
structure Difference (old new : String) where
  lead : Nat
  oldStop : Nat
  newStop : Nat
  leadOld : Boundary old lead
  leadNew : Boundary new lead
  stopOld : Boundary old oldStop
  stopNew : Boundary new newStop
  leadLeOld : lead ≤ oldStop
  leadLeNew : lead ≤ newStop
  sameLead : slice old 0 lead = slice new 0 lead
  sameTail : dropTo old oldStop = dropTo new newStop

namespace Difference

/-- Nothing is between the lead and the tail, in neither text. -/
def IsEmpty (d : Difference old new) : Prop := d.lead = d.oldStop ∧ d.lead = d.newStop

/-- No difference has a longer lead, and none has a longer tail that keeps off this lead. -/
structure IsMinimal (d : Difference old new) : Prop where
  lead : ∀ e : Difference old new, e.lead ≤ d.lead
  tail : ∀ e : Difference old new, d.lead ≤ e.oldStop → d.lead ≤ e.newStop →
    d.oldStop ≤ e.oldStop ∧ d.newStop ≤ e.newStop

theorem tail_size (d : Difference old new) :
    old.utf8ByteSize - d.oldStop = new.utf8ByteSize - d.newStop :=
  ((slice_eq_slice_iff d.stopOld (boundary_size old) d.stopOld.le_size d.stopNew (boundary_size new)
    d.stopNew.le_size).mp d.sameTail).1

def none (s : String) : Difference s s where
  lead := s.utf8ByteSize
  oldStop := s.utf8ByteSize
  newStop := s.utf8ByteSize
  leadOld := boundary_size s
  leadNew := boundary_size s
  stopOld := boundary_size s
  stopNew := boundary_size s
  leadLeOld := Nat.le_refl _
  leadLeNew := Nat.le_refl _
  sameLead := rfl
  sameTail := rfl

/-- The new text is the old one with another part between lead and tail. -/
theorem replaced (d : Difference old new) :
    slice old 0 d.lead ++ slice new d.lead d.newStop ++ dropTo old d.oldStop = new := by
  rw [d.sameLead, d.sameTail, slice_append (boundary_zero new) d.leadNew d.stopNew (Nat.zero_le _)
    d.leadLeNew, dropTo, slice_append (boundary_zero new) d.stopNew (boundary_size new) (Nat.zero_le _)
    d.stopNew.le_size, slice_size]

theorem IsMinimal.isEmpty_iff {d : Difference old new} (minimal : d.IsMinimal) :
    d.IsEmpty ↔ old = new := by
  constructor
  · rintro ⟨inOld, inNew⟩
    calc old
      _ = slice old 0 d.lead ++ dropTo old d.lead := by
        rw [dropTo, slice_append (boundary_zero old) d.leadOld (boundary_size old) (Nat.zero_le _)
          d.leadOld.le_size, slice_size]
      _ = slice new 0 d.lead ++ dropTo new d.lead := by
        rw [d.sameLead]
        conv_lhs => rw [inOld]
        conv_rhs => rw [inNew]
        rw [d.sameTail, ← inNew, inOld]
      _ = new := by
        rw [dropTo, slice_append (boundary_zero new) d.leadNew (boundary_size new) (Nat.zero_le _)
          d.leadNew.le_size, slice_size]
  · rintro rfl
    have long : old.utf8ByteSize ≤ d.lead := minimal.lead (none old)
    have := d.leadLeOld
    have := d.leadLeNew
    have := d.stopOld.le_size
    have := d.stopNew.le_size
    exact ⟨by omega, by omega⟩

end Difference

/-! ## The edit that is found -/

namespace Change

theorem of_boundaries (h : (isBoundary old n && isBoundary new k) = true) :
    Boundary old n ∧ Boundary new k :=
  (Bool.and_eq_true_iff.mp h).imp isBoundary_iff.mp isBoundary_iff.mp

def leadOf (old new : String) : Nat :=
  lowerUntil (fun k => isBoundary old k && isBoundary new k)
    (sharedLead old new (min old.utf8ByteSize new.utf8ByteSize))

def tailOf (old new : String) : Nat :=
  lowerUntil
    (fun k => isBoundary old (old.utf8ByteSize - k) && isBoundary new (new.utf8ByteSize - k))
    (sharedTail old new (min old.utf8ByteSize new.utf8ByteSize - leadOf old new))

theorem leadOf_le (old new : String) : leadOf old new ≤ min old.utf8ByteSize new.utf8ByteSize :=
  Nat.le_trans (lowerUntil_le _ _) (countWhile_le _ _)

theorem tailOf_le (old new : String) :
    tailOf old new ≤ min old.utf8ByteSize new.utf8ByteSize - leadOf old new :=
  Nat.le_trans (lowerUntil_le _ _) (countWhile_le _ _)

theorem leadOf_boundary (old new : String) :
    Boundary old (leadOf old new) ∧ Boundary new (leadOf old new) := by
  refine of_boundaries (lowerUntil_holds (p := fun k => isBoundary old k && isBoundary new k) ?_ _)
  exact Bool.and_eq_true_iff.mpr
    ⟨isBoundary_iff.mpr (boundary_zero old), isBoundary_iff.mpr (boundary_zero new)⟩

theorem tailOf_boundary (old new : String) :
    Boundary old (old.utf8ByteSize - tailOf old new) ∧
      Boundary new (new.utf8ByteSize - tailOf old new) := by
  refine of_boundaries (lowerUntil_holds (p := fun k =>
    isBoundary old (old.utf8ByteSize - k) && isBoundary new (new.utf8ByteSize - k)) ?_ _)
  exact Bool.and_eq_true_iff.mpr
    ⟨isBoundary_iff.mpr (boundary_size old), isBoundary_iff.mpr (boundary_size new)⟩

theorem byteAt_leadOf (h : k < leadOf old new) : byteAt old k = byteAt new k :=
  beq_iff_eq.mp (of_lt_countWhile (p := fun k => byteAt old k == byteAt new k)
    (Nat.lt_of_lt_of_le h (lowerUntil_le _ _)))

theorem byteAt_tailOf (h : k < tailOf old new) :
    byteAt old (old.utf8ByteSize - 1 - k) = byteAt new (new.utf8ByteSize - 1 - k) :=
  beq_iff_eq.mp (of_lt_countWhile (p := fun k =>
    byteAt old (old.utf8ByteSize - 1 - k) == byteAt new (new.utf8ByteSize - 1 - k))
    (Nat.lt_of_lt_of_le h (lowerUntil_le _ _)))

def difference (old new : String) : Difference old new where
  lead := leadOf old new
  oldStop := old.utf8ByteSize - tailOf old new
  newStop := new.utf8ByteSize - tailOf old new
  leadOld := (leadOf_boundary old new).1
  leadNew := (leadOf_boundary old new).2
  stopOld := (tailOf_boundary old new).1
  stopNew := (tailOf_boundary old new).2
  leadLeOld := by
    have := leadOf_le old new
    have := tailOf_le old new
    omega
  leadLeNew := by
    have := leadOf_le old new
    have := tailOf_le old new
    omega
  sameLead := by
    have cuts := leadOf_boundary old new
    refine (slice_eq_slice_iff (boundary_zero old) cuts.1 (Nat.zero_le _) (boundary_zero new) cuts.2
      (Nat.zero_le _)).mpr ⟨rfl, fun k inside => ?_⟩
    rw [Nat.zero_add]
    exact byteAt_leadOf inside
  sameTail := by
    have cuts := tailOf_boundary old new
    have := tailOf_le old new
    refine (slice_eq_slice_iff cuts.1 (boundary_size old) (Nat.sub_le _ _) cuts.2 (boundary_size new)
      (Nat.sub_le _ _)).mpr ⟨by omega, fun k inside => ?_⟩
    have less : tailOf old new - 1 - k < tailOf old new := by omega
    have byte := byteAt_tailOf less
    have fromOld : old.utf8ByteSize - 1 - (tailOf old new - 1 - k) =
        old.utf8ByteSize - tailOf old new + k := by omega
    have fromNew : new.utf8ByteSize - 1 - (tailOf old new - 1 - k) =
        new.utf8ByteSize - tailOf old new + k := by omega
    rwa [fromOld, fromNew] at byte

theorem difference_minimal (old new : String) : (difference old new).IsMinimal where
  lead e := by
    have inOld := e.leadOld.le_size
    have inNew := e.leadNew.le_size
    obtain ⟨-, bytes⟩ := (slice_eq_slice_iff (boundary_zero old) e.leadOld (Nat.zero_le _)
      (boundary_zero new) e.leadNew (Nat.zero_le _)).mp e.sameLead
    refine le_lowerUntil (le_countWhile (by omega) fun i less => beq_iff_eq.mpr ?_) ?_
    · simpa using bytes i less
    · exact Bool.and_eq_true_iff.mpr ⟨isBoundary_iff.mpr e.leadOld, isBoundary_iff.mpr e.leadNew⟩
  tail e behindOld behindNew := by
    have inOld := e.stopOld.le_size
    have inNew := e.stopNew.le_size
    have size := e.tail_size
    have lead : leadOf old new ≤ e.oldStop := behindOld
    have lead' : leadOf old new ≤ e.newStop := behindNew
    obtain ⟨-, bytes⟩ := (slice_eq_slice_iff e.stopOld (boundary_size old) inOld e.stopNew
      (boundary_size new) inNew).mp e.sameTail
    have long : old.utf8ByteSize - e.oldStop ≤ tailOf old new := by
      refine le_lowerUntil (le_countWhile (by omega) fun i less => beq_iff_eq.mpr ?_) ?_
      · have byte := bytes (old.utf8ByteSize - e.oldStop - 1 - i) (by omega)
        have fromOld : e.oldStop + (old.utf8ByteSize - e.oldStop - 1 - i) =
            old.utf8ByteSize - 1 - i := by omega
        have fromNew : e.newStop + (old.utf8ByteSize - e.oldStop - 1 - i) =
            new.utf8ByteSize - 1 - i := by omega
        rwa [fromOld, fromNew] at byte
      · have atOld : old.utf8ByteSize - (old.utf8ByteSize - e.oldStop) = e.oldStop := by omega
        have atNew : new.utf8ByteSize - (old.utf8ByteSize - e.oldStop) = e.newStop := by omega
        rw [atOld, atNew]
        exact Bool.and_eq_true_iff.mpr ⟨isBoundary_iff.mpr e.stopOld, isBoundary_iff.mpr e.stopNew⟩
    change old.utf8ByteSize - tailOf old new ≤ e.oldStop ∧ new.utf8ByteSize - tailOf old new ≤ e.newStop
    omega

theorem between_eq (old new : String) :
    between old new = ⟨Span.ofBounds (wrap (difference old new).lead) (wrap (difference old new).oldStop),
      wrap ((difference old new).newStop - (difference old new).lead)⟩ := rfl

/-- The edit between two texts has the ends of their smallest difference, as words. Where words reach
over both texts they are the ends themselves, and the edit is empty if and only if nothing differs. -/
theorem between_is_minimal_edit (old new : String) :
    ∃ d : Difference old new, d.IsMinimal ∧ (d.IsEmpty ↔ old = new) ∧
      (between old new).span.start = wrap d.lead ∧
      (between old new).span.stop = wrap d.oldStop ∧
      (between old new).newSpan.stop = wrap d.newStop ∧
      (old.utf8ByteSize < offsetLimit → new.utf8ByteSize < offsetLimit →
        between old new = ⟨⟨d.lead, d.oldStop - d.lead⟩, d.newStop - d.lead⟩ ∧
        ((between old new).isUnchanged = true ↔ old = new)) := by
  have minimal := difference_minimal old new
  refine ⟨difference old new, minimal, minimal.isEmpty_iff, ?_⟩
  rw [between_eq]
  generalize difference old new = d at minimal
  have le := d.leadLeOld
  have le' := d.leadLeNew
  have inOld := d.stopOld.le_size
  have inNew := d.stopNew.le_size
  refine ⟨rfl, ?_, ?_, fun short short' => ?_⟩
  · simp only [Span.stop, Span.ofBounds, wrap, offsetLimit]
    omega
  · simp only [Span.stop, newSpan, Span.ofBounds, wrap, offsetLimit]
    omega
  · have ends : (⟨Span.ofBounds (wrap d.lead) (wrap d.oldStop), wrap (d.newStop - d.lead)⟩ : Change) =
        ⟨⟨d.lead, d.oldStop - d.lead⟩, d.newStop - d.lead⟩ := by
      rw [wrap_of_lt (by omega), wrap_of_lt (by omega), wrap_of_lt (by omega)]
      congr 1
      exact Span.mk.injEq .. ▸ ⟨rfl, Span.length_ofBounds le (by omega)⟩
    refine ⟨ends, ?_⟩
    rw [ends, ← minimal.isEmpty_iff, isUnchanged, Bool.and_eq_true_iff, beq_iff_eq, beq_iff_eq,
      Difference.IsEmpty]
    dsimp only
    omega

theorem between_empty (new : String) : between "" new = ⟨⟨0, 0⟩, wrap new.utf8ByteSize⟩ := by
  have lead := leadOf_le "" new
  have tail := tailOf_le "" new
  rw [String.utf8ByteSize_empty, Nat.zero_min] at lead tail
  have noLead : leadOf "" new = 0 := Nat.le_zero.mp lead
  have noTail : tailOf "" new = 0 := by omega
  change (⟨Span.ofBounds (wrap (leadOf "" new)) (wrap (0 - tailOf "" new)),
    wrap (new.utf8ByteSize - tailOf "" new - leadOf "" new)⟩ : Change) = _
  rw [noLead, noTail]
  rfl

theorem exists_of_size (size : Nat) : ∃ s : String, s.utf8ByteSize = size := by
  refine ⟨.ofList (.replicate size 'a'), ?_⟩
  rw [← String.utf8Len_toList, String.toList_ofList]
  induction size with
  | zero => rfl
  | succ size ih =>
    rw [List.replicate_succ, String.utf8Len_cons, ih]
    rfl

/-- A text with as many bytes as there are words is put into an empty one by the edit that changes nothing. -/
theorem insertion_of_all_words_is_unchanged :
    ∃ new : String, new.utf8ByteSize = offsetLimit ∧ "" ≠ new ∧ (between "" new).isUnchanged = true := by
  obtain ⟨new, size⟩ := exists_of_size offsetLimit
  refine ⟨new, size, ?_, ?_⟩
  · rintro rfl
    exact absurd size (by decide)
  · rw [between_empty, size]
    decide

/-- Letters that share their first byte are replaced as a whole. -/
example : between "aé" "aè" = ⟨⟨1, 2⟩, 2⟩ := by decide +kernel

end Change

end ScriptFrontend.Text
