import ScriptFrontend.Tree.Flags
import Mathlib.Data.Nat.Basic

/-!
# Sets of flags by their members

A set of flags is known by which of its numbers it holds. What the operations do is said number by
number, so that equations between sets are propositional.
-/

namespace ScriptFrontend.FlagSet

variable {owner : FlagOwner}

def holds (s : FlagSet owner) (i : Nat) : Bool := s.bits.toBitVec.getLsbD i

theorem ext_holds {s t : FlagSet owner} (h : ∀ i, s.holds i = t.holds i) : s = t := by
  obtain ⟨⟨s⟩⟩ := s
  obtain ⟨⟨t⟩⟩ := t
  congr 2
  exact BitVec.eq_of_getLsbD_eq fun i _ => h i

@[simp] theorem holds_or (s t : FlagSet owner) (i : Nat) :
    (s ||| t).holds i = (s.holds i || t.holds i) := by
  change (s.bits ||| t.bits).toBitVec.getLsbD i = _
  simp [holds]

@[simp] theorem holds_and (s t : FlagSet owner) (i : Nat) :
    (s &&& t).holds i = (s.holds i && t.holds i) := by
  change (s.bits &&& t.bits).toBitVec.getLsbD i = _
  simp [holds]

@[simp] theorem holds_without (s t : FlagSet owner) (i : Nat) :
    (s.without t).holds i = (s.holds i && !t.holds i) := by
  change (s.bits &&& ~~~t.bits).toBitVec.getLsbD i = _
  rcases Nat.lt_or_ge i 32 with h | h <;> simp [holds, h]

@[simp] theorem holds_empty (i : Nat) : (empty : FlagSet owner).holds i = false := by
  simp [empty, holds]

theorem flag_bits (n : UInt32) (h : n < 32) :
    (1 <<< n : UInt32).toBitVec = BitVec.twoPow 32 n.toNat := by
  have inside : n.toNat < 32 := by simpa using UInt32.lt_iff_toNat_lt.mp h
  simp [BitVec.twoPow, Nat.mod_eq_of_lt inside]

@[simp] theorem holds_flag (n : UInt32) (i : Nat) (h : n < 32) :
    (flag n : FlagSet owner).holds i = decide (i = n.toNat) := by
  have inside : n.toNat < 32 := by simpa using UInt32.lt_iff_toNat_lt.mp h
  rw [flag, holds, flag_bits n h, BitVec.getLsbD_twoPow]
  simp [inside, eq_comm]

theorem has_iff (s t : FlagSet owner) :
    s.has t = true ↔ ∀ i, t.holds i = true → s.holds i = true := by
  rw [has, beq_iff_eq]
  constructor
  · intro h i hi
    rw [← h, holds_and, Bool.and_eq_true] at hi
    exact hi.1
  · intro h
    apply ext_holds
    intro i
    rw [holds_and]
    cases hi : t.holds i with
    | false => simp
    | true => simp [h i hi]

theorem has_flag (s : FlagSet owner) (n : UInt32) (h : n < 32) :
    s.has (flag n) = s.holds n.toNat := by
  rw [Bool.eq_iff_iff, has_iff]
  simp [h]

@[simp] theorem holds_set (s t : FlagSet owner) (on : Bool) (i : Nat) :
    (s.set t on).holds i = if t.holds i then on else s.holds i := by
  cases on <;> simp only [set, if_true, Bool.false_eq_true, if_false, holds_without, holds_or] <;>
    cases s.holds i <;> cases t.holds i <;> rfl

theorem meets_iff (s t : FlagSet owner) :
    s.meets t = true ↔ ∃ i, s.holds i = true ∧ t.holds i = true := by
  have empty_iff : (s &&& t).isEmpty = true ↔ s &&& t = empty := by
    rw [isEmpty, beq_iff_eq]
    exact ⟨fun h => congrArg FlagSet.mk h, congrArg FlagSet.bits⟩
  rw [meets, Bool.not_eq_true', ← Bool.not_eq_true, empty_iff]
  constructor
  · intro h
    by_contra none
    refine h (ext_holds fun i => ?_)
    rw [holds_and, holds_empty]
    by_contra both
    rw [Bool.not_eq_false, Bool.and_eq_true] at both
    exact none ⟨i, both⟩
  · rintro ⟨i, hs, ht⟩ h
    have := congrArg (·.holds i) h
    simp [hs, ht] at this

theorem meets_flag (s : FlagSet owner) (n : UInt32) (h : n < 32) :
    s.meets (flag n) = s.holds n.toNat := by
  rw [Bool.eq_iff_iff, meets_iff]
  simp [h]

theorem has_flag_eq_meets (s : FlagSet owner) (n : UInt32) (h : n < 32) :
    s.has (flag n) = s.meets (flag n) := by
  rw [has_flag s n h, meets_flag s n h]

theorem has_or_flag (s t : FlagSet owner) (n : UInt32) (h : n < 32) :
    (s ||| t).has (flag n) = (s.has (flag n) || t.has (flag n)) := by
  rw [has_flag _ _ h, has_flag _ _ h, has_flag _ _ h, holds_or]

end ScriptFrontend.FlagSet
