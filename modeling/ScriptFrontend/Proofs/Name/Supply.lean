import Mathlib.Data.List.Nodup
import Mathlib.Data.List.Perm.Subperm
import ScriptFrontend.Name.Supply
import Std.Data.String.ToNat

/-!
# Names that a supply gives out

More different candidates than names that are taken leave one that is free, so a supply never runs out.
What it gives out one after the other are different names, none of which was taken before.
-/

namespace ScriptFrontend.NameSupply

variable {s t u : NameSupply} {name : String} {names others : List String}

theorem isFree_iff : s.isFree name = true ↔ name ∉ s.used := by
  simp [isFree]

theorem not_isFree_iff : s.isFree name = false ↔ name ∈ s.used := by
  simp [isFree]

theorem mem_take {other : String} : name ∈ (s.take other).used ↔ other = name ∨ name ∈ s.used := by
  simp [take]

theorem mem_ofNames : name ∈ (ofNames names).used ↔ name ∈ names := by
  simp [ofNames]

theorem exists_free (s : NameSupply) (names : List String) (distinct : names.Nodup)
    (more : s.used.size < names.length) :
    ∃ name ∈ names, s.isFree name = true := by
  by_contra none
  push Not at none
  have taken : names ⊆ s.used.toList := fun name mem =>
    Std.HashSet.mem_toList.mpr (not_not.mp (mt isFree_iff.mpr (none name mem)))
  have fewer := (distinct.subperm taken).length_le
  rw [Std.HashSet.length_toList] at fewer
  omega

/-! ## Names with a base -/

theorem numbered_injective (base : String) :
    Function.Injective fun i : Nat => stem base ++ toString (i + 1) := by
  intro i j same
  have numbers : (i + 1).repr = (j + 1).repr := (String.append_right_inj _).mp same
  have := Nat.repr_injective numbers
  omega

/-- A name with a base is the base with the first number that makes it a free one. -/
theorem unique_eq (s : NameSupply) (base : String) :
    ∃ i : Nat, s.unique base = (stem base ++ toString (i + 1), s.take (stem base ++ toString (i + 1))) ∧
      s.isFree (stem base ++ toString (i + 1)) = true ∧ ∀ j < i, s.isFree (stem base ++ toString (j + 1)) = false := by
  let candidate (i : Nat) := stem base ++ toString (i + 1)
  obtain ⟨name, mem, free⟩ := exists_free s ((List.range (s.used.size + 1)).map candidate)
    (List.nodup_range.map (numbered_injective base)) (by simp)
  obtain ⟨i, inside, rfl⟩ := List.mem_map.mp mem
  cases found : (List.range (s.used.size + 1)).find? fun i => s.isFree (candidate i) with
  | none => exact absurd free (List.find?_eq_none.mp found i inside)
  | some j =>
    obtain ⟨first, -, before⟩ := List.find?_range_eq_some.mp found
    simp only [Bool.not_eq_true'] at before
    refine ⟨j, ?_, first, before⟩
    rw [unique]
    simp only [candidate] at found
    simp only [found, Option.getD_some]

/-! ## Temporary names -/

def letter (n : Nat) : Char := Char.ofNat ('a'.toNat + n)

theorem toNat_letter : ∀ n < 26, (letter n).toNat = 97 + n := by decide

theorem isDigit_letter : ∀ n < 26, (letter n).isDigit = false := by decide

theorem temporaryName?_isSome {n : Nat} (other : n ∉ [8, 13]) : (temporaryName? n).isSome = true := by
  have letters : ∀ n < 26, n ∉ [8, 13] → (temporaryName? n).isSome = true := by decide
  by_cases small : n < 26
  · exact letters n small other
  · rw [temporaryName?, if_neg small]
    rfl

theorem temporaryName?_eq_some {n : Nat} (named : temporaryName? n = some name) :
    (n < 26 ∧ name = String.ofList ['_', letter n]) ∨ (26 ≤ n ∧ name = "_" ++ toString (n - 26)) := by
  rw [temporaryName?] at named
  split at named
  · dsimp only at named
    split at named
    · cases named
    · exact .inl ⟨‹_›, (Option.some.inj named).symm⟩
  · exact .inr ⟨Nat.le_of_not_lt ‹_›, (Option.some.inj named).symm⟩

theorem letter_ne_number {m : Nat} (small : m < 26) (n : Nat) :
    String.ofList ['_', letter m] ≠ "_" ++ toString n := by
  intro same
  have lists := congrArg String.toList same
  rw [String.toList_ofList, String.toList_append, Nat.toString_eq_repr, Nat.toList_repr] at lists
  have digits : [letter m] = Nat.toDigits 10 n := (List.cons.inj lists).2
  have digit : (letter m).isDigit = true :=
    Nat.isDigit_of_mem_toDigits (by decide) (Nat.le_refl 10) (digits ▸ List.mem_singleton_self _)
  exact Bool.noConfusion (digit.symm.trans (isDigit_letter m small))

theorem temporaryName?_injective {m n : Nat} (first : temporaryName? m = some name)
    (second : temporaryName? n = some name) : m = n := by
  rcases temporaryName?_eq_some first with ⟨small, rfl⟩ | ⟨large, rfl⟩ <;>
    rcases temporaryName?_eq_some second with ⟨small', same⟩ | ⟨large', same⟩
  · have letters : ['_', letter m] = ['_', letter n] := String.ofList_injective same
    have values := congrArg Char.toNat (List.cons.inj (List.cons.inj letters).2).1
    rw [toNat_letter m small, toNat_letter n small'] at values
    omega
  · exact absurd same (letter_ne_number small _)
  · exact absurd same.symm (letter_ne_number small' _)
  · have numbers : (m - 26).repr = (n - 26).repr := (String.append_right_inj _).mp same
    have := Nat.repr_injective numbers
    omega

/-- Some more numbers in a row than names are taken have a name that is free. -/
theorem exists_temporary (s : NameSupply) (start : Nat) :
    ∃ n ∈ List.range' start (s.used.size + 3), ∃ name, temporaryName? n = some name ∧
      s.isFree name = true := by
  let numbers := List.range' start (s.used.size + 3)
  have distinct : numbers.Nodup := List.nodup_range'
  have omitted : (numbers.filter fun n => ¬(temporaryName? n).isSome).length ≤ 2 := by
    have within : (numbers.filter fun n => ¬(temporaryName? n).isSome) ⊆ [8, 13] := fun n mem => by
      by_contra other
      exact of_decide_eq_true (List.mem_filter.mp mem).2 (temporaryName?_isSome other)
    exact ((distinct.filter _).subperm within).length_le
  have all : numbers.length = s.used.size + 3 := List.length_range'
  rw [List.length_eq_countP_add_countP (fun n => (temporaryName? n).isSome), List.countP_eq_length_filter
    (p := fun n => decide ¬_)] at all
  obtain ⟨name, mem, free⟩ := exists_free s (numbers.filterMap temporaryName?)
    (distinct.filterMap fun m n name first second => temporaryName?_injective first second)
    (by rw [List.length_filterMap_eq_countP]; omega)
  obtain ⟨n, inside, named⟩ := List.mem_filterMap.mp mem
  exact ⟨n, inside, name, named, free⟩

theorem temporary_eq (s : NameSupply) :
    ∃ n name, s.temporary = (name, { s.take name with nextTemporary := n + 1 }) ∧
      temporaryName? n = some name ∧ s.isFree name = true ∧ s.nextTemporary ≤ n ∧
      ∀ m other, s.nextTemporary ≤ m → m < n → temporaryName? m = some other → s.isFree other = false := by
  cases found : (List.range' s.nextTemporary (s.used.size + 3)).findSome? fun n =>
      ((temporaryName? n).filter s.isFree).map fun name => (n, name) with
  | none =>
    obtain ⟨n, inside, name, named, free⟩ := exists_temporary s s.nextTemporary
    have missed := List.findSome?_eq_none_iff.mp found n inside
    simp [named, free] at missed
  | some pair =>
    obtain ⟨before, n, behind, numbers, taken, missed⟩ := List.findSome?_eq_some_iff.mp found
    obtain ⟨name, named, rfl⟩ := Option.map_eq_some_iff.mp taken
    obtain ⟨named, free⟩ := Option.filter_eq_some_iff.mp named
    obtain ⟨k, -, rfl, rest⟩ := List.range'_eq_append_iff.mp numbers
    have here : n = s.nextTemporary + k := by
      have := congrArg List.head? rest
      rw [List.head?_cons, List.head?_range'] at this
      split at this
      · cases this
      · have := Option.some.inj this
        omega
    refine ⟨n, name, ?_, named, free, by omega, ?_⟩
    · rw [temporary]
      simp only [found]
    · intro m other start earlier named
      have passed := missed m (List.mem_range'_1.mpr (by omega))
      simpa [named] using passed

/-! ## Rows of names -/

/-- The name has the form of one that a supply gives out: a number at the end, or a letter behind an
underscore. -/
def IsGiven (name : String) : Prop :=
  (∃ base, ∃ n : Nat, name = base ++ toString n) ∨ ∃ n, name = String.ofList ['_', letter n]

/-- The supply gives out some names, one after the other, and becomes another one. -/
inductive Gives : NameSupply → List String → NameSupply → Prop
  | done (s : NameSupply) : Gives s [] s
  | unique {s t : NameSupply} {names : List String} (base : String) (rest : Gives (s.unique base).2 names t) :
      Gives s ((s.unique base).1 :: names) t
  | temporary {s t : NameSupply} {names : List String} (rest : Gives s.temporary.2 names t) :
      Gives s (s.temporary.1 :: names) t

namespace Gives

theorem append (first : Gives s names t) (rest : Gives t others u) : Gives s (names ++ others) u := by
  induction first with
  | done => exact rest
  | unique base _ ih => exact .unique base (ih rest)
  | temporary _ ih => exact .temporary (ih rest)

theorem of_unique (s : NameSupply) (base : String) : Gives s [(s.unique base).1] (s.unique base).2 :=
  .unique base (.done _)

theorem of_temporary (s : NameSupply) : Gives s [s.temporary.1] s.temporary.2 := .temporary (.done _)

/-- What one step gives out is free and taken then, and has the form of such a name. -/
structure Step (s : NameSupply) (given : String × NameSupply) : Prop where
  fresh : given.1 ∉ s.used
  mem_used : ∀ name, name ∈ given.2.used ↔ name = given.1 ∨ name ∈ s.used
  isGiven : IsGiven given.1

theorem step_unique (s : NameSupply) (base : String) : Step s (s.unique base) := by
  obtain ⟨i, given, free, -⟩ := unique_eq s base
  rw [given]
  exact ⟨isFree_iff.mp free, fun name => mem_take.trans (or_congr eq_comm Iff.rfl), .inl ⟨_, _, rfl⟩⟩

theorem step_temporary (s : NameSupply) : Step s s.temporary := by
  obtain ⟨n, name, given, named, free, -⟩ := temporary_eq s
  rw [given]
  refine ⟨isFree_iff.mp free, fun name => mem_take.trans (or_congr eq_comm Iff.rfl), ?_⟩
  rcases temporaryName?_eq_some named with ⟨-, rfl⟩ | ⟨-, rfl⟩
  · exact .inr ⟨n, rfl⟩
  · exact .inl ⟨_, _, rfl⟩

structure Row (s : NameSupply) (names : List String) (t : NameSupply) : Prop where
  distinct : names.Nodup
  fresh : ∀ name ∈ names, name ∉ s.used
  mem_used : ∀ name, name ∈ t.used ↔ name ∈ names ∨ name ∈ s.used
  isGiven : ∀ name ∈ names, IsGiven name

theorem Step.row {given : String × NameSupply} (step : Step s given) (rest : Row given.2 names t) :
    Row s (given.1 :: names) t where
  distinct := List.nodup_cons.mpr
    ⟨fun mem => rest.fresh _ mem ((step.mem_used _).mpr (.inl rfl)), rest.distinct⟩
  fresh := List.forall_mem_cons.mpr
    ⟨step.fresh, fun name mem old => rest.fresh name mem ((step.mem_used name).mpr (.inr old))⟩
  mem_used name := by
    rw [rest.mem_used, step.mem_used, List.mem_cons]
    tauto
  isGiven := List.forall_mem_cons.mpr ⟨step.isGiven, rest.isGiven⟩

/-- The names that are given out one after the other are different, and none was taken before. -/
theorem row (gives : Gives s names t) : Row s names t := by
  induction gives with
  | done s => exact ⟨List.nodup_nil, List.forall_mem_nil _, fun name => by simp, List.forall_mem_nil _⟩
  | unique base _ ih => exact (step_unique _ base).row ih
  | temporary _ ih => exact (step_temporary _).row ih

end Gives

end ScriptFrontend.NameSupply
