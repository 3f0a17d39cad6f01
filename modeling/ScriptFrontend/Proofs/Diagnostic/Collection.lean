import Mathlib.Data.List.Count
import Mathlib.Data.List.Induction
import Mathlib.Data.List.Nodup
import Mathlib.Data.List.Perm.Basic
import ScriptFrontend.Diagnostic.Collection

/-!
# Starts of diagnostics

A collection counts how many of its diagnostics start at each offset. No edit of a collection makes these
counts wrong, so no diagnostic is recorded that starts where an earlier one does, also behind a reading that
was taken back. What was added and is cut off again leaves no trace in the counts.
-/

namespace ScriptFrontend.Diagnostic.Collection

variable {c : Collection} {start k : Nat} {starts : List (Nat × Nat)}

def offsets (c : Collection) : List Nat := c.items.toList.filterMap start?

/-! ## What is kept -/

theorem addUniqueStart_prefix (c : Collection) (d : Diagnostic) :
    c.items.toList <+: (c.addUniqueStart d).2.items.toList := by
  rw [addUniqueStart]
  split
  · split
    · exact List.prefix_refl _
    · simp [add]
  · simp [add]

theorem splitOff_items (c : Collection) (n : Nat) :
    (c.splitOff n).1 = c.items.toList.drop n ∧ (c.truncate n).items.toList = c.items.toList.take n := by
  constructor
  · simp [splitOff, List.take_of_length_le]
  · simp [truncate, splitOff]

/-- Cutting a collection back to the number it had gives back what it held. -/
theorem truncate_items {c d : Collection} (h : c.items.toList <+: d.items.toList) :
    (d.truncate c.size).items.toList = c.items.toList := by
  obtain ⟨more, same⟩ := h
  simp [truncate, splitOff, size, ← same, ← Array.length_toList]

theorem modifyLast_prefix {c d : Collection} (h : c.items.toList <+: d.items.toList)
    (more : d.size ≠ c.size) (f : Diagnostic → Diagnostic) :
    c.items.toList <+: (d.modifyLast f).2.items.toList := by
  have le : c.items.toList.length ≤ d.items.toList.length := h.length_le
  have inside : c.items.toList.length ≤ d.items.size - 1 := by
    simp only [Array.length_toList] at le ⊢
    unfold size at more
    omega
  rw [modifyLast]
  split
  · exact h
  · rw [Array.toList_modify, List.modify_eq_take_drop]
    refine List.IsPrefix.trans ?_ (List.prefix_append _ _)
    rw [List.prefix_iff_eq_take.mp h]
    exact List.take_prefix_take_left inside

/-! ## Counts -/

def countAt (k : Nat) : List (Nat × Nat) → Nat
  | [] => 0
  | (j, n) :: rest => (if j = k then n else 0) + countAt k rest

theorem any_countStart (start : Nat) (starts : List (Nat × Nat)) :
    (countStart start starts).any (·.1 == start) = true := by
  induction starts with
  | nil => simp [countStart]
  | cons p rest ih =>
    rw [countStart]
    split <;> simp_all

theorem hasStart_addUniqueStart {d : Diagnostic} (c : Collection) (at_start : d.start? = some start) :
    (c.addUniqueStart d).2.hasStart start = true := by
  rw [addUniqueStart, at_start]
  dsimp only
  split
  · assumption
  · rw [hasStart, add, at_start]
    exact any_countStart start c.starts

def IsPositive (starts : List (Nat × Nat)) : Prop := ∀ p ∈ starts, 0 < p.2

theorem IsPositive.cons_iff {p : Nat × Nat} : IsPositive (p :: starts) ↔ 0 < p.2 ∧ IsPositive starts :=
  List.forall_mem_cons

theorem countAt_countStart (start k : Nat) (starts : List (Nat × Nat)) :
    countAt k (countStart start starts) = countAt k starts + if start = k then 1 else 0 := by
  induction starts with
  | nil => simp [countStart, countAt]
  | cons p rest ih =>
    obtain ⟨j, n⟩ := p
    rw [countStart]
    split
    · simp only [countAt]
      split <;> split <;> omega
    · rw [countAt, countAt, ih]
      omega

theorem IsPositive.countStart (h : IsPositive starts) (start : Nat) :
    IsPositive (Collection.countStart start starts) := by
  induction starts with
  | nil => exact cons_iff.mpr ⟨Nat.one_pos, h⟩
  | cons p rest ih =>
    obtain ⟨first, others⟩ := cons_iff.mp h
    rw [Collection.countStart]
    split
    · exact cons_iff.mpr ⟨Nat.succ_pos _, others⟩
    · exact cons_iff.mpr ⟨first, ih others⟩

theorem IsPositive.forgetStart (h : IsPositive starts) (start : Nat) :
    IsPositive (Collection.forgetStart start starts) := by
  induction starts with
  | nil => exact h
  | cons p rest ih =>
    obtain ⟨first, others⟩ := cons_iff.mp h
    rw [Collection.forgetStart]
    split
    · split
      · exact others
      · exact cons_iff.mpr ⟨by dsimp only; omega, others⟩
    · exact cons_iff.mpr ⟨first, ih others⟩

def keys (starts : List (Nat × Nat)) : List Nat := starts.map Prod.fst

theorem mem_keys_countStart (start k : Nat) (starts : List (Nat × Nat)) :
    k ∈ keys (countStart start starts) ↔ k = start ∨ k ∈ keys starts := by
  induction starts with
  | nil => simp [countStart, keys]
  | cons p rest ih =>
    simp only [keys] at ih
    rw [countStart]
    split
    · rename_i here
      simp [keys, here]
    · simp only [keys, List.map_cons, List.mem_cons, ih]
      tauto

theorem nodup_keys_countStart (h : (keys starts).Nodup) (start : Nat) : (keys (countStart start starts)).Nodup := by
  induction starts with
  | nil => exact List.nodup_singleton _
  | cons p rest ih =>
    obtain ⟨j, n⟩ := p
    obtain ⟨other, distinct⟩ := List.nodup_cons.mp h
    rw [countStart]
    split
    · exact h
    · rename_i ne
      apply List.nodup_cons.mpr ⟨?_, ih distinct⟩
      intro mem
      rcases (mem_keys_countStart start j rest).mp mem with same | mem
      · exact ne same
      · exact other mem

theorem keys_forgetStart (start : Nat) (starts : List (Nat × Nat)) :
    (keys (forgetStart start starts)).Sublist (keys starts) := by
  induction starts with
  | nil => exact List.Sublist.refl _
  | cons p rest ih =>
    rw [forgetStart]
    split
    · split
      · exact List.sublist_cons_self _ _
      · exact List.Sublist.refl _
    · exact ih.cons_cons _

theorem keys_forgotten (removed : List Nat) (starts : List (Nat × Nat)) :
    (keys (removed.foldl (fun s start => forgetStart start s) starts)).Sublist (keys starts) := by
  induction removed generalizing starts with
  | nil => exact List.Sublist.refl _
  | cons start removed ih => exact (ih _).trans (keys_forgetStart start starts)

theorem countAt_of_not_mem (missing : k ∉ keys starts) : countAt k starts = 0 := by
  induction starts with
  | nil => rfl
  | cons p rest ih =>
    obtain ⟨other, missing⟩ := not_or.mp (mt List.mem_cons.mpr missing)
    rw [countAt, if_neg (Ne.symm other), ih missing]

/-- Where each offset is counted once, the table holds its count. -/
theorem lookup_starts (h : IsPositive starts) (distinct : (keys starts).Nodup) (k : Nat) :
    starts.lookup k = if countAt k starts = 0 then none else some (countAt k starts) := by
  induction starts with
  | nil => rfl
  | cons p rest ih =>
    obtain ⟨j, n⟩ := p
    obtain ⟨first, others⟩ := IsPositive.cons_iff.mp h
    obtain ⟨other, distinct⟩ := List.nodup_cons.mp distinct
    rw [List.lookup_cons, countAt]
    by_cases here : j = k
    · subst here
      rw [countAt_of_not_mem other, if_pos rfl, beq_self_eq_true, Nat.add_zero, if_neg (Nat.ne_of_gt first)]
    · have ne : (k == j) = false := beq_eq_false_iff_ne.mpr (Ne.symm here)
      rw [ne, if_neg here, Nat.zero_add]
      exact ih others distinct

theorem countAt_forgetStart (h : IsPositive starts) (counted : 0 < countAt start starts) (k : Nat) :
    countAt k (forgetStart start starts) + (if start = k then 1 else 0) = countAt k starts := by
  induction starts with
  | nil => cases counted
  | cons p rest ih =>
    obtain ⟨j, n⟩ := p
    obtain ⟨first, others⟩ := IsPositive.cons_iff.mp h
    dsimp only at first
    rw [forgetStart]
    split
    · rename_i same
      cases same
      split <;> simp only [countAt] <;> split <;> omega
    · rename_i other
      rw [countAt, if_neg other, Nat.zero_add] at counted
      rw [countAt, countAt, ← ih others counted]
      omega

theorem countAt_forgotten {removed : List Nat} (h : IsPositive starts)
    (counted : ∀ k, removed.count k ≤ countAt k starts) (k : Nat) :
    IsPositive (removed.foldl (fun s start => forgetStart start s) starts) ∧
      countAt k (removed.foldl (fun s start => forgetStart start s) starts) + removed.count k = countAt k starts := by
  induction removed generalizing starts with
  | nil => exact ⟨h, rfl⟩
  | cons start removed ih =>
    have here : 0 < countAt start starts := by
      have := counted start
      rw [List.count_cons_self] at this
      omega
    have step (k : Nat) := countAt_forgetStart h here k
    have others (k : Nat) : removed.count k ≤ countAt k (forgetStart start starts) := by
      have := counted k
      rw [List.count_cons] at this
      have := step k
      simp only [beq_iff_eq] at *
      omega
    obtain ⟨positive, same⟩ := ih (h.forgetStart start) others
    refine ⟨positive, ?_⟩
    have := step k
    rw [List.foldl_cons, List.count_cons, ← this, ← same]
    simp only [beq_iff_eq]
    omega

theorem hasStart_iff (h : IsPositive c.starts) : c.hasStart k = true ↔ 0 < countAt k c.starts := by
  rw [hasStart]
  generalize c.starts = starts at h
  induction starts with
  | nil => exact ⟨nofun, fun counted => nomatch counted⟩
  | cons p rest ih =>
    obtain ⟨j, n⟩ := p
    obtain ⟨first, others⟩ := IsPositive.cons_iff.mp h
    dsimp only at first
    rw [List.any_cons, Bool.or_eq_true, ih others, countAt, beq_iff_eq]
    split <;> omega

/-! ## Collections whose counts are right -/

/-- Each offset at which diagnostics start is counted once, with their number. -/
structure IsCounted (c : Collection) : Prop where
  positive : IsPositive c.starts
  counts : ∀ k, countAt k c.starts = c.offsets.count k
  keys_nodup : (keys c.starts).Nodup

theorem empty_isCounted : empty.IsCounted := ⟨List.forall_mem_nil _, fun _ => rfl, List.nodup_nil⟩

theorem offsets_add (c : Collection) (d : Diagnostic) : (c.add d).offsets = c.offsets ++ d.start?.toList := by
  rw [offsets, add, Array.toList_push, List.filterMap_append, offsets]
  cases start : d.start? <;> simp [start]

theorem starts_add (c : Collection) (d : Diagnostic) :
    (c.add d).starts = d.start?.elim c.starts fun start => countStart start c.starts := by
  rw [add]
  cases d.start? <;> rfl

theorem offsets_splitOff (c : Collection) (n : Nat) :
    c.offsets = (c.truncate n).offsets ++ (c.splitOff n).1.filterMap start? := by
  obtain ⟨removed, kept⟩ := splitOff_items c n
  rw [offsets, offsets, kept, removed, ← List.filterMap_append, List.take_append_drop]

namespace IsCounted

theorem hasStart_iff_mem (h : c.IsCounted) : c.hasStart k = true ↔ k ∈ c.offsets := by
  rw [hasStart_iff h.positive, h.counts, List.count_pos_iff]

theorem addUniqueStart_eq (h : c.IsCounted) (d : Diagnostic) :
    c.addUniqueStart d =
      if d.start? = none ∨ ∀ e ∈ c.items.toList, e.start? ≠ d.start? then (true, c.add d) else (false, c) := by
  rw [Collection.addUniqueStart]
  cases start : d.start? with
  | none => simp
  | some k =>
    have known := h.hasStart_iff_mem (k := k)
    rw [offsets, List.mem_filterMap] at known
    dsimp only
    by_cases found : c.hasStart k = true
    · obtain ⟨e, mem, same⟩ := known.mp found
      rw [if_pos found, if_neg]
      rintro (none | fresh)
      · cases none
      · exact fresh e mem same
    · rw [if_neg found, if_pos]
      right
      intro e mem same
      exact found (known.mpr ⟨e, mem, same⟩)

/-- A diagnostic is refused only in favour of an earlier one at its place. -/
theorem addUniqueStart_fst (h : c.IsCounted) (d : Diagnostic) :
    (c.addUniqueStart d).1 = false ↔ ∃ k, d.start? = some k ∧ ∃ e ∈ c.items.toList, e.start? = some k := by
  rw [h.addUniqueStart_eq]
  cases start : d.start? with
  | none => simp
  | some k =>
    by_cases fresh : ∀ e ∈ c.items.toList, e.start? ≠ some k
    · rw [if_pos (.inr fresh)]
      refine ⟨nofun, ?_⟩
      rintro ⟨j, same, e, mem, found⟩
      exact absurd (found.trans same.symm) (fresh e mem)
    · rw [if_neg (not_or.mpr ⟨nofun, fresh⟩)]
      simp only [not_forall, not_not] at fresh
      obtain ⟨e, mem, found⟩ := fresh
      exact ⟨fun _ => ⟨k, rfl, e, mem, found⟩, fun _ => rfl⟩

theorem add (h : c.IsCounted) (d : Diagnostic) : (c.add d).IsCounted := by
  have offsets_eq := offsets_add c d
  have starts_eq := starts_add c d
  cases start : d.start? with
  | none =>
    rw [start] at offsets_eq starts_eq
    rw [Option.toList_none, List.append_nil] at offsets_eq
    rw [Option.elim_none] at starts_eq
    constructor
    · exact starts_eq ▸ h.positive
    · rw [starts_eq, offsets_eq]
      exact h.counts
    · exact starts_eq ▸ h.keys_nodup
  | some start' =>
    rw [start] at offsets_eq starts_eq
    rw [Option.elim_some] at starts_eq
    constructor
    · exact starts_eq ▸ h.positive.countStart start'
    · intro k
      rw [starts_eq, offsets_eq, countAt_countStart, h.counts, List.count_append, Option.toList_some,
        List.count_singleton]
      simp only [beq_iff_eq]
    · exact starts_eq ▸ nodup_keys_countStart h.keys_nodup start'

theorem addUniqueStart (h : c.IsCounted) (d : Diagnostic) : (c.addUniqueStart d).2.IsCounted := by
  rw [Collection.addUniqueStart]
  split
  · split
    · exact h
    · exact h.add d
  · exact h.add d

/-- Taking diagnostics away again frees their offsets, and no others. -/
theorem truncate (h : c.IsCounted) (n : Nat) : (c.truncate n).IsCounted := by
  have whole := offsets_splitOff c n
  have counted (k : Nat) : ((c.splitOff n).1.filterMap start?).count k ≤ countAt k c.starts := by
    rw [h.counts, whole, List.count_append]
    exact Nat.le_add_left ..
  have forgotten := countAt_forgotten h.positive counted
  constructor
  · exact (forgotten 0).1
  · intro k
    have same := (forgotten k).2
    rw [h.counts, whole, List.count_append] at same
    exact Nat.add_right_cancel same
  · exact h.keys_nodup.sublist (keys_forgotten _ _)

theorem foldl_add (h : c.IsCounted) (ds : List Diagnostic) : (ds.foldl Collection.add c).IsCounted := by
  induction ds generalizing c with
  | nil => exact h
  | cons d ds ih => exact ih (h.add d)

theorem extend (h : c.IsCounted) (other : Collection) : (c.extend other).IsCounted := by
  rw [Collection.extend, ← Array.foldl_toList]
  exact h.foldl_add _

theorem sort (h : c.IsCounted) : c.sort.IsCounted := by
  have moved : c.sort.offsets.Perm c.offsets := by
    rw [offsets, offsets, Collection.sort, List.toList_toArray]
    exact (List.mergeSort_perm _ _).filterMap _
  refine ⟨h.positive, ?_, h.keys_nodup⟩
  intro k
  rw [moved.count_eq]
  exact h.counts k

end IsCounted

/-! ## Collections without two diagnostics at one place -/

/-- The counts are right, and no two diagnostics start at one offset. -/
structure IsDistinct (c : Collection) : Prop extends c.IsCounted where
  nodup : c.offsets.Nodup

theorem empty_isDistinct : empty.IsDistinct := ⟨empty_isCounted, List.nodup_nil⟩

namespace IsDistinct

theorem add (h : c.IsDistinct) {d : Diagnostic} (fresh : ∀ k ∈ d.start?, k ∉ c.offsets) : (c.add d).IsDistinct := by
  refine ⟨h.toIsCounted.add d, ?_⟩
  rw [offsets_add, List.nodup_append]
  refine ⟨h.nodup, ?_, ?_⟩
  · cases d.start? with
    | none => exact List.nodup_nil
    | some start => exact List.nodup_singleton _
  · rintro k mem k' mem' rfl
    exact fresh k (Option.mem_toList.mp mem') mem

theorem addUniqueStart (h : c.IsDistinct) (d : Diagnostic) : (c.addUniqueStart d).2.IsDistinct := by
  rw [Collection.addUniqueStart]
  split
  · rename_i start found
    split
    · exact h
    · rename_i missing
      refine h.add fun k same => ?_
      cases found.symm.trans same
      exact fun mem => missing (h.hasStart_iff_mem.mpr mem)
  · rename_i found
    exact h.add fun k same => nomatch found.symm.trans same

theorem truncate (h : c.IsDistinct) (n : Nat) : (c.truncate n).IsDistinct :=
  ⟨h.toIsCounted.truncate n, (List.nodup_append.mp (offsets_splitOff c n ▸ h.nodup)).1⟩

theorem offsets_modify {f : Diagnostic → Diagnostic} (same : ∀ d, (f d).start? = d.start?) (l : List Diagnostic)
    (i : Nat) : (l.modify i f).filterMap start? = l.filterMap start? := by
  induction l generalizing i with
  | nil => rw [List.modify_nil]
  | cons d l ih =>
    cases i with
    | zero => rw [List.modify_zero_cons, List.filterMap_cons, List.filterMap_cons, same]
    | succ i => rw [List.modify_succ_cons, List.filterMap_cons, List.filterMap_cons, ih]

theorem modifyLast (h : c.IsDistinct) {f : Diagnostic → Diagnostic} (same : ∀ d, (f d).start? = d.start?) :
    (c.modifyLast f).2.IsDistinct := by
  rw [Collection.modifyLast]
  split
  · exact h
  · have offsets_eq : ({ c with items := c.items.modify (c.items.size - 1) f } : Collection).offsets = c.offsets := by
      rw [offsets, Array.toList_modify, offsets_modify same, offsets]
    exact ⟨⟨h.positive, offsets_eq ▸ h.counts, h.keys_nodup⟩, offsets_eq ▸ h.nodup⟩

end IsDistinct

/-! ## Collections that grow -/

def places (c : Collection) : List (Option Nat) := c.items.toList.map start?

theorem mem_places : some k ∈ c.places ↔ k ∈ c.offsets := by simp [places, offsets]

theorem places_modifyLast {f : Diagnostic → Diagnostic} (same : ∀ d, (f d).start? = d.start?) :
    (c.modifyLast f).2.places = c.places := by
  rw [modifyLast]
  split
  · rfl
  · simp only [places, Array.toList_modify]
    refine List.ext_getElem (by simp) fun i _ _ => ?_
    simp only [List.getElem_map, List.getElem_modify]
    split <;> simp [same]

/-- Diagnostics were added behind those that were there, none where another one starts. -/
structure Grows (c d : Collection) : Prop where
  places : c.places <+: d.places
  distinct : c.IsDistinct → d.IsDistinct

namespace Grows

variable {d e : Collection}

theorem refl (c : Collection) : c.Grows c := ⟨List.prefix_refl _, id⟩

theorem trans (h : c.Grows d) (h' : d.Grows e) : c.Grows e :=
  ⟨h.places.trans h'.places, h'.distinct ∘ h.distinct⟩

theorem addUniqueStart (c : Collection) (d : Diagnostic) : c.Grows (c.addUniqueStart d).2 :=
  ⟨List.IsPrefix.map start? <| addUniqueStart_prefix c d, fun distinct => distinct.addUniqueStart d⟩

theorem modifyLast {f : Diagnostic → Diagnostic} (same : ∀ d, (f d).start? = d.start?) (c : Collection) :
    c.Grows (c.modifyLast f).2 :=
  ⟨(places_modifyLast same).symm ▸ List.prefix_refl _, fun distinct => distinct.modifyLast same⟩

end Grows

theorem places_truncate (c : Collection) (n : Nat) : (c.truncate n).places = c.places.take n := by
  simp [places, truncate, splitOff]

theorem prefix_truncate {places : List (Option Nat)} {n : Nat} (begins : places <+: c.places)
    (le : places.length ≤ n) : places <+: (c.truncate n).places := by
  rw [places_truncate, List.prefix_iff_eq_take.mp begins]
  exact List.take_prefix_take_left le

theorem places_splitOff (c : Collection) (n : Nat) :
    (c.truncate n).places ++ (c.splitOff n).1.map start? = c.places := by
  simp [places, truncate, splitOff, List.take_of_length_le]

theorem length_places (c : Collection) : c.places.length = c.size := by simp [places, size]

theorem Grows.truncate {d : Collection} (h : c.Grows d) : c.Grows (d.truncate c.size) :=
  ⟨prefix_truncate h.places (Nat.le_of_eq (length_places c)), fun distinct => (h.distinct distinct).truncate _⟩

/-! ## What was added is cut off again -/

theorem forgetStart_countStart (h : IsPositive starts) (start : Nat) :
    forgetStart start (countStart start starts) = starts := by
  induction starts with
  | nil => simp [countStart, forgetStart]
  | cons p rest ih =>
    obtain ⟨j, n⟩ := p
    obtain ⟨first, others⟩ := IsPositive.cons_iff.mp h
    dsimp only at first
    rw [countStart]
    split
    · rename_i here
      rw [forgetStart, if_pos here, if_neg (by omega), Nat.add_sub_cancel]
    · rename_i ne
      rw [forgetStart, if_neg ne, ih others]

theorem forgetStart_comm (starts : List (Nat × Nat)) (j k : Nat) :
    forgetStart j (forgetStart k starts) = forgetStart k (forgetStart j starts) := by
  induction starts with
  | nil => rfl
  | cons p rest ih =>
    obtain ⟨i, n⟩ := p
    by_cases same : j = k
    · rw [same]
    · have other : k ≠ j := Ne.symm same
      by_cases here : i = j
      · by_cases last : n ≤ 1 <;> simp [forgetStart, here, same, last]
      · by_cases there : i = k
        · by_cases last : n ≤ 1 <;> simp [forgetStart, there, other, last]
        · simp [forgetStart, here, there, ih]

/-- The order in which starts are forgotten does not matter, so the last one can be the first to go. -/
theorem forgotten_counted (h : IsPositive starts) (added : List Nat) :
    added.foldl (fun s start => forgetStart start s) (added.foldl (fun s start => countStart start s) starts) =
      starts := by
  have : RightCommutative fun (s : List (Nat × Nat)) start => forgetStart start s :=
    ⟨fun starts j k => forgetStart_comm starts k j⟩
  induction added using List.reverseRecOn with
  | nil => rfl
  | append_singleton added start ih =>
    have positive : IsPositive (added.foldl (fun s start => countStart start s) starts) := by
      clear ih
      induction added generalizing starts with
      | nil => exact h
      | cons first added ih => exact ih (h.countStart first)
    have last_first : (added ++ [start]).Perm (start :: added) := List.perm_append_singleton start added
    rw [last_first.foldl_eq, List.foldl_append, List.foldl_cons, List.foldl_cons, List.foldl_nil,
      forgetStart_countStart positive, ih]

theorem items_foldl_add (c : Collection) (ds : List Diagnostic) :
    (ds.foldl add c).items.toList = c.items.toList ++ ds := by
  induction ds generalizing c with
  | nil => simp
  | cons d ds ih => simp [ih, add]

theorem starts_foldl_add (c : Collection) (ds : List Diagnostic) :
    (ds.foldl add c).starts = (ds.filterMap start?).foldl (fun s start => countStart start s) c.starts := by
  induction ds generalizing c with
  | nil => rfl
  | cons d ds ih =>
    rw [List.foldl_cons, ih, starts_add]
    cases start : d.start? <;> simp [start]

theorem eq_of_items {c d : Collection} (items : c.items.toList = d.items.toList) (starts : c.starts = d.starts) :
    c = d := by
  cases c
  cases d
  simp_all [Array.toList_inj]

theorem truncate_foldl_add (h : c.IsCounted) (ds : List Diagnostic) {n : Nat} (le : c.size ≤ n) :
    (ds.foldl add c).truncate n = (ds.take (n - c.size)).foldl add c := by
  obtain ⟨removed, kept⟩ := splitOff_items (ds.foldl add c) n
  have length : c.items.toList.length = c.size := by simp [size]
  rw [items_foldl_add, List.drop_append, List.drop_eq_nil_of_le (by omega), List.nil_append, length] at removed
  rw [items_foldl_add, List.take_append, List.take_of_length_le (by omega), length] at kept
  apply eq_of_items
  · rw [kept, items_foldl_add]
  · have positive := (h.foldl_add (ds.take (n - c.size))).positive
    rw [starts_foldl_add] at positive
    have whole : ds.filterMap start? = (ds.take (n - c.size)).filterMap start? ++ (ds.drop (n - c.size)).filterMap start? := by
      rw [← List.filterMap_append, List.take_append_drop]
    change ((((ds.foldl add c).splitOff n).1.filterMap start?).foldl (fun s start => forgetStart start s)
      (ds.foldl add c).starts) = _
    rw [removed, starts_foldl_add, starts_foldl_add, whole, List.foldl_append, forgotten_counted positive]

/-! ## Edits -/

inductive Edit where
  | add (d : Diagnostic)
  | addUniqueStart (d : Diagnostic)
  | extend (other : Collection)
  | truncate (n : Nat)
  | splitOff (n : Nat)
  | sort
  | clear

def edit (c : Collection) : Edit → Collection
  | .add d => c.add d
  | .addUniqueStart d => (c.addUniqueStart d).2
  | .extend other => c.extend other
  | .truncate n => c.truncate n
  | .splitOff n => (c.splitOff n).2
  | .sort => c.sort
  | .clear => empty

def Edit.spares (n : Nat) : Edit → Bool
  | .truncate m | .splitOff m => n ≤ m
  | .sort => false
  | .clear => n == 0
  | .add _ | .addUniqueStart _ | .extend _ => true

theorem IsCounted.edit (h : c.IsCounted) (e : Edit) : (c.edit e).IsCounted := by
  cases e with
  | add d => exact h.add d
  | addUniqueStart d => exact h.addUniqueStart d
  | extend other => exact h.extend other
  | truncate n => exact h.truncate n
  | splitOff n => exact h.truncate n
  | sort => exact h.sort
  | clear => exact empty_isCounted

theorem IsCounted.edits (h : c.IsCounted) (es : List Edit) : (es.foldl Collection.edit c).IsCounted := by
  induction es generalizing c with
  | nil => exact h
  | cons e es ih => exact ih (h.edit e)

theorem IsCounted.eq_empty (h : c.IsCounted) (none : c.size = 0) : c = empty := by
  have items : c.items.toList = [] := by simpa [size] using none
  apply eq_of_items items
  cases starts : c.starts with
  | nil => rfl
  | cons p rest =>
    have positive := h.positive p (by simp [starts])
    have counted := h.counts p.1
    rw [starts, offsets, items, countAt, if_pos rfl] at counted
    simp only [List.filterMap_nil, List.count_nil] at counted
    omega

theorem IsCounted.edit_foldl_add (h : c.IsCounted) (ds : List Diagnostic) {e : Edit} (spares : e.spares c.size = true) :
    ∃ ds' : List Diagnostic, (ds.foldl Collection.add c).edit e = ds'.foldl Collection.add c := by
  cases e with
  | add d => exact ⟨ds ++ [d], by rw [List.foldl_append]; rfl⟩
  | addUniqueStart d =>
    rw [Collection.edit, Collection.addUniqueStart]
    have added : (ds.foldl Collection.add c).add d = (ds ++ [d]).foldl Collection.add c := by
      rw [List.foldl_append]
      rfl
    split
    · split
      · exact ⟨ds, rfl⟩
      · exact ⟨ds ++ [d], added⟩
    · exact ⟨ds ++ [d], added⟩
  | extend other =>
    refine ⟨ds ++ other.items.toList, ?_⟩
    rw [Collection.edit, Collection.extend, ← Array.foldl_toList, List.foldl_append]
  | truncate n => exact ⟨_, truncate_foldl_add h ds (of_decide_eq_true spares)⟩
  | splitOff n => exact ⟨_, truncate_foldl_add h ds (of_decide_eq_true spares)⟩
  | sort => cases spares
  | clear => exact ⟨[], (h.eq_empty (eq_of_beq spares)).symm⟩

theorem IsCounted.edits_foldl_add (h : c.IsCounted) (later : List Edit) (spared : ∀ e ∈ later, e.spares c.size = true)
    (ds : List Diagnostic) : ∃ ds' : List Diagnostic,
      later.foldl Collection.edit (ds.foldl Collection.add c) = ds'.foldl Collection.add c := by
  induction later generalizing ds with
  | nil => exact ⟨ds, rfl⟩
  | cons e later ih =>
    obtain ⟨first, rest⟩ := List.forall_mem_cons.mp spared
    obtain ⟨ds', same⟩ := h.edit_foldl_add ds first
    rw [List.foldl_cons, same]
    exact ih rest ds'

def countStarting (c : Collection) (k : Nat) : Nat := c.items.toList.countP (·.start? == some k)

theorem count_offsets (c : Collection) (k : Nat) : c.offsets.count k = c.countStarting k := by
  rw [offsets, countStarting]
  induction c.items.toList with
  | nil => rfl
  | cons d ds ih =>
    rw [List.filterMap_cons, List.countP_cons]
    cases start : d.start? with
    | none => simpa using ih
    | some j =>
      dsimp only
      rw [List.count_cons, ih]
      simp

/-- Whatever edits are made, the counts are right; and what is spared can be had back. -/
theorem counts_survive_edits (edits : List Edit) :
    let c := edits.foldl edit empty
    (∀ k, c.starts.lookup k = if c.countStarting k = 0 then none else some (c.countStarting k)) ∧
      (c.starts.map Prod.fst).Nodup ∧
      (∀ d, c.addUniqueStart d =
        if d.start? = none ∨ ∀ e ∈ c.items.toList, e.start? ≠ d.start? then (true, c.add d) else (false, c)) ∧
      ∀ later : List Edit, (∀ e ∈ later, e.spares c.size = true) → (later.foldl edit c).truncate c.size = c := by
  intro c
  have counted : c.IsCounted := empty_isCounted.edits edits
  refine ⟨?_, counted.keys_nodup, counted.addUniqueStart_eq, ?_⟩
  · intro k
    rw [lookup_starts counted.positive counted.keys_nodup, counted.counts, count_offsets]
  · intro later spared
    obtain ⟨ds, same⟩ := counted.edits_foldl_add later spared []
    rw [List.foldl_nil] at same
    rw [same, truncate_foldl_add counted ds (Nat.le_refl _), Nat.sub_self, List.take_zero, List.foldl_nil]

theorem counts_survive_edits_at_one_place :
    let d (i : Nat) : Diagnostic := located "a.ts" ⟨i, 1⟩ ⟨1005, .error, "';' expected."⟩ []
    let c := [Edit.add (d 4), .add (d 4)].foldl edit empty
    let later := [Edit.addUniqueStart (d 4), .add (d 0), .truncate 2, .addUniqueStart (d 7)]
    (∀ e ∈ later, e.spares c.size = true) ∧ c.starts.lookup 4 = some 2 ∧
      (later.foldl edit c).truncate c.size = c := by
  intro d c later
  obtain ⟨counts, -, -, restored⟩ := counts_survive_edits [Edit.add (d 4), .add (d 4)]
  have spared : ∀ e ∈ later, e.spares c.size = true := by
    simp [later, c, Edit.spares, edit, add, size, empty]
  exact ⟨spared, counts 4, restored later spared⟩

/-- Behind a cut, a collection can be of its old size without what it held then. -/
theorem truncate_misses_what_was_cut :
    let d (i : Nat) : Diagnostic := located "a.ts" ⟨i, 1⟩ ⟨1005, .error, "';' expected."⟩ []
    let c := [Edit.add (d 0), .add (d 1)].foldl edit empty
    let later := [Edit.truncate 1, .add (d 2)].foldl edit c
    later.size = c.size ∧ later.truncate c.size ≠ c := by
  intro d c later
  refine ⟨by decide, ?_⟩
  intro same
  exact absurd (congrArg (fun c => c.items.toList) same) (by decide)

end ScriptFrontend.Diagnostic.Collection
