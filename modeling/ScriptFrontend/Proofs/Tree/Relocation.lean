import ScriptFrontend.Proofs.Tree.Nested
import ScriptFrontend.Tree.Relocation

/-!
# Trees of edited texts

Where offsets are no larger than words hold, a relocation moves those of an old text to the new one and
keeps their order. So a nested tree is nested after it, and as long as the new text. The node that is
nearest to an offset starts no later, and therefore an edit reaches back to its start or before it.
-/

namespace ScriptFrontend

open Text (offsetLimit wrap wrap_of_lt)

namespace Relocation

/-- The edit lies in texts of two sizes, and what is behind it has one size in both. -/
structure Fits (r : Relocation) (oldSize newSize : Nat) : Prop where
  forward : r.start ≤ r.oldStop
  forward' : r.start ≤ r.newStop
  inside : r.oldStop ≤ oldSize
  tail : oldSize + r.newStop = newSize + r.oldStop
  short : newSize < offsetLimit

variable {r : Relocation} {oldSize newSize p q : Nat}

theorem Fits.shift_eq (fits : r.Fits oldSize newSize) (behind : r.oldStop ≤ p) (within : p ≤ oldSize) :
    r.shift p = p - r.oldStop + r.newStop := by
  have := fits.tail
  have := fits.short
  have sum : p + r.newStop + offsetLimit - r.oldStop = p - r.oldStop + r.newStop + offsetLimit := by omega
  rw [shift, sum, wrap, Nat.add_mod_right]
  exact Nat.mod_eq_of_lt (by omega)

theorem snap_of_behind (behind : r.oldStop ≤ p) : r.snap p = r.shift p := if_pos behind

theorem Fits.snap_of_before (fits : r.Fits oldSize newSize) (before : p < r.start) : r.snap p = p := by
  have := fits.forward
  have := fits.forward'
  rw [snap, if_neg (by omega)]
  omega

theorem Fits.snap_mono (fits : r.Fits oldSize newSize) (le : p ≤ q) (within : q ≤ oldSize) :
    r.snap p ≤ r.snap q := by
  rw [snap, snap]
  split
  · rw [if_pos (by omega), fits.shift_eq (by omega) (by omega), fits.shift_eq (by omega) within]
    omega
  · split
    · rw [fits.shift_eq (by omega) within]
      omega
    · omega

theorem Fits.snap_size (fits : r.Fits oldSize newSize) : r.snap oldSize = newSize := by
  have := fits.tail
  have := fits.inside
  rw [snap_of_behind fits.inside, fits.shift_eq fits.inside (Nat.le_refl _)]
  omega

end Relocation

namespace Node

variable {root n m : Node} {r : Relocation} {oldSize newSize position : Nat}

/-! ## Moved trees -/

theorem Maps.congr {φ ψ : Nat → Nat} (h : n.Maps φ m) (forward : n.pos ≤ n.stop)
    (same : ∀ p, n.pos ≤ p → p ≤ n.stop → φ p = ψ p) : n.Maps ψ m := by
  obtain ⟨pos, stop, keeps⟩ := h
  refine ⟨pos.trans (same _ (Nat.le_refl _) forward), stop.trans (same _ forward (Nat.le_refl _)),
    fun ordered => keeps fun a b low le high => ?_⟩
  rw [same a low (Nat.le_trans le high), same b (Nat.le_trans low le) high]
  exact ordered a b low le high

theorem maps_items_congr {φ ψ : Nat → Nat} {lo hi : Nat} {items items' : List Node}
    (h : List.Forall₂ (Maps φ) items items') (inside : ∀ n ∈ items, n.LiesIn lo hi)
    (same : ∀ p, lo ≤ p → p ≤ hi → φ p = ψ p) : List.Forall₂ (Maps ψ) items items' := by
  induction h with
  | nil => exact .nil
  | cons here _ ih =>
    have lies := inside _ (List.mem_cons_self ..)
    refine .cons (here.congr lies.forward fun p low high => ?_)
      (ih fun n mem => inside n (List.mem_cons_of_mem _ mem))
    exact same p (Nat.le_trans lies.low low) (Nat.le_trans high lies.high)

mutual

theorem maps_moved : ∀ n : Node, n.Maps r.shift (n.moved r)
  | .mk h s slots docs origin => by
    rw [moved]
    exact Maps.of_mk rfl rfl (maps_movedSlots slots)

theorem maps_movedSlots : ∀ slots : List Slot, List.Forall₂ (Slot.Maps r.shift) slots (movedSlots r slots)
  | [] => .nil
  | slot :: rest => by
    rw [movedSlots]
    exact .cons (maps_movedSlot slot) (maps_movedSlots rest)

theorem maps_movedSlot : ∀ slot : Slot, slot.Maps r.shift (movedSlot r slot)
  | .absent => rfl
  | .node n => by
    rw [movedSlot]
    exact ⟨_, rfl, maps_moved n⟩
  | .list head items => by
    rw [movedSlot]
    exact ⟨_, _, rfl, rfl, rfl, maps_movedItems items⟩

theorem maps_movedItems : ∀ items : List Node, List.Forall₂ (Maps r.shift) items (movedItems r items)
  | [] => .nil
  | n :: rest => by
    rw [movedItems]
    exact .cons (maps_moved n) (maps_movedItems rest)

end

mutual

/-- A node goes where the relocation puts its offsets, be it moved, touched or left where it is. -/
theorem maps_relocated (fits : r.Fits oldSize newSize) :
    ∀ {n : Node} {lo : Nat}, n.LiesIn lo oldSize → n.Maps r.snap (n.relocated r)
  | .mk h s slots docs origin, lo, lies => by
    rw [relocated]
    split
    · rename_i behind
      exact (maps_moved _).congr lies.forward fun p low _ =>
        (Relocation.snap_of_behind (Nat.le_trans (Nat.le_of_lt behind) low)).symm
    split
    · rename_i before
      exact (Alike.refl _).congr lies.forward fun p _ high =>
        (fits.snap_of_before (Nat.lt_of_le_of_lt high before)).symm
    · have inside (slot : Slot) (mem : slot ∈ slots) : slot.LiesIn h.pos oldSize :=
        (lies.slot mem).widen (Nat.le_refl _) lies.high
      exact Maps.of_mk rfl rfl (maps_relocatedSlots fits inside)

theorem maps_relocatedSlots (fits : r.Fits oldSize newSize) : ∀ {slots : List Slot} {lo : Nat},
    (∀ slot ∈ slots, slot.LiesIn lo oldSize) → List.Forall₂ (Slot.Maps r.snap) slots (relocatedSlots r slots)
  | [], _, _ => .nil
  | slot :: rest, _, lies => by
    rw [relocatedSlots]
    exact .cons (maps_relocatedSlot fits (lies slot (List.mem_cons_self ..)))
      (maps_relocatedSlots fits fun slot mem => lies slot (List.mem_cons_of_mem _ mem))

theorem maps_relocatedSlot (fits : r.Fits oldSize newSize) : ∀ {slot : Slot} {lo : Nat},
    slot.LiesIn lo oldSize → slot.Maps r.snap (relocatedSlot r slot)
  | .absent, _, _ => rfl
  | .node n, _, lies => by
    rw [relocatedSlot]
    exact ⟨_, rfl, maps_relocated fits (n := n) lies⟩
  | .list head items, _, lies => by
    obtain ⟨⟨-, forward, high⟩, inside⟩ := lies
    rw [relocatedSlot]
    split
    · rename_i behind
      have same (p : Nat) (low : head.pos ≤ p) : r.shift p = r.snap p :=
        (Relocation.snap_of_behind (Nat.le_trans (Nat.le_of_lt behind) low)).symm
      rw [movedSlot]
      exact ⟨_, _, rfl, same _ (Nat.le_refl _), same _ forward,
        maps_items_congr (maps_movedItems items) inside fun p low _ => same p low⟩
    split
    · rename_i before
      have same (p : Nat) (high : p ≤ head.stop) : p = r.snap p :=
        (fits.snap_of_before (Nat.lt_of_le_of_lt high before)).symm
      exact ⟨_, _, rfl, same _ forward, same _ (Nat.le_refl _),
        maps_items_congr (List.forall₂_same.mpr fun n _ => Alike.refl n) inside fun p _ high => same p high⟩
    · exact ⟨_, _, rfl, rfl, rfl, maps_relocatedItems fits fun n mem => (inside n mem).widen (Nat.le_refl _) high⟩

theorem maps_relocatedItems (fits : r.Fits oldSize newSize) : ∀ {items : List Node} {lo : Nat},
    (∀ n ∈ items, n.LiesIn lo oldSize) → List.Forall₂ (Maps r.snap) items (relocatedItems r items)
  | [], _, _ => .nil
  | n :: rest, _, lies => by
    rw [relocatedItems]
    exact .cons (maps_relocated fits (lies n (List.mem_cons_self ..)))
      (maps_relocatedItems fits fun n mem => lies n (List.mem_cons_of_mem _ mem))

end

theorem LiesIn.relocated (fits : r.Fits oldSize newSize) (lies : n.LiesIn 0 oldSize) :
    (n.relocated r).LiesIn 0 newSize := by
  obtain ⟨pos, stop, keeps⟩ := maps_relocated fits lies
  refine ⟨Nat.zero_le _, ?_, ?_, keeps (fun a b _ le high => ?_) lies.nested⟩
  · rw [pos, stop]
    exact fits.snap_mono lies.forward lies.high
  · rw [stop]
    exact Nat.le_trans (fits.snap_mono lies.high (Nat.le_refl _)) (Nat.le_of_eq fits.snap_size)
  · exact fits.snap_mono le (Nat.le_trans high lies.high)

/-! ## Faithful trees -/

/-- The edit touched the node, or the node moved with the text behind the edit. -/
def IsReached (r : Relocation) (n : Node) : Prop := n.head.touched = true ∨ r.newStop < n.pos

/-- A reached node, with the range of the node around it: the root, or a part or the documentation of a
reached node. -/
inductive ReachedIn (r : Relocation) (root : Node) : Option Text.Range → Node → Prop
  | root (is : root.IsReached r) : ReachedIn r root none root
  | part {parent : Option Text.Range} {n m : Node} (around : ReachedIn r root parent n)
      (mem : m ∈ n.children ∨ m ∈ n.docs) (is : m.IsReached r) : ReachedIn r root (some n.range) m

/-- A touched node stays in the node around it, a moved one reads what it read, and their parts do not
overlap. -/
structure IsSound (r : Relocation) (oldText newText : String) (parent : Option Text.Range) (n : Node) : Prop where
  within : n.head.touched = true → n.isWithin parent = true
  reads : n.head.touched = false → n.readsSame r oldText newText = true
  ordered : n.isOrdered = true

variable {oldText newText : String} {parent : Option Text.Range}

theorem faithfulItems_iff {range : Text.Range} {items : List Node} :
    faithfulItems r oldText newText range items = true ↔
      ∀ m ∈ items, m.isFaithful r oldText newText (some range) = true := by
  induction items with
  | nil => exact ⟨fun _ => nofun, fun _ => rfl⟩
  | cons n rest ih => rw [faithfulItems, Bool.and_eq_true_iff, ih, List.forall_mem_cons]

theorem faithfulSlots_iff {range : Text.Range} {slots : List Slot} :
    faithfulSlots r oldText newText range slots = true ↔
      ∀ m ∈ slots.flatMap Slot.nodes, m.isFaithful r oldText newText (some range) = true := by
  induction slots with
  | nil => simp [faithfulSlots]
  | cons slot rest ih =>
    rw [faithfulSlots, Bool.and_eq_true_iff, ih, List.flatMap_cons, List.forall_mem_append]
    refine and_congr_left' ?_
    cases slot with
    | absent => simp [faithfulSlot, Slot.nodes]
    | node n => rw [faithfulSlot, Slot.nodes, List.forall_mem_singleton]
    | list head items => rw [faithfulSlot, faithfulItems_iff, Slot.nodes]

/-- One node of a faithful tree: where the edit reached it, it is sound and its parts are faithful. -/
theorem isFaithful_iff_parts : n.isFaithful r oldText newText parent = true ↔ (n.IsReached r →
    n.IsSound r oldText newText parent ∧ ∀ m, m ∈ n.children ∨ m ∈ n.docs →
      m.isFaithful r oldText newText (some n.range) = true) := by
  cases n with
  | mk h s slots docs origin =>
    have inside : (∀ m, m ∈ (mk h s slots docs origin).children ∨ m ∈ docs →
        m.isFaithful r oldText newText (some ⟨h.pos, h.stop⟩) = true) ↔
        faithfulSlots r oldText newText ⟨h.pos, h.stop⟩ slots = true ∧
          faithfulItems r oldText newText ⟨h.pos, h.stop⟩ docs = true := by
      rw [faithfulSlots_iff, faithfulItems_iff]
      exact ⟨fun all => ⟨fun m mem => all m (.inl mem), fun m mem => all m (.inr mem)⟩,
        fun ⟨parts, docs⟩ m mem => mem.elim (parts m) (docs m)⟩
    have reached : (mk h s slots docs origin).IsReached r ↔ h.touched = true ∨ r.newStop < h.pos := Iff.rfl
    have sound : (mk h s slots docs origin).IsSound r oldText newText parent ↔
        (h.touched = true → (mk h s slots docs origin).isWithin parent = true) ∧
        (h.touched = false → (mk h s slots docs origin).readsSame r oldText newText = true) ∧
          (mk h s slots docs origin).isOrdered = true :=
      ⟨fun ⟨within, reads, ordered⟩ => ⟨within, reads, ordered⟩,
        fun ⟨within, reads, ordered⟩ => ⟨within, reads, ordered⟩⟩
    rw [isFaithful, reached, sound]
    change _ ↔ (_ → _ ∧ ∀ m, m ∈ (mk h s slots docs origin).children ∨ m ∈ docs →
        m.isFaithful r oldText newText (some ⟨h.pos, h.stop⟩) = true)
    rw [inside]
    generalize (mk h s slots docs origin).isWithin parent = within
    generalize (mk h s slots docs origin).readsSame r oldText newText = reads
    generalize (mk h s slots docs origin).isOrdered = ordered
    generalize faithfulSlots r oldText newText ⟨h.pos, h.stop⟩ slots = parts
    generalize faithfulItems r oldText newText ⟨h.pos, h.stop⟩ docs = docs
    cases h.touched with
    | true => simp [and_assoc, and_comm, and_left_comm]
    | false =>
      rcases Nat.lt_or_ge r.newStop h.pos with behind | before
      · simp [behind, Nat.not_le.mpr behind, and_assoc, and_comm, and_left_comm]
      · simp [before, Nat.not_lt.mpr before]

/-- Every node of a faithful tree that the edit reached is sound. -/
theorem ReachedIn.isSound (h : ReachedIn r root parent n)
    (faithful : root.isFaithful r oldText newText none = true) :
    n.IsSound r oldText newText parent := by
  have both : n.IsReached r ∧ n.isFaithful r oldText newText parent = true := by
    induction h with
    | root is => exact ⟨is, faithful⟩
    | part _ mem is ih => exact ⟨is, (isFaithful_iff_parts.mp ih.2 ih.1).2 _ mem⟩
  exact (isFaithful_iff_parts.mp both.2 both.1).1

/-! ## The nearest node -/

mutual

theorem contains_lastBelow : ∀ n : Node, ∀ m ∈ n.lastBelow?, n.Contains m
  | .mk h s slots docs origin => fun m found => by
    obtain ⟨k, child, contains⟩ := contains_lastInSlots slots m found
    exact .ofChild child contains

theorem contains_lastInSlots : ∀ slots : List Slot, ∀ m ∈ lastInSlots? slots,
    ∃ k ∈ slots.flatMap Slot.nodes, k.Contains m
  | [] => nofun
  | slot :: rest => fun m found => by
    rw [lastInSlots?, Option.mem_def, Option.orElse_eq_orElse, Option.orElse_eq_or,
      Option.or_eq_some_iff] at found
    rw [List.flatMap_cons]
    rcases found with later | ⟨-, here⟩
    · obtain ⟨k, inside, contains⟩ := contains_lastInSlots rest m later
      exact ⟨k, List.mem_append_right _ inside, contains⟩
    · obtain ⟨k, inside, contains⟩ := contains_lastInSlot slot m here
      exact ⟨k, List.mem_append_left _ inside, contains⟩

theorem contains_lastInSlot : ∀ slot : Slot, ∀ m ∈ lastInSlot? slot, ∃ k ∈ slot.nodes, k.Contains m
  | .absent => nofun
  | .node n => fun m found => by
    rw [lastInSlot?] at found
    split at found
    · cases found
    · cases found
      exact ⟨n, List.mem_singleton_self n, contains_lastOf n⟩
  | .list _ items => fun m found => contains_lastInItems items m found

theorem contains_lastInItems : ∀ items : List Node, ∀ m ∈ lastInItems? items, ∃ k ∈ items, k.Contains m
  | [] => nofun
  | n :: rest => fun m found => by
    rw [lastInItems?, Option.mem_def, Option.orElse_eq_orElse, Option.orElse_eq_or,
      Option.or_eq_some_iff] at found
    rcases found with later | ⟨-, here⟩
    · obtain ⟨k, inside, contains⟩ := contains_lastInItems rest m later
      exact ⟨k, List.mem_cons_of_mem _ inside, contains⟩
    · split at here
      · cases here
      · cases here
        exact ⟨n, List.mem_cons_self .., contains_lastOf n⟩

theorem contains_lastOf (n : Node) : n.Contains ((lastBelow? n).getD n) := by
  cases found : lastBelow? n with
  | none => exact .refl n
  | some m => exact contains_lastBelow n m found

end

/-- What a search for an offset found is in the tree, and no later than the offset. -/
structure NearestSearch.Finds (root : Node) (position : Nat) (s : NearestSearch) : Prop where
  best : root.Contains s.best
  starts : s.best.pos ≤ position
  before : ∀ n ∈ s.before, root.Contains n ∧ n.stop ≤ position

variable {s : NearestSearch}

namespace NearestSearch

theorem Finds.ended (h : s.Finds root position) : { s with isOver := true }.Finds root position :=
  ⟨h.best, h.starts, h.before⟩

theorem Finds.better (h : s.Finds root position) (contains : root.Contains n) (starts : n.pos ≤ position) :
    (if n.pos ≥ s.best.pos then { s with best := n } else s).Finds root position := by
  split
  · exact ⟨contains, starts, h.before⟩
  · exact h

end NearestSearch

mutual

theorem searchSlots_finds : ∀ (slots : List Slot) {s : NearestSearch}, s.Finds root position →
    (∀ m ∈ slots.flatMap Slot.nodes, root.Contains m) → (searchSlots position s slots).Finds root position
  | [], _ => fun finds _ => finds
  | slot :: rest, _ => fun finds inside => by
    rw [List.flatMap_cons] at inside
    have here := searchSlot_finds slot finds fun m mem => inside m (List.mem_append_left _ mem)
    rw [searchSlots]
    split
    · exact here
    · exact searchSlots_finds rest here fun m mem => inside m (List.mem_append_right _ mem)

theorem searchSlot_finds : ∀ (slot : Slot) {s : NearestSearch}, s.Finds root position →
    (∀ m ∈ slot.nodes, root.Contains m) → (searchSlot position s slot).Finds root position
  | .absent, _ => fun finds _ => finds
  | .node n, _ => fun finds inside => searchNode_finds n finds (inside n (List.mem_singleton_self n))
  | .list _ items, _ => fun finds inside => searchItems_finds items finds inside

theorem searchItems_finds : ∀ (items : List Node) {s : NearestSearch}, s.Finds root position →
    (∀ m ∈ items, root.Contains m) → (searchItems position s items).Finds root position
  | [], _ => fun finds _ => finds
  | n :: rest, _ => fun finds inside => by
    have here := searchNode_finds n finds (inside n (List.mem_cons_self ..))
    rw [searchItems]
    split
    · exact here
    · exact searchItems_finds rest here fun m mem => inside m (List.mem_cons_of_mem _ mem)

theorem searchNode_finds : ∀ (n : Node) {s : NearestSearch}, s.Finds root position → root.Contains n →
    (searchNode position s n).Finds root position
  | .mk h shape slots docs origin, s => fun finds contains => by
    rw [searchNode]
    dsimp only
    split
    · exact finds
    split
    · exact finds.ended
    · rename_i starts
      have better := finds.better contains (Nat.not_lt.mp starts)
      split
      · have inside (m : Node) (mem : m ∈ slots.flatMap Slot.nodes) : root.Contains m :=
          contains.trans (.ofChild mem (.refl m))
        exact (searchSlots_finds slots better inside).ended
      · rename_i ends
        refine ⟨better.best, better.starts, fun m same => ?_⟩
        cases same
        exact ⟨contains, Nat.not_lt.mp ends⟩

end

theorem LiesIn.nearestTo_pos_le {lo hi : Nat} (lies : root.LiesIn lo hi) (starts : root.pos ≤ position) :
    (root.nearestTo position).pos ≤ position := by
  have begins : ({ best := root } : NearestSearch).Finds root position := ⟨.refl root, starts, nofun⟩
  have finds : (searchNearest position { best := root } root).Finds root position := by
    cases root with
    | mk h shape slots docs origin =>
      exact (searchSlots_finds slots begins fun m mem => .ofChild mem (.refl m)).ended
  rw [nearestTo]
  generalize searchNearest position { best := root } root = s at finds
  cases ends : s.before with
  | none => exact finds.starts
  | some n =>
    obtain ⟨contains, before⟩ := finds.before n ends
    have last := (lies.inside contains).inside (contains_lastOf n)
    dsimp only [Option.map_some]
    split
    · exact Nat.le_trans last.forward (Nat.le_trans last.high before)
    · exact finds.starts

end Node

end ScriptFrontend
