import ScriptFrontend.Grammar.Access
import ScriptFrontend.Proofs.Tree.Contains

/-!
# Nested ranges

In a tree that was read every node ends where it starts or behind, and its parts stand in its range: a
node in that of the node around it, the elements of a list in that of the list. Documentation stands
before the node that it hangs on and is no part of it.
-/

namespace ScriptFrontend

/-- The slot stands between two offsets, and the elements of a list stand in its range. -/
def Slot.IsBetween (lo hi : Nat) : Slot → Prop
  | .absent => True
  | .node n => lo ≤ n.pos ∧ n.pos ≤ n.stop ∧ n.stop ≤ hi
  | .list head items => (lo ≤ head.pos ∧ head.pos ≤ head.stop ∧ head.stop ≤ hi) ∧
      ∀ n ∈ items, head.pos ≤ n.pos ∧ n.pos ≤ n.stop ∧ n.stop ≤ head.stop

namespace Node

/-- The parts of the node stand in its range, and its opening tag before the children behind it. -/
structure Nests (n : Node) : Prop where
  slots : ∀ slot ∈ n.slots, slot.IsBetween n.pos n.stop
  opens : n.form.Opens

/-- The parts of all nodes in a tree stand in their ranges. -/
def IsNested (root : Node) : Prop := ∀ n, root.Contains n → n.Nests

/-- The node and all that is in it stand between two offsets. -/
structure LiesIn (lo hi : Nat) (n : Node) : Prop where
  low : lo ≤ n.pos
  forward : n.pos ≤ n.stop
  high : n.stop ≤ hi
  nested : n.IsNested

variable {root n m : Node}

theorem mem_children_of_slot {slot : Slot} (mem : slot ∈ n.slots) (inside : m ∈ slot.nodes) : m ∈ n.children :=
  List.mem_flatMap.mpr ⟨slot, mem, inside⟩

theorem Contains.trans {k : Node} (h : n.Contains m) (h' : m.Contains k) : n.Contains k :=
  Relation.ReflTransGen.trans h h'

theorem Contains.cases (h : n.Contains m) : n = m ∨ ∃ child ∈ n.children, child.Contains m := by
  rcases Relation.ReflTransGen.cases_head h with same | ⟨child, mem, below⟩
  · exact .inl same
  · exact .inr ⟨child, mem, below⟩

theorem IsNested.inside (h : root.IsNested) (contains : root.Contains n) : n.IsNested :=
  fun _ below => h _ (contains.trans below)

theorem IsNested.child (h : n.IsNested) (mem : m ∈ n.children) : m.IsNested := h.inside (.ofChild mem (.refl m))

theorem IsNested.intro (nests : n.Nests) (children : ∀ m ∈ n.children, m.IsNested) : n.IsNested := by
  intro m contains
  rcases contains.cases with rfl | ⟨child, mem, below⟩
  · exact nests
  · exact children child mem m below

theorem Nests.child (h : n.Nests) (mem : m ∈ n.children) : n.pos ≤ m.pos ∧ m.pos ≤ m.stop ∧ m.stop ≤ n.stop := by
  obtain ⟨slot, held, inside⟩ := List.mem_flatMap.mp mem
  have between := h.slots slot held
  cases slot with
  | absent => cases inside
  | node n =>
    cases List.mem_singleton.mp inside
    exact between
  | list head items =>
    obtain ⟨⟨start, _, stop⟩, elements⟩ := between
    obtain ⟨low, forward, high⟩ := elements m inside
    exact ⟨Nat.le_trans start low, forward, Nat.le_trans high stop⟩

theorem LiesIn.widen {lo lo' hi hi' : Nat} (h : n.LiesIn lo hi) (low : lo' ≤ lo) (high : hi ≤ hi') :
    n.LiesIn lo' hi' :=
  ⟨Nat.le_trans low h.low, h.forward, Nat.le_trans h.high high, h.nested⟩

theorem LiesIn.child {lo hi : Nat} (h : n.LiesIn lo hi) (mem : m ∈ n.children) : m.LiesIn n.pos n.stop :=
  have ⟨low, forward, high⟩ := h.nested.inside (.refl n) n (.refl n) |>.child mem
  ⟨low, forward, high, h.nested.child mem⟩

theorem LiesIn.inside {lo hi : Nat} (h : n.LiesIn lo hi) (contains : n.Contains m) : m.LiesIn n.pos n.stop := by
  induction contains with
  | refl => exact ⟨Nat.le_refl _, h.forward, Nat.le_refl _, h.nested⟩
  | tail _ mem ih => exact (ih.child mem).widen ih.low ih.high

end Node

def Slot.LiesIn (lo hi : Nat) : Slot → Prop
  | .absent => True
  | .node n => n.LiesIn lo hi
  | .list head items => (lo ≤ head.pos ∧ head.pos ≤ head.stop ∧ head.stop ≤ hi) ∧
      ∀ n ∈ items, n.LiesIn head.pos head.stop

theorem Slot.LiesIn.widen {lo lo' hi hi' : Nat} {slot : Slot} (h : slot.LiesIn lo hi) (low : lo' ≤ lo)
    (high : hi ≤ hi') : slot.LiesIn lo' hi' := by
  cases slot with
  | absent => trivial
  | node n => exact Node.LiesIn.widen h low high
  | list head items =>
    obtain ⟨⟨start, forward, stop⟩, inside⟩ := h
    exact ⟨⟨Nat.le_trans low start, forward, Nat.le_trans stop high⟩, inside⟩

theorem Slot.LiesIn.isBetween {lo hi : Nat} {slot : Slot} (h : slot.LiesIn lo hi) : slot.IsBetween lo hi := by
  cases slot with
  | absent => trivial
  | node n => exact ⟨h.low, h.forward, h.high⟩
  | list head items => exact ⟨h.1, fun n mem => ⟨(h.2 n mem).low, (h.2 n mem).forward, (h.2 n mem).high⟩⟩

theorem Slot.LiesIn.isNested {lo hi : Nat} {slot : Slot} {n : Node} (h : slot.LiesIn lo hi)
    (mem : n ∈ slot.nodes) :
    n.IsNested := by
  cases slot with
  | absent => cases mem
  | node m => exact List.mem_singleton.mp mem ▸ Node.LiesIn.nested h
  | list head items => exact (h.2 n mem).nested

namespace Node

variable {root n m : Node}

theorem LiesIn.slot {lo hi : Nat} {slot : Slot} (h : n.LiesIn lo hi) (mem : slot ∈ n.slots) :
    slot.LiesIn n.pos n.stop := by
  have between := (h.nested n (.refl n)).slots slot mem
  cases slot with
  | absent => trivial
  | node m => exact h.child (mem_children_of_slot mem (List.mem_singleton_self m))
  | list head items =>
    refine ⟨between.1, fun m held => ?_⟩
    obtain ⟨low, forward, high⟩ := between.2 m held
    exact ⟨low, forward, high, h.nested.child (mem_children_of_slot mem held)⟩

/-! ## Trees of the same layout -/

/-- Nodes of the second tree stand where a map puts those of the first one. If the map keeps the order of
offsets in the first tree, both are nested. -/
def Maps (φ : Nat → Nat) (n m : Node) : Prop :=
  m.pos = φ n.pos ∧ m.stop = φ n.stop ∧
    ((∀ a b, n.pos ≤ a → a ≤ b → b ≤ n.stop → φ a ≤ φ b) → n.IsNested → m.IsNested)

end Node

def Slot.Maps (φ : Nat → Nat) : Slot → Slot → Prop
  | .absent, slot => slot = .absent
  | .node n, slot => ∃ m, slot = .node m ∧ n.Maps φ m
  | .list head items, slot => ∃ head' items', slot = .list head' items' ∧ head'.pos = φ head.pos ∧
      head'.stop = φ head.stop ∧ List.Forall₂ (Node.Maps φ) items items'

namespace Node

/-- The nodes differ at most in their flags, and in those of nodes in them. -/
abbrev Alike (n m : Node) : Prop := n.Maps (fun p => p) m

theorem Alike.refl (n : Node) : n.Alike n := ⟨rfl, rfl, fun _ nested => nested⟩

end Node

abbrev Slot.Alike (slot slot' : Slot) : Prop := slot.Maps (fun p => p) slot'

theorem Slot.Alike.refl (slot : Slot) : slot.Alike slot := by
  cases slot with
  | absent => rfl
  | node n => exact ⟨n, rfl, Node.Alike.refl n⟩
  | list head items => exact ⟨head, items, rfl, rfl, rfl, List.forall₂_same.mpr fun n _ => Node.Alike.refl n⟩

theorem Slot.alike_refl (slots : List Slot) : List.Forall₂ Slot.Alike slots slots :=
  List.forall₂_same.mpr fun slot _ => Slot.Alike.refl slot

namespace Node

variable {root n m : Node}

theorem form_of_maps {φ : Nat → Nat} (shape : m.shape = n.shape)
    (slots : List.Forall₂ (Slot.Maps φ) n.slots m.slots)
    {tag closing : Node} {l : NodeList} (is : m.form = .jsxElement tag l closing) :
    ∃ tag' l' closing', n.form = .jsxElement tag' l' closing' ∧ tag.pos = φ tag'.pos ∧ tag.stop = φ tag'.stop ∧
      l.pos = φ l'.pos ∧ l.stop = φ l'.stop := by
  obtain ⟨element, layout⟩ := form_eq_jsxElement.mp is
  have element := shape.symm.trans element
  rw [layout] at slots
  obtain ⟨first, rest, first', behind, same⟩ := List.forall₂_cons_right_iff.mp slots
  obtain ⟨second, rest', second', behind', rfl⟩ := List.forall₂_cons_right_iff.mp behind
  obtain ⟨third, rest'', third', behind'', rfl⟩ := List.forall₂_cons_right_iff.mp behind'
  cases behind''
  have maps_node {slot : Slot} {k : Node} (h : slot.Maps φ (.node k)) : ∃ k', slot = .node k' ∧
      k.pos = φ k'.pos ∧ k.stop = φ k'.stop := by
    cases slot with
    | absent => cases h
    | list head items =>
      obtain ⟨_, _, same, _⟩ := h
      cases same
    | node k' =>
      obtain ⟨_, same, pos, stop, _⟩ := h
      cases same
      exact ⟨k', rfl, pos, stop⟩
  obtain ⟨tag', rfl, pos, stop⟩ := maps_node first'
  obtain ⟨closing', rfl, -⟩ := maps_node third'
  cases second with
  | absent => cases second'
  | node k =>
    obtain ⟨_, same, _⟩ := second'
    cases same
  | list head items =>
    obtain ⟨_, _, same', pos', stop', -⟩ := second'
    cases same'
    exact ⟨tag', ⟨head, items⟩, closing', form_eq_jsxElement.mpr ⟨element, same⟩, pos, stop, pos', stop'⟩

theorem exists_of_forall₂ {α β : Type} {r : α → β → Prop} {l : List α} {l' : List β} (h : List.Forall₂ r l l')
    {b : β} (mem : b ∈ l') : ∃ a ∈ l, r a b := by
  induction h with
  | nil => cases mem
  | cons here _ ih =>
    rcases List.mem_cons.mp mem with rfl | later
    · exact ⟨_, List.mem_cons_self .., here⟩
    · obtain ⟨a, inside, holds⟩ := ih later
      exact ⟨a, List.mem_cons_of_mem _ inside, holds⟩

theorem Maps.of_slots {φ : Nat → Nat} {n m : Node} (shape : m.shape = n.shape) (pos : m.pos = φ n.pos)
    (stop : m.stop = φ n.stop) (slots : List.Forall₂ (Slot.Maps φ) n.slots m.slots) : n.Maps φ m := by
  refine ⟨pos, stop, fun ordered nested => ?_⟩
  have nests := nested n (.refl n)
  have below {lo hi a b : Nat} (low : n.pos ≤ lo) (high : hi ≤ n.stop) (h : lo ≤ a ∧ a ≤ b ∧ b ≤ hi) :
      φ lo ≤ φ a ∧ φ a ≤ φ b ∧ φ b ≤ φ hi :=
    ⟨ordered lo a low h.1 (by omega), ordered a b (by omega) h.2.1 (by omega), ordered b hi (by omega) h.2.2 high⟩
  refine .intro ⟨fun slot mem => ?_, fun tag l closing element => ?_⟩ fun child mem => ?_
  · obtain ⟨old, inside, maps⟩ := exists_of_forall₂ slots mem
    have between := nests.slots old inside
    rw [pos, stop]
    cases old with
    | absent => exact maps ▸ trivial
    | node k =>
      obtain ⟨k', rfl, pos', stop', -⟩ := maps
      change _ ≤ k'.pos ∧ k'.pos ≤ k'.stop ∧ k'.stop ≤ _
      rw [pos', stop']
      exact below (Nat.le_refl _) (Nat.le_refl _) between
    | list head items =>
      obtain ⟨head', items', rfl, pos', stop', elements⟩ := maps
      obtain ⟨range, between⟩ := between
      refine ⟨?_, fun k' held => ?_⟩
      · rw [pos', stop']
        exact below (Nat.le_refl _) (Nat.le_refl _) range
      · obtain ⟨k, held, start, finish, -⟩ := exists_of_forall₂ elements held
        rw [pos', stop', start, finish]
        exact below range.1 range.2.2 (between k held)
  · obtain ⟨tag', l', closing', is, start, finish, start', finish'⟩ := form_of_maps shape slots element
    have layout := (form_eq_jsxElement.mp is).2
    have opens := nests.opens tag' l' closing' is
    have tags := nests.slots (.node tag') (layout ▸ List.mem_cons_self ..)
    have list := nests.slots (.list l'.head l'.items) (layout ▸ List.mem_cons_of_mem _ (List.mem_cons_self ..))
    rw [start, finish, start', finish']
    exact ⟨ordered _ _ tags.1 opens.1 (Nat.le_trans list.1.2.1 list.1.2.2),
      ordered _ _ (Nat.le_trans tags.1 tags.2.1) opens.2 list.1.2.2⟩
  · obtain ⟨slot, held, inside⟩ := List.mem_flatMap.mp mem
    obtain ⟨old, before, maps⟩ := exists_of_forall₂ slots held
    have between := nests.slots old before
    cases old with
    | absent =>
      cases maps
      cases inside
    | node k =>
      obtain ⟨k', rfl, -, -, keeps⟩ := maps
      cases List.mem_singleton.mp inside
      have range : n.pos ≤ k.pos ∧ k.stop ≤ n.stop := ⟨between.1, between.2.2⟩
      exact keeps (fun a b low le high => ordered a b (by omega) le (by omega))
        (nested.child (mem_children_of_slot before (List.mem_singleton_self k)))
    | list head items =>
      obtain ⟨head', items', rfl, -, -, elements⟩ := maps
      obtain ⟨k, held, -, -, keeps⟩ := exists_of_forall₂ elements inside
      obtain ⟨range, between⟩ := between
      have := between k held
      exact keeps (fun a b low le high => ordered a b (by omega) le (by omega))
        (nested.child (mem_children_of_slot before held))

theorem Maps.of_mk {φ : Nat → Nat} {h h' : Head} {s : Shape} {slots slots' : List Slot} {docs docs' : List Node}
    {origin origin' : Option Node} (pos : h'.pos = φ h.pos) (stop : h'.stop = φ h.stop)
    (maps : List.Forall₂ (Slot.Maps φ) slots slots') : (mk h s slots docs origin).Maps φ
    (mk h' s slots' docs' origin') :=
  of_slots rfl pos stop maps

theorem Alike.isNested (h : n.Alike m) (nested : n.IsNested) : m.IsNested := h.2.2 (fun _ _ _ le _ => le) nested

theorem Alike.liesIn {lo hi : Nat} (h : n.Alike m) (lies : n.LiesIn lo hi) : m.LiesIn lo hi where
  low := h.1 ▸ lies.low
  forward := h.1 ▸ h.2.1 ▸ lies.forward
  high := h.2.1 ▸ lies.high
  nested := h.isNested lies.nested

theorem Alike.of_same (shape : m.shape = n.shape) (pos : m.pos = n.pos) (stop : m.stop = n.stop)
    (slots : m.slots = n.slots) : n.Alike m :=
  .of_slots shape pos stop (slots ▸ Slot.alike_refl _)

theorem alike_addFlags (n : Node) (flags : NodeFlags) : n.Alike (n.addFlags flags) := by
  cases n
  exact .of_same rfl rfl rfl rfl

theorem alike_withDocs (n : Node) (docs : List Node) : n.Alike (n.withDocs docs) := by
  cases n
  exact .of_same rfl rfl rfl rfl

mutual

theorem alike_joinChain : ∀ n : Node, n.Alike n.joinChain.1
  | .mk h s slots docs origin => by
    rw [joinChain]
    dsimp only
    split
    · exact .refl _
    split
    · exact .refl _
    split
    · exact Maps.of_slots rfl rfl rfl (alike_joinChainSlots slots)
    · exact .refl _

theorem alike_joinChainSlots : ∀ slots : List Slot, List.Forall₂ Slot.Alike slots (joinChainSlots slots).1
  | .node n :: rest => by
    rw [joinChainSlots]
    exact .cons ⟨_, rfl, alike_joinChain n⟩ (Slot.alike_refl rest)
  | [] => .nil
  | .absent :: rest => Slot.alike_refl _
  | .list head items :: rest => Slot.alike_refl _

end

mutual

theorem alike_checkErrors : ∀ n : Node, n.Alike n.checkErrors.2
  | .mk h s slots docs origin => by
    rw [checkErrors]
    dsimp only
    split
    · exact .refl _
    split
    · exact .of_same rfl rfl rfl rfl
    · exact Maps.of_slots rfl rfl rfl (alike_checkSlots slots)

theorem alike_checkSlots : ∀ slots : List Slot, List.Forall₂ Slot.Alike slots (checkSlots slots).2
  | [] => .nil
  | slot :: rest => by
    rw [checkSlots]
    exact .cons (alike_checkSlot slot) (alike_checkSlots rest)

theorem alike_checkSlot : ∀ slot : Slot, slot.Alike (checkSlot slot).2
  | .absent => rfl
  | .node n => by
    rw [checkSlot]
    exact ⟨_, rfl, alike_checkErrors n⟩
  | .list head items => by
    rw [checkSlot]
    exact ⟨_, _, rfl, rfl, rfl, alike_checkItems items⟩

theorem alike_checkItems : ∀ items : List Node, List.Forall₂ Alike items (checkItems items).2
  | [] => .nil
  | n :: rest => by
    rw [checkItems]
    dsimp only
    split
    · exact .cons (alike_checkErrors n) (List.forall₂_same.mpr fun m _ => .refl m)
    · exact .cons (alike_checkErrors n) (alike_checkItems rest)

end

end Node

end ScriptFrontend
