import ScriptFrontend.Grammar.Access
import ScriptFrontend.Proofs.Making.DocTag
import ScriptFrontend.Proofs.Tree.Names

/-!
# Ledgers

The mark of a node holds its number, and of the rest what an edit of flags or of documentation leaves
as it is. A ledger holds the marks of the nodes that were made so far, each under its number. A reading
makes nodes with new numbers, and enters them; the nodes that it gives back are all in the ledger then,
but for blank ones. So ledgers are the stages of a course.
-/

namespace ScriptFrontend

structure Mark where
  id : Nat
  kind : Kind
  shape : Shape
  parts : List (Kind × Shape)
  isParsed : Bool

/-- The mark of a node that was read. Nodes of a shape that is for one kind have that kind. Children come
before the node that they are in, so the first node has only blank ones. -/
structure Mark.Fits (m : Mark) : Prop where
  parsed : m.isParsed = true
  kind : ∀ k ∈ m.shape.kind?, m.kind = k
  first : m.id = 0 → ∀ part ∈ m.parts, part = (Kind.unknown, Shape.token)

namespace Node

def mark (n : Node) : Mark :=
  ⟨n.id, n.kind, n.shape, n.children.map fun child => (child.kind, child.shape), n.origin.isNone⟩

def marks (n : Node) : List Mark := n.preorderWithDocs.map mark

/-- The mark of the node that stands for one that could not be read at all. -/
def blank : Mark := mark default

theorem blank_fits : blank.Fits :=
  ⟨rfl, fun _ mem => absurd mem (Option.not_mem_none _), fun _ => List.forall_mem_nil _⟩

def marksOf (ns : List Node) : List Mark := ns.flatMap marks

theorem marks_mk (h : Head) (s : Shape) (slots : List Slot) (docs : List Node) (origin : Option Node) :
    (Node.mk h s slots docs origin).marks =
      (Node.mk h s slots docs origin).mark :: (marksOf (slots.flatMap Slot.nodes) ++ marksOf docs) := by
  rw [marks, preorderWithDocs, preorderWithDocsSlots_eq, preorderWithDocsItems_eq, List.map_cons,
    List.map_append, List.map_flatMap, List.map_flatMap]
  rfl

theorem marks_ofForm (h : Head) (form : Form) :
    (Node.ofForm h form).marks =
      (Node.ofForm h form).mark :: marksOf (form.slots.flatMap Slot.nodes) := by
  rw [ofForm, marks_mk]
  simp [marksOf]

theorem marks_subset_of_mem_children {n child : Node} (mem : child ∈ n.children) : child.marks ⊆ n.marks := by
  cases n with
  | mk head shape slots docs origin =>
    rw [marks_mk]
    exact fun m inside =>
      List.mem_cons_of_mem _ (List.mem_append_left _ (List.mem_flatMap.mpr ⟨child, mem, inside⟩))

theorem marks_addFlags (n : Node) (flags : NodeFlags) : (n.addFlags flags).marks = n.marks := by
  cases n
  rw [addFlags, withFlags, withHead]
  simp only [marks_mk]
  rfl

theorem marks_withDocs (n : Node) (docs : List Node) : (n.withDocs docs).marks ⊆ n.marks ++ marksOf docs := by
  cases n with
  | mk h s slots old origin =>
    rw [withDocs, marks_mk, marks_mk, List.cons_append, List.append_assoc]
    exact List.cons_subset_cons _ (List.append_subset.mpr ⟨List.subset_append_left _ _,
      fun _ mem => List.mem_append_right _ (List.mem_append_right _ mem)⟩)

theorem part_joinChain (n : Node) : (n.joinChain.1.kind, n.joinChain.1.shape) = (n.kind, n.shape) := by
  cases n
  rw [joinChain]
  dsimp only
  repeat' split
  all_goals rfl

mutual

theorem marks_joinChain : ∀ n : Node, n.joinChain.1.marks = n.marks
  | .mk h s slots docs origin => by
    have parts : ((joinChainSlots slots).1.flatMap Slot.nodes).map (fun child => (child.kind, child.shape)) =
        (slots.flatMap Slot.nodes).map fun child => (child.kind, child.shape) := by
      rw [joinChainSlots.eq_def]
      split
      · rw [List.flatMap_cons, List.flatMap_cons, List.map_append, List.map_append]
        exact congrArg (· :: _) (part_joinChain _)
      · rfl
    rw [joinChain]
    dsimp only
    repeat' split
    · rfl
    · rfl
    · simp only [marks_mk, marksOf_joinChainSlots slots, mark, children, Node.slots, parts]
      rfl
    · rfl

theorem marksOf_joinChainSlots : ∀ slots : List Slot,
    marksOf ((joinChainSlots slots).1.flatMap Slot.nodes) = marksOf (slots.flatMap Slot.nodes)
  | .node n :: rest => by
    rw [joinChainSlots]
    simp [marksOf, Slot.nodes, marks_joinChain n]
  | [] => rfl
  | .absent :: rest => rfl
  | .list head items :: rest => rfl

end

end Node

variable {α β : Type}

/-! ## Ledgers -/

/-- The marks of the nodes made so far. -/
structure Ledger where
  next : Nat
  entry : Nat → Mark
  fits : ∀ i < next, (entry i).Fits

namespace Ledger

variable {l l' l'' : Ledger} {m m' : Mark}

structure Has (l : Ledger) (m : Mark) : Prop where
  lt : m.id < l.next
  entry : l.entry m.id = m

def Holds (l : Ledger) (m : Mark) : Prop := m = Node.blank ∨ l.Has m

theorem Holds.fits (holds : l.Holds m) : m.Fits := by
  rcases holds with rfl | has
  · exact Node.blank_fits
  · exact has.entry ▸ l.fits _ has.lt

theorem Holds.unique (holds : l.Holds m) (holds' : l.Holds m') (same : m.id = m'.id) :
    m = Node.blank ∨ m' = Node.blank ∨ m = m' := by
  rcases holds with blank | has
  · exact .inl blank
  rcases holds' with blank | has'
  · exact .inr (.inl blank)
  · exact .inr (.inr (has.entry.symm.trans (same ▸ has'.entry)))

/-- The first ledger became the second one; its entries stay. -/
structure Before (l l' : Ledger) : Prop where
  next : l.next ≤ l'.next
  entry : ∀ i < l.next, l'.entry i = l.entry i

theorem Before.refl (l : Ledger) : l.Before l := ⟨Nat.le_refl _, fun _ _ => rfl⟩

theorem Before.trans (h : l.Before l') (h' : l'.Before l'') : l.Before l'' where
  next := Nat.le_trans h.next h'.next
  entry i lt := (h'.entry i (Nat.lt_of_lt_of_le lt h.next)).trans (h.entry i lt)

theorem Has.later (has : l.Has m) (before : l.Before l') : l'.Has m where
  lt := Nat.lt_of_lt_of_le has.lt before.next
  entry := (before.entry _ has.lt).trans has.entry

theorem Holds.later (holds : l.Holds m) (before : l.Before l') : l'.Holds m :=
  holds.imp_right (·.later before)

def add (l : Ledger) (m : Mark) (fits : m.Fits) : Ledger where
  next := l.next + 1
  entry i := if i = l.next then m else l.entry i
  fits i lt := by
    split
    · exact fits
    · exact l.fits i (by omega)

theorem before_add (fits : m.Fits) : l.Before (l.add m fits) where
  next := Nat.le_succ _
  entry _ lt := if_neg (Nat.ne_of_lt lt)

theorem has_add (fits : m.Fits) (number : m.id = l.next) : (l.add m fits).Has m where
  lt := number ▸ Nat.lt_succ_self _
  entry := if_pos number

/-- A state in which the next number of the ledger is the next one, and no old tree is at hand. The
names in the ledger were noted. -/
structure At (l : Ledger) (s : ParserState) : Prop where
  next : s.nextId = l.next
  fresh : s.cursor = none
  named : ∀ i < l.next, ∀ text ∈ (l.entry i).shape.name?, text = "" ∨ text ∈ s.identifiers

/-- No nodes were made between the states, and no names were lost. -/
structure Stays (s s' : ParserState) : Prop where
  next : s'.nextId = s.nextId
  fresh : s.cursor = none → s'.cursor = none
  names : s.identifiers ⊆ s'.identifiers

variable {s s' s'' : ParserState}

theorem Stays.refl (s : ParserState) : Stays s s := ⟨rfl, id, fun _ => id⟩

theorem Stays.trans (h : Stays s s') (h' : Stays s' s'') : Stays s s'' where
  next := h'.next.trans h.next
  fresh := h'.fresh ∘ h.fresh
  names := List.Subset.trans h.names h'.names

theorem At.stays (h : l.At s) (stays : Stays s s') : l.At s' where
  next := stays.next.trans h.next
  fresh := stays.fresh h.fresh
  named i lt text mem := (h.named i lt text mem).imp_right (stays.names ·)

end Ledger

/-! ## The marks in a value -/

class Marked (α : Type) where
  marks : α → List Mark

export Marked (marks)

instance : Marked Node := ⟨Node.marks⟩

instance [Marked α] : Marked (Option α) := ⟨fun
  | none => []
  | some x => marks x⟩

instance [Marked α] : Marked (List α) := ⟨fun xs => xs.flatMap marks⟩

instance : Marked NodeList := ⟨fun l => marks l.items⟩

instance : Marked Slot := ⟨fun s => marks s.nodes⟩

class Within (l : Ledger) [Marked α] (x : α) : Prop where
  holds : ∀ m ∈ marks x, l.Holds m

section

variable [Marked α] [Marked β] {l l' : Ledger}

theorem Within.later {x : α} (h : Within l x) (before : l.Before l') : Within l' x :=
  ⟨fun m mem => (h.holds m mem).later before⟩

theorem Within.of_subset {x : α} {y : β} (h : Within l x) (sub : marks y ⊆ marks x) : Within l y :=
  ⟨fun m mem => h.holds m (sub mem)⟩

theorem Within.of_eq {x : α} {y : β} (h : Within l x) (same : marks y = marks x) : Within l y :=
  ⟨same ▸ h.holds⟩

instance : Within l (none : Option α) := ⟨List.forall_mem_nil _⟩

instance (x : α) [h : Within l x] : Within l (some x) := ⟨h.holds⟩

theorem Within.of_some {x : Option α} (h : Within l x) {y : α} (found : x = some y) : Within l y := by
  subst found
  exact ⟨h.holds⟩

/-! ### Lists -/

theorem marks_singleton (x : α) : marks [x] = marks x := List.flatMap_singleton ..

theorem Within.of_forall {xs : List α} (h : ∀ x ∈ xs, Within l x) : Within l xs :=
  ⟨fun m mem =>
    have ⟨x, inside, mem⟩ := List.mem_flatMap.mp mem
    (h x inside).holds m mem⟩

theorem Within.of_mem {xs : List α} (h : Within l xs) {x : α} (mem : x ∈ xs) : Within l x :=
  ⟨fun m inside => h.holds m (List.mem_flatMap.mpr ⟨x, mem, inside⟩)⟩

instance : Within l ([] : List α) := ⟨List.forall_mem_nil _⟩

/-! ### Nodes -/

theorem marks_ofNode (n : Node) : marks (Slot.ofNode n) = n.marks := marks_singleton n

instance (n : Node) [h : Within l n] : Within l (Slot.ofNode n) := h.of_eq (marks_ofNode n)

theorem Within.of_ofNode {n : Node} (h : Within l (Slot.ofNode n)) : Within l n :=
  h.of_eq (marks_ofNode n).symm

instance (n : Node) (flags : NodeFlags) [h : Within l n] : Within l (n.addFlags flags) :=
  h.of_eq (Node.marks_addFlags n flags)

instance (n : Node) [h : Within l n] : Within l n.joinChain.1 := h.of_eq (Node.marks_joinChain n)

instance (n : Node) (docs : List Node) [h : Within l n] [h' : Within l docs] : Within l (n.withDocs docs) :=
  ⟨fun m mem => List.forall_mem_append.mpr ⟨h.holds, h'.holds⟩ m (Node.marks_withDocs n docs mem)⟩

theorem Within.mark {n : Node} (h : Within l n) : l.Holds n.mark := by
  cases n with
  | mk head shape slots docs origin =>
    refine h.holds _ ?_
    change _ ∈ Node.marks _
    rw [Node.marks_mk]
    exact List.mem_cons_self ..

theorem Within.parsed {n : Node} (h : Within l n) : n.origin = none :=
  Option.isNone_iff_eq_none.mp h.mark.fits.parsed

theorem Within.child {n child : Node} (h : Within l n) (mem : child ∈ n.children) : Within l child :=
  h.of_subset (Node.marks_subset_of_mem_children mem)

end

/-! ## The course of the numbers -/

namespace Ledger

variable {l : Ledger} {s : ParserState}

instance : FreeMotion Stays where
  refl := .refl
  trans := .trans
  notes h := ⟨h.nextId, fun fresh => h.cursor.trans fresh, h.names⟩
  goes _ := ⟨rfl, id, fun _ => id⟩
  returns h := ⟨h.next, h.fresh, h.names⟩
  asks _ held := ⟨rfl, fun fresh => (nomatch held.symm.trans fresh), fun _ => id⟩
  turns _ _ := ⟨rfl, id, fun _ => id⟩

theorem within_node {n : Node} : Within l (Slot.node n) ↔ Within l n :=
    ⟨Within.of_ofNode, fun _ => inferInstanceAs (Within l (Slot.ofNode n))⟩

theorem within_list {head : ListHead} {items : List Node} : Within l (Slot.list head items) ↔ Within l items :=
  ⟨fun h => ⟨h.holds⟩, fun h => ⟨h.holds⟩⟩

theorem within_slot {n : Node} {slot : Slot} (h : Within l n) (mem : slot ∈ n.slots) : Within l slot := by
  refine ⟨fun m inside => ?_⟩
  obtain ⟨child, held, inside⟩ := List.mem_flatMap.mp inside
  exact (h.child (List.mem_flatMap.mpr ⟨slot, mem, held⟩)).holds m inside

theorem finishAt {kind : Kind} (pos stop : Nat) {form : Form} {g : Productions} (stands : l.At s)
    (within : Within l form.slots) (suits : form.Suits kind s) :
    ∃ b, l.Before b ∧ Within b (Parse.finishAt kind pos stop form g s).1 ∧
      b.At (Parse.finishAt kind pos stop form g s).2 := by
  let n := (Parse.finishAt kind pos stop form g s).1
  have number : n.mark.id = l.next := stands.next
  have fits : n.mark.Fits := ⟨rfl, suits.kind, fun first part mem => by
    obtain ⟨child, inside, rfl⟩ := List.mem_map.mp mem
    obtain ⟨slot, held, inside⟩ := List.mem_flatMap.mp inside
    have part : Within l slot.nodes := ⟨(within.of_mem held).holds⟩
    rcases (part.of_mem inside).mark with blank | has
    · exact congrArg (fun m : Mark => (m.kind, m.shape)) blank
    · exact absurd has.lt (by omega)⟩
  refine ⟨l.add n.mark fits, l.before_add fits, ⟨fun m mem => ?_⟩, congrArg (· + 1) stands.next, stands.fresh,
    fun i lt text mem => ?_⟩
  · have entered : (l.add n.mark fits).Holds n.mark := .inr (Ledger.has_add fits number)
    change m ∈ (Node.ofForm _ form).marks at mem
    rw [Node.marks_ofForm] at mem
    rcases List.mem_cons.mp mem with rfl | mem
    · exact entered
    · obtain ⟨n, inside, mem⟩ := List.mem_flatMap.mp mem
      obtain ⟨slot, held, inside⟩ := List.mem_flatMap.mp inside
      have := (within.of_mem held).holds m (List.mem_flatMap.mpr ⟨n, inside, mem⟩)
      exact this.later (l.before_add fits)
  · by_cases new : i = l.next
    · have entry : (l.add n.mark fits).entry i = n.mark := if_pos new
      rw [entry] at mem
      exact suits.name text mem
    · have old : i < l.next := Nat.lt_of_le_of_ne (Nat.lt_succ_iff.mp lt) new
      exact stands.named i old text ((l.before_add fits).entry i old ▸ mem)

/-- What is behind the names of the nonterminals enters the nodes of documentation. -/
def Documents (g : Productions) : Prop :=
  ∀ n : Nonterminal, n.isDoc = true → ∀ ⦃l : Ledger⦄ ⦃s : ParserState⦄, l.At s →
    ∃ b, l.Before b ∧ Within b (Parse.call? n g s).1 ∧ b.At (Parse.call? n g s).2

/-- Nodes are entered in the course of a reading without an old tree. -/
instance : Course Ledger where
  Moves := Stays
  motion := inferInstance
  names := Stays.names
  Places := False
  Unmoved := False
  offset _ := 0
  Before := Before
  refl := .refl
  trans := .trans
  offset_le _ := nofun
  At := At
  Holds _ l slot := Within l slot
  HoldsDoc l n := Within l n
  Documents := Documents
  moves := At.stays
  here {l _} stands := ⟨l, .refl l, stands, nofun⟩
  returns {_ b _ _} _ before stands := ⟨b, before, stands.stays ⟨rfl, id, fun _ => id⟩⟩
  rescans _ stands _ := stands.stays ⟨rfl, id, fun _ => id⟩
  later := Within.later
  lower h _ := h
  absent _ _ := ⟨List.forall_mem_nil _⟩
  empty _ := ⟨fun _ mem => .inl (List.mem_singleton.mp mem)⟩
  list := by
    intro lo l head items
    refine ⟨fun h => ⟨nofun, fun n mem => ⟨within_node.mpr ((within_list.mp h).of_mem mem), nofun⟩⟩, fun h => ?_⟩
    exact within_list.mpr (.of_forall fun n mem => within_node.mp (h.2 n mem).1)
  start h := h
  range _ := nofun
  part h mem := ⟨within_slot (within_node.mp h) mem, nofun⟩
  opens _ := nofun
  lines _ := nofun
  addFlags flags h := have := within_node.mp h; within_node.mpr inferInstance
  joinChain h := have := within_node.mp h; within_node.mpr inferInstance
  withDocs {_ l _ docs} h held :=
    have := within_node.mp h
    have : Within l docs := .of_forall held
    within_node.mpr inferInstance
  docLater := Within.later
  finish {_ _ _ _ pos stop _} stands _ parts suits _ _ :=
    have ⟨b, before, within, stands⟩ :=
      finishAt pos stop stands (.of_forall fun slot mem => (parts slot mem).1) suits
    ⟨b, before, within_node.mpr within, stands⟩
  document := by
    intro l s g c stands documents
    obtain ⟨b, before, within, after⟩ := documents (.docComment c.pos c.stop) rfl
      (s := { s with contextFlags := s.contextFlags ||| NodeFlags.doc, cursor := none })
      ⟨stands.next, rfl, stands.named⟩
    exact ⟨b, before, fun doc held => within.of_some held, after.next, stands.fresh, after.named⟩
  take := by
    intro l s t g context n stands found
    rcases Parse.oldElement?_run context g s with same | ⟨c, held, -⟩
    · cases same.symm.trans found
    · cases stands.fresh.symm.trans held

theorem within_of_option {lo : Nat} {x : Option Node} (h : Built lo l x) : Within l x := by
  cases x with
  | none => infer_instance
  | some n =>
    have := within_node.mp (h.of_some rfl).node
    infer_instance

theorem built_of_option {lo : Nat} {x : Option Node} (h : Within l x) : Built lo l x := by
  cases x with
  | none => infer_instance
  | some n =>
    have : Built lo l n := .of_node (within_node.mpr (h.of_some rfl))
    infer_instance

instance : Course.Placeless Ledger where
  nowhere := id
  documents {g} := by
    refine ⟨fun documents n doc l s stands => ?_, fun documents n doc l s stands => ?_⟩
    · obtain ⟨b, before, within, stands⟩ := documents n doc stands
      exact ⟨⟨b, before, _, built_of_option within⟩, rfl, stands⟩
    · obtain ⟨x, value, stands⟩ := documents n doc l stands
      exact ⟨x.stage, x.before, value ▸ within_of_option x.built, stands⟩
  restricts _ _ stands := stands.stays ⟨rfl, id, fun _ => id⟩

end Ledger

end ScriptFrontend
