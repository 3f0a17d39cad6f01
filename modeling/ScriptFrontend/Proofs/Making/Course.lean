import ScriptFrontend.Grammar.Access
import ScriptFrontend.Proofs.Making.Closing
import ScriptFrontend.Proofs.Motion.Grammar
import ScriptFrontend.Proofs.Tree.Names

/-!
# The course of a reading

While a text is read nodes are made. A course tells what is known of them: of each of its stages, in which
states of the reading it may be reached, and which nodes were made by then and lie behind an offset. What
is known of each way to make a node is all that is needed to know it of the nodes of a whole text.

The parts of a value are the nodes and lists in it. A value was made by a stage of a course if all its
parts were; it is made of values that were made, and what is taken out of it was made as well.
-/

namespace ScriptFrontend

open Parse

@[reducible]
def Nonterminal.isDoc : Nonterminal → Bool
  | .docComment .. | .docTag .. | .docChild .. => true
  | _ => false

/-- A node of the kind may be finished with the form in the state: the name in it was noted, and it was
reported if its tags are no pair. -/
structure Form.Suits (form : Form) (kind : Kind) (s : ParserState) : Prop where
  kind : ∀ k ∈ form.shape.kind?, kind = k
  name : ∀ text ∈ form.shape.name?, text = "" ∨ text ∈ s.identifiers
  paired : s.stalled = true ∨ form.IsPaired s.scanner.frame s.Reports

def Slot.EndsBy (stop : Nat) : Slot → Prop
  | .absent => True
  | .node n => n.stop ≤ stop
  | .list head _ => head.stop ≤ stop

/-- What is known of the nodes that are made while a text is read. -/
class Course (W : Type) where
  /-- Holds between two states if no node is made on the way. -/
  Moves : ParserState → ParserState → Prop
  motion : FreeMotion Moves
  names : ∀ {s t : ParserState}, Moves s t → s.identifiers ⊆ t.identifiers
  Places (W) : Prop
  /-- No node comes from an old tree, where edits of the text moved its parts. -/
  Unmoved (W) : Prop
  offset : W → Nat
  Before : W → W → Prop
  refl : ∀ w, Before w w
  trans : ∀ {w b c : W}, Before w b → Before b c → Before w c
  offset_le : ∀ {w b : W}, Before w b → Places → offset w ≤ offset b
  At : W → ParserState → Prop
  /-- A part of a node was made by the stage, and lies behind the offset. -/
  Holds : Nat → W → Slot → Prop
  HoldsDoc : W → Node → Prop
  /-- What is behind the names of the nonterminals reads documentation comments. -/
  Documents (W) : Productions → Prop
  moves : ∀ {w : W} {s t : ParserState}, At w s → Moves s t → At w t
  here : ∀ {w : W} {s : ParserState}, At w s →
    ∃ b, Before w b ∧ At b s ∧ (Places → offset b = s.scanner.fullStart)
  returns : ∀ {w b : W} {s t : ParserState}, At w s → Before w b → At b t →
    ∃ c, Before w c ∧ At c (t.takenBack s)
  rescans : ∀ {w : W} {s : ParserState} (report : Bool), At w s → s.scanner.token ≠ .endOfFileToken →
    At w { s with scanner := s.scanner.rescanTemplate report }
  -- What was made is there from then on, and all that is in it with it.
  later : ∀ {lo : Nat} {w b : W} {slot : Slot}, Holds lo w slot → Before w b → Holds lo b slot
  lower : ∀ {lo lo' : Nat} {w : W} {slot : Slot}, Holds lo w slot → (Places → lo' ≤ lo) → Holds lo' w slot
  absent : ∀ (lo : Nat) (w : W), Holds lo w .absent
  empty : ∀ {lo pos : Nat} {w : W}, (Places → lo ≤ pos ∧ pos ≤ offset w) → Holds lo w (.node (.emptyAt pos))
  list : ∀ {lo : Nat} {w : W} {head : ListHead} {items : List Node}, Holds lo w (.list head items) ↔
    (Places → lo ≤ head.pos ∧ head.pos ≤ head.stop ∧ head.stop ≤ offset w) ∧
      ∀ n ∈ items, Holds head.pos w (.node n) ∧ (Places → n.stop ≤ head.stop)
  start : ∀ {lo : Nat} {w : W} {n : Node}, Holds lo w (.node n) → Holds n.pos w (.node n)
  range : ∀ {lo : Nat} {w : W} {n : Node}, Holds lo w (.node n) → Places →
    lo ≤ n.pos ∧ n.pos ≤ n.stop ∧ n.stop ≤ offset w
  part : ∀ {lo : Nat} {w : W} {n : Node} {slot : Slot}, Holds lo w (.node n) → slot ∈ n.slots →
    Holds n.pos w slot ∧ (Places → slot.EndsBy n.stop)
  opens : ∀ {lo : Nat} {w : W} {n : Node}, Holds lo w (.node n) → Places → n.form.Opens
  lines : ∀ {lo : Nat} {w : W} {n : Node}, Holds lo w (.node n) → Places → Unmoved → n.form.Lines
  addFlags : ∀ {lo : Nat} {w : W} {n : Node} (flags : NodeFlags), Holds lo w (.node n) →
    Holds lo w (.node (n.addFlags flags))
  joinChain : ∀ {lo : Nat} {w : W} {n : Node}, Holds lo w (.node n) → Holds lo w (.node n.joinChain.1)
  withDocs : ∀ {lo : Nat} {w : W} {n : Node} {docs : List Node}, Holds lo w (.node n) →
    (∀ doc ∈ docs, HoldsDoc w doc) → Holds lo w (.node (n.withDocs docs))
  docLater : ∀ {w b : W} {doc : Node}, HoldsDoc w doc → Before w b → HoldsDoc b doc
  -- The ways to come by a new node.
  finish : ∀ {w : W} {s : ParserState} {g : Productions} {kind : Kind} {pos stop : Nat} {form : Form}, At w s →
    (Places → pos ≤ stop ∧ stop ≤ offset w) →
    (∀ slot ∈ form.slots, Holds pos w slot ∧ (Places → slot.EndsBy stop)) →
    form.Suits kind s → (Places → form.Opens) → (Places → Unmoved → form.Lines) →
    ∃ b, Before w b ∧ Holds pos b (.node (finishAt kind pos stop form g s).1) ∧
      At b (finishAt kind pos stop form g s).2
  document : ∀ {w : W} {s : ParserState} {g : Productions} (c : Comment), At w s → Documents g →
    ∃ b, Before w b ∧ (∀ doc ∈ (docComment c g s).1, HoldsDoc b doc) ∧ At b (docComment c g s).2
  take : ∀ {w : W} {s t : ParserState} {g : Productions} {context : ListContext} {n : Node}, At w s →
    oldElement? context g s = (some n, t) →
    ∃ b, Before w b ∧ Holds (offset w) b (.node n) ∧ At b (takeOver n g t).2

instance {W : Type} [Course W] : FreeMotion (Course.Moves W) := Course.motion

instance {W : Type} [Course W] : Motion (Course.Moves W) := Course.motion.toMotion

variable {α β W : Type}

/-! ## Parts -/

/-- Values that hold nodes and lists; other values hold none. -/
class Parted (α : Type) where
  parts : α → List Slot

export Parted (parts)

instance (priority := 10) Parted.nothing : Parted α := ⟨fun _ => []⟩

instance : Parted Slot := ⟨fun slot => [slot]⟩

instance : Parted Node := ⟨fun n => [.node n]⟩

instance : Parted NodeList := ⟨fun l => [.list l.head l.items]⟩

instance [Parted α] : Parted (Option α) := ⟨fun
  | none => []
  | some x => parts x⟩

instance [Parted α] : Parted (List α) := ⟨fun xs => xs.flatMap parts⟩

instance [Parted α] : Parted (Array α) := ⟨fun xs => parts xs.toList⟩

instance [Parted α] [Parted β] : Parted (α × β) := ⟨fun x => parts x.1 ++ parts x.2⟩

instance [Parted α] [Parted β] : Parted (MProd α β) := ⟨fun x => parts x.1 ++ parts x.2⟩

instance [Parted α] : Parted (ForInStep α) := ⟨fun
  | .done x => parts x
  | .yield x => parts x⟩

/-- Values of the type hold no nodes. -/
class Partless (α : Type) [Parted α] : Prop where
  none : ∀ x : α, parts x = []

instance : @Partless α .nothing := ⟨fun _ => rfl⟩

instance [Parted α] [h : Partless α] : Partless (Option α) := ⟨fun
  | .none => rfl
  | some x => h.none x⟩

/-! ## Offsets -/

/-- The first offset is not behind the second one, if a course knows of places. -/
class AtMost (W : Type) [Course W] (i j : Nat) : Prop where
  le : Course.Places W → i ≤ j

section

variable [Course W] {lo lo' : Nat} {w b : W}

instance (priority := high) AtMost.refl (i : Nat) : AtMost W i i := ⟨fun _ => Nat.le_refl i⟩

theorem AtMost.trans {i j k : Nat} (h : AtMost W i j) (h' : AtMost W j k) : AtMost W i k :=
  ⟨fun places => Nat.le_trans (h.le places) (h'.le places)⟩

theorem AtMost.before {i : Nat} (h : AtMost W i (Course.offset w)) (before : Course.Before w b) :
    AtMost W i (Course.offset b) :=
  ⟨fun places => Nat.le_trans (h.le places) (Course.offset_le before places)⟩

/-! ## Values -/

/-- The parts of a value were made by the stage, and lie behind the offset. -/
class Built (lo : Nat) (w : W) [Parted α] (x : α) : Prop where
  holds : ∀ slot ∈ parts x, Course.Holds lo w slot

section

variable [Parted α] [Parted β]

namespace Built

theorem later {x : α} (h : Built lo w x) (before : Course.Before w b) : Built lo b x :=
  ⟨fun slot mem => Course.later (h.holds slot mem) before⟩

theorem lower {x : α} (h : Built lo w x) (le : AtMost W lo' lo) : Built lo' w x :=
  ⟨fun slot mem => Course.lower (h.holds slot mem) le.le⟩

theorem of_nil {x : α} (nil : parts x = []) : Built lo w x := ⟨nil ▸ List.forall_mem_nil _⟩

theorem of_slot {slot : Slot} (h : Course.Holds lo w slot) : Built lo w slot :=
  ⟨fun _ mem => List.mem_singleton.mp mem ▸ h⟩

theorem of_node {n : Node} (h : Course.Holds lo w (.node n)) : Built lo w n :=
  ⟨fun _ mem => List.mem_singleton.mp mem ▸ h⟩

theorem node {n : Node} (h : Built lo w n) : Course.Holds lo w (.node n) := h.holds _ (List.mem_singleton_self _)

theorem list {l : NodeList} (h : Built lo w l) : Course.Holds lo w (.list l.head l.items) :=
  h.holds _ (List.mem_singleton_self _)

theorem of_list {l : NodeList} (h : Course.Holds lo w (.list l.head l.items)) : Built lo w l :=
  ⟨fun _ mem => List.mem_singleton.mp mem ▸ h⟩

theorem of_some {x : Option α} (h : Built lo w x) {y : α} (found : x = some y) : Built lo w y := by
  subst found
  exact ⟨h.holds⟩

theorem of_forall {xs : List α} (h : ∀ x ∈ xs, Built lo w x) : Built lo w xs :=
  ⟨fun slot mem =>
    have ⟨x, inside, mem⟩ := List.mem_flatMap.mp mem
    (h x inside).holds slot mem⟩

theorem of_mem {xs : List α} (h : Built lo w xs) {x : α} (mem : x ∈ xs) : Built lo w x :=
  ⟨fun slot inside => h.holds slot (List.mem_flatMap.mpr ⟨x, mem, inside⟩)⟩

theorem head {x : α} {xs : List α} (h : Built lo w (x :: xs)) : Built lo w x := h.of_mem (List.mem_cons_self ..)

theorem tail {x : α} {xs : List α} (h : Built lo w (x :: xs)) : Built lo w xs :=
  .of_forall fun _ mem => h.of_mem (List.mem_cons_of_mem _ mem)

theorem fst {x : α × β} (h : Built lo w x) : Built lo w x.1 := ⟨(List.forall_mem_append.mp h.holds).1⟩

theorem snd {x : α × β} (h : Built lo w x) : Built lo w x.2 := ⟨(List.forall_mem_append.mp h.holds).2⟩

end Built

instance (priority := 2000) Built.of_partless [h : Partless α] (x : α) : Built lo w x := .of_nil (h.none x)

instance : Built lo w (none : Option α) := ⟨List.forall_mem_nil _⟩

instance (x : α) [h : Built lo w x] : Built lo w (some x) := ⟨h.holds⟩

instance (x : Option α) (y : α) [h : Built lo w x] [h' : Built lo w y] : Built lo w (x.getD y) := by
  cases x with
  | none => exact h'
  | some x => exact ⟨h.holds⟩

instance (x : α) (y : β) [h : Built lo w x] [h' : Built lo w y] : Built lo w (x, y) :=
  ⟨List.forall_mem_append.mpr ⟨h.holds, h'.holds⟩⟩

instance (x : α × β) [h : Built lo w x] : Built lo w x.1 := h.fst

instance (x : α × β) [h : Built lo w x] : Built lo w x.2 := h.snd

instance (x : α) [h : Built lo w x] : Built lo w (ForInStep.done x) := ⟨h.holds⟩

instance (x : α) [h : Built lo w x] : Built lo w (ForInStep.yield x) := ⟨h.holds⟩

instance (c : Prop) {_ : Decidable c} (x y : α) [h : Built lo w x] [h' : Built lo w y] :
    Built lo w (if c then x else y) := by
  split <;> assumption

/-! ### Lists -/

theorem parts_singleton (x : α) : parts [x] = parts x := List.flatMap_singleton ..

theorem parts_append (xs ys : List α) : parts (xs ++ ys) = parts xs ++ parts ys := List.flatMap_append

instance : Built lo w ([] : List α) := ⟨List.forall_mem_nil _⟩

instance (x : α) (xs : List α) [h : Built lo w x] [h' : Built lo w xs] : Built lo w (x :: xs) :=
  ⟨List.forall_mem_append.mpr ⟨h.holds, h'.holds⟩⟩

instance : Built lo w (#[] : Array α) := ⟨List.forall_mem_nil _⟩

instance (xs : Array α) (x : α) [h : Built lo w xs] [h' : Built lo w x] : Built lo w (xs.push x) := ⟨by
  change ∀ slot ∈ parts (xs.push x).toList, _
  rw [Array.toList_push, parts_append, parts_singleton]
  exact List.forall_mem_append.mpr ⟨h.holds, h'.holds⟩⟩

instance (xs : List α) [h : Built lo w xs] : Built lo w xs.toArray := ⟨h.holds⟩

instance (xs : Array α) [h : Built lo w xs] : Built lo w xs.toList := ⟨h.holds⟩

end

theorem Built.ends {slot : Slot} (h : Built lo w slot) (places : Course.Places W) :
    slot.EndsBy (Course.offset w) := by
  have holds := h.holds slot (List.mem_singleton_self slot)
  cases slot with
  | absent => trivial
  | node n => exact (Course.range holds places).2.2
  | list head items => exact ((Course.list.mp holds).1 places).2.2

theorem Built.range {l : NodeList} (h : Built lo w l) :
    Course.Places W → lo ≤ l.pos ∧ l.pos ≤ l.stop ∧ l.stop ≤ Course.offset w :=
  (Course.list.mp h.list).1

theorem Built.items {l : NodeList} (h : Built lo w l) : Built lo w l.items := by
  obtain ⟨range, items⟩ := Course.list.mp h.list
  exact .of_forall fun n mem => .of_node (Course.lower (items n mem).1 fun places => (range places).1)

instance (pos stop : Nat) (trailingComma missing touched : Bool) (items : List Node) [low : AtMost W lo pos]
    [past : AtMost W pos (Course.offset w)] [here : AtMost W (Course.offset w) stop]
    [high : AtMost W stop (Course.offset w)] [built : Built pos w items] :
    Built lo w (⟨⟨pos, stop, trailingComma, missing, touched⟩, items⟩ : NodeList) := by
  refine .of_list (Course.list.mpr ⟨fun places => ⟨low.le places, ?_, high.le places⟩, fun n mem => ?_⟩)
  · exact Nat.le_trans (past.le places) (here.le places)
  · have holds := (built.of_mem mem).node
    exact ⟨holds, fun places => Nat.le_trans (Course.range holds places).2.2 (here.le places)⟩

instance (items : List Node) (pos stop : Nat) [AtMost W lo pos] [AtMost W pos (Course.offset w)]
    [AtMost W (Course.offset w) stop] [AtMost W stop (Course.offset w)] [Built pos w items] :
    Built lo w (NodeList.ofItems items pos stop) := by
  unfold NodeList.ofItems
  infer_instance

instance (pos : Nat) [AtMost W lo pos] [AtMost W pos (Course.offset w)] [AtMost W (Course.offset w) pos] :
    Built lo w (NodeList.missingAt pos) := by
  unfold NodeList.missingAt
  infer_instance

/-! ### Nodes -/

instance (pos : Nat) [low : AtMost W lo pos] [past : AtMost W pos (Course.offset w)] :
    Built lo w (Node.emptyAt pos) :=
  .of_node (Course.empty fun places => ⟨low.le places, past.le places⟩)

instance (n : Node) [h : Built lo w n] : Built lo w (Slot.ofNode n) := .of_slot h.node

instance (n : Option Node) [h : Built lo w n] : Built lo w (Slot.ofNode? n) := by
  cases n with
  | none => exact .of_slot (Course.absent lo w)
  | some n => exact .of_slot (h.of_some rfl).node

instance (l : NodeList) [h : Built lo w l] : Built lo w (Slot.ofList l) := .of_slot h.list

instance (l : Option NodeList) [h : Built lo w l] : Built lo w (Slot.ofList? l) := by
  cases l with
  | none => exact .of_slot (Course.absent lo w)
  | some l => exact .of_slot (h.of_some rfl).list

namespace Built

theorem of_ofNode {n : Node} (h : Built lo w (Slot.ofNode n)) : Built lo w n :=
  .of_node (h.holds _ (List.mem_singleton_self _))

theorem of_ofNode? {n : Option Node} (h : Built lo w (Slot.ofNode? n)) : Built lo w n := by
  cases n with
  | none => exact .of_nil rfl
  | some n => exact ⟨h.holds⟩

theorem of_ofList {l : NodeList} (h : Built lo w (Slot.ofList l)) : Built lo w l :=
  .of_list (h.holds _ (List.mem_singleton_self _))

theorem of_ofList? {l : Option NodeList} (h : Built lo w (Slot.ofList? l)) : Built lo w l := by
  cases l with
  | none => exact .of_nil rfl
  | some l => exact ⟨h.holds⟩

theorem starts {n : Node} (h : Built lo w n) : AtMost W lo n.pos := ⟨fun places => (Course.range h.node places).1⟩

theorem started {n : Node} (h : Built lo w n) : AtMost W n.pos (Course.offset w) :=
  ⟨fun places =>
    have ⟨_, forward, stop⟩ := Course.range h.node places
    Nat.le_trans forward stop⟩

theorem itself {n : Node} (h : Built lo w n) : Built n.pos w n := .of_node (Course.start h.node)

/-- What a node is made of was made with it, and lies in its range. -/
theorem parts_of_form {n : Node} (h : Built lo w n) {form : Form} (is : n.form = form) {slot : Slot}
    (mem : slot ∈ form.slots) : Built n.pos w slot ∧ (Course.Places W → slot.EndsBy n.stop) := by
  let F : Slot → List Slot := fun
    | .absent => []
    | slot => [slot]
  have keeps {slot slot' : Slot} (held : slot ∈ F slot') : slot' = slot := by
    cases slot' with
    | absent => cases held
    | node n => exact (List.mem_singleton.mp held).symm
    | list head items => exact (List.mem_singleton.mp held).symm
  by_cases nothing : slot = .absent
  · subst nothing
    exact ⟨.of_slot (Course.absent _ w), fun _ => trivial⟩
  · have own : slot ∈ F slot := by
      cases slot with
      | absent => exact absurd rfl nothing
      | node n => exact List.mem_singleton_self _
      | list head items => exact List.mem_singleton_self _
    have held : slot ∈ form.slots.flatMap F := List.mem_flatMap.mpr ⟨_, mem, own⟩
    obtain ⟨slot', inside, same⟩ := List.mem_flatMap.mp ((Node.slots_form (F := F) rfl n).subset (is ▸ held))
    obtain ⟨part, ends⟩ := Course.part h.node (keeps same ▸ inside)
    exact ⟨.of_slot part, ends⟩

theorem slots {n : Node} (h : Built lo w n) {form : Form} (is : n.form = form) : Built n.pos w form.slots :=
  .of_forall fun _ mem => (h.parts_of_form is mem).1

end Built

instance (n : Node) (flags : NodeFlags) [h : Built lo w n] : Built lo w (n.addFlags flags) :=
  .of_node (Course.addFlags flags h.node)

instance (n : Node) (chained : Bool) [h : Built lo w n] : Built lo w (n.chainedIf chained) := by
  unfold Node.chainedIf
  infer_instance

instance (n : Node) [h : Built lo w n] : Built lo w n.joinChain.1 := .of_node (Course.joinChain h.node)

end

end ScriptFrontend
