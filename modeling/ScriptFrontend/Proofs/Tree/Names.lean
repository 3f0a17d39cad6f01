import ScriptFrontend.Proofs.Tree.Form
import ScriptFrontend.Tree.Made

/-!
# Names in a tree

The names of a tree are the texts of all its identifiers, those of its documentation included. What
is made of some parts uses the names that the parts use, and those that it gives to identifiers of its
own.
-/

namespace ScriptFrontend

@[reducible]
def Shape.name? : Shape → Option String
  | .identifier text _ => some text
  | _ => none

namespace Node

theorem preorderWithDocsItems_eq (ns : List Node) :
    preorderWithDocsItems ns = ns.flatMap preorderWithDocs := by
  induction ns with
  | nil => rw [preorderWithDocsItems, List.flatMap_nil]
  | cons n ns ih => rw [preorderWithDocsItems, ih, List.flatMap_cons]

theorem preorderWithDocsSlots_eq (slots : List Slot) :
    preorderWithDocsSlots slots = (slots.flatMap Slot.nodes).flatMap preorderWithDocs := by
  induction slots with
  | nil => rw [preorderWithDocsSlots, List.flatMap_nil, List.flatMap_nil]
  | cons slot slots ih =>
    rw [preorderWithDocsSlots, ih, List.flatMap_cons, List.flatMap_append]
    congr 1
    cases slot with
    | absent => rfl
    | node n => rw [preorderWithDocsSlot, Slot.nodes, List.flatMap_singleton]
    | list head items => rw [preorderWithDocsSlot, preorderWithDocsItems_eq, Slot.nodes]

def names (n : Node) : List String := n.preorderWithDocs.flatMap fun m => m.shape.name?.toList

theorem names_mk (h : Head) (s : Shape) (slots : List Slot) (docs : List Node) (origin : Option Node) :
    (Node.mk h s slots docs origin).names =
      s.name?.toList ++ (slots.flatMap (fun slot => slot.nodes.flatMap names) ++ docs.flatMap names) := by
  simp only [names, preorderWithDocs, preorderWithDocsSlots_eq, preorderWithDocsItems_eq, List.flatMap_cons,
    List.flatMap_append, List.flatMap_assoc]
  rfl

theorem mem_children_of_name? {n m : Node} (h : n.name? = some m) : m ∈ n.children := by
  rw [name?] at h
  split at h
  case h_20 => cases h
  case h_19 p form =>
    refine mem_children form ?_
    simp only [Form.slots, h]
    split <;> simp [Slot.ofNode, Slot.ofNode?, Slot.nodes]
  all_goals
    rename_i form
    exact mem_children form (by simp_all [Form.slots, Slot.ofNode, Slot.ofNode?, Slot.nodes])

end Node

/-! ## Values with names -/

class Named (α : Type) where
  names : α → List String

export Named (names)

variable {α β : Type} [Named α] [Named β] {A : String → Prop}

instance : Named String := ⟨fun name => [name]⟩

instance : Named Node := ⟨Node.names⟩

instance : Named Unit := ⟨fun _ => []⟩

instance : Named (Option α) := ⟨fun
  | none => []
  | some x => names x⟩

instance : Named (List α) := ⟨fun xs => xs.flatMap names⟩

instance : Named (α × β) := ⟨fun x => names x.1 ++ names x.2⟩

instance : Named NodeList := ⟨fun l => names l.items⟩

instance : Named Slot := ⟨fun s => names s.nodes⟩

instance : Named (ForInStep α) := ⟨fun x => names x.value⟩

/-- All names that a value holds are among some names. -/
class Uses (A : String → Prop) (x : α) : Prop where
  uses : ∀ name ∈ names x, A name

structure Given (A : String → Prop) (α : Type) [Named α] where
  value : α
  uses : Uses A value

namespace Uses

instance (x : Given A α) : Uses A x.value := x.uses

theorem mono {B : String → Prop} {x : α} (h : Uses A x) (sub : ∀ name, A name → B name) : Uses B x :=
  ⟨fun name mem => sub name (h.uses name mem)⟩

theorem name {text : String} (h : A text) : Uses A text := ⟨fun _ mem => List.mem_singleton.mp mem ▸ h⟩

theorem of_name {text : String} (h : Uses A text) : A text := h.uses text (List.mem_singleton_self _)

instance (x : Unit) : Uses A x := ⟨List.forall_mem_nil _⟩

instance (x : α × β) [h : Uses A x] : Uses A x.1 := ⟨(List.forall_mem_append.mp h.uses).1⟩

instance (x : α × β) [h : Uses A x] : Uses A x.2 := ⟨(List.forall_mem_append.mp h.uses).2⟩

instance (x : α) (y : β) [h : Uses A x] [h' : Uses A y] : Uses A (x, y) :=
  ⟨List.forall_mem_append.mpr ⟨h.uses, h'.uses⟩⟩

instance (x : α) [h : Uses A x] : Uses A (ForInStep.yield x) := ⟨h.uses⟩

/-! ### Lists -/

theorem list_iff {xs : List α} : Uses A xs ↔ ∀ x ∈ xs, Uses A x :=
  ⟨fun h x mem => ⟨fun name inside => h.uses name (List.mem_flatMap.mpr ⟨x, mem, inside⟩)⟩, fun h =>
    ⟨fun name mem =>
      have ⟨x, mem, inside⟩ := List.mem_flatMap.mp mem
      (h x mem).uses name inside⟩⟩

theorem of_mem {xs : List α} (h : Uses A xs) {x : α} (mem : x ∈ xs) : Uses A x := list_iff.mp h x mem

theorem head {x : α} {xs : List α} (h : Uses A (x :: xs)) : Uses A x := h.of_mem (List.mem_cons_self ..)

theorem tail {x : α} {xs : List α} (h : Uses A (x :: xs)) : Uses A xs :=
  list_iff.mpr fun _ mem => h.of_mem (List.mem_cons_of_mem _ mem)

theorem of_subset {xs ys : List α} (h : Uses A xs) (sub : ys ⊆ xs) : Uses A ys :=
  list_iff.mpr fun _ mem => h.of_mem (sub mem)

instance : Uses A ([] : List α) := ⟨List.forall_mem_nil _⟩

instance (x : α) (xs : List α) [h : Uses A x] [h' : Uses A xs] : Uses A (x :: xs) :=
  ⟨List.forall_mem_append.mpr ⟨h.uses, h'.uses⟩⟩

instance (xs ys : List α) [h : Uses A xs] [h' : Uses A ys] : Uses A (xs ++ ys) :=
  list_iff.mpr (List.forall_mem_append.mpr ⟨list_iff.mp h, list_iff.mp h'⟩)

instance (f : β → α) (xs : List β) [h : Uses A xs] [made : ∀ x : Given A β, Uses A (f x.value)] :
    Uses A (xs.map f) :=
  list_iff.mpr fun y mem => by
    obtain ⟨x, inside, rfl⟩ := List.mem_map.mp mem
    exact made ⟨x, h.of_mem inside⟩

instance (priority := 900) map_any {γ : Type} (f : γ → α) (xs : List γ) [made : ∀ x, Uses A (f x)] :
    Uses A (xs.map f) :=
  list_iff.mpr fun y mem => by
    obtain ⟨x, -, rfl⟩ := List.mem_map.mp mem
    exact made x

instance (f : β → List α) (xs : List β) [h : Uses A xs] [made : ∀ x : Given A β, Uses A (f x.value)] :
    Uses A (xs.flatMap f) :=
  list_iff.mpr fun y mem => by
    obtain ⟨x, inside, mem⟩ := List.mem_flatMap.mp mem
    exact (made ⟨x, h.of_mem inside⟩).of_mem mem

instance (priority := 900) flatMap_any {γ : Type} (f : γ → List α) (xs : List γ) [made : ∀ x, Uses A (f x)] :
    Uses A (xs.flatMap f) :=
  list_iff.mpr fun y mem => by
    obtain ⟨x, -, mem⟩ := List.mem_flatMap.mp mem
    exact (made x).of_mem mem

instance (p : α → Bool) (xs : List α) [h : Uses A xs] : Uses A (xs.filter p) :=
  h.of_subset (List.filter_subset_self _)

instance : Uses A (none : Option α) := ⟨List.forall_mem_nil _⟩

instance (x : α) [h : Uses A x] : Uses A (some x) := ⟨h.uses⟩

theorem option_iff {x : Option α} : Uses A x ↔ ∀ y ∈ x, Uses A y := by
  cases x with
  | none => exact ⟨fun _ y mem => (nomatch mem), fun _ => inferInstance⟩
  | some x => exact ⟨fun h y mem => Option.some.inj mem ▸ ⟨h.uses⟩, fun h => ⟨(h x rfl).uses⟩⟩

theorem of_some {x : Option α} (h : Uses A x) {y : α} (found : x = some y) : Uses A y :=
  option_iff.mp h y found

instance (f : β → α) (x : Option β) [h : Uses A x] [made : ∀ y : Given A β, Uses A (f y.value)] :
    Uses A (x.map f) := by
  cases x with
  | none => exact option_iff.mpr nofun
  | some x =>
    have := made ⟨x, h.of_some rfl⟩
    exact (inferInstance : Uses A (some (f x)))

instance (priority := 900) option_map_any {γ : Type} (f : γ → α) (x : Option γ)
    [made : ∀ y, Uses A (f y)] : Uses A (x.map f) :=
  option_iff.mpr fun y mem => by
    obtain ⟨z, -, rfl⟩ := Option.map_eq_some_iff.mp mem
    exact made z

instance (f : β → Option α) (xs : List β) [h : Uses A xs] [made : ∀ x : Given A β, Uses A (f x.value)] :
    Uses A (xs.filterMap f) :=
  list_iff.mpr fun y mem => by
    obtain ⟨x, inside, found⟩ := List.mem_filterMap.mp mem
    exact (made ⟨x, h.of_mem inside⟩).of_some found

instance (x : Option α) [h : Uses A x] : Uses A x.toList :=
  list_iff.mpr fun _ mem => option_iff.mp h _ (Option.mem_toList.mp mem)

instance (x : Option α) (y : α) [h : Uses A x] [h' : Uses A y] : Uses A (x.getD y) := by
  cases x with
  | none => exact h'
  | some x => exact h.of_some rfl

instance (c : Prop) {_ : Decidable c} (x y : α) [h : Uses A x] [h' : Uses A y] :
    Uses A (if c then x else y) := by
  split <;> assumption

instance (l : NodeList) [h : Uses A l] : Uses A l.items := ⟨h.uses⟩

instance (items : List Node) (pos stop : Nat) [h : Uses A items] :
    Uses A (NodeList.ofItems items pos stop) := ⟨h.uses⟩

/-! ### Nodes -/

@[simp] theorem cons_iff {x : α} {xs : List α} : Uses A (x :: xs) ↔ Uses A x ∧ Uses A xs :=
  ⟨fun h => ⟨h.head, h.tail⟩, fun ⟨_, _⟩ => inferInstance⟩

@[simp] theorem nil_iff : Uses A ([] : List α) ↔ True := iff_true_intro inferInstance

theorem slot_iff {s : Slot} : Uses A s ↔ Uses A s.nodes := ⟨fun h => ⟨h.uses⟩, fun h => ⟨h.uses⟩⟩

@[simp] theorem ofNode_iff {n : Node} : Uses A (Slot.ofNode n) ↔ Uses A n :=
  slot_iff.trans (cons_iff.trans (and_iff_left inferInstance))

@[simp] theorem ofNode?_iff {n : Option Node} : Uses A (Slot.ofNode? n) ↔ Uses A n := by
  cases n with
  | none => exact ⟨fun _ => inferInstance, fun _ => ⟨List.forall_mem_nil _⟩⟩
  | some n => exact ofNode_iff.trans ⟨fun _ => inferInstance, fun h => h.of_some rfl⟩

@[simp] theorem ofList_iff {l : NodeList} : Uses A (Slot.ofList l) ↔ Uses A l :=
  ⟨fun h => ⟨h.uses⟩, fun h => ⟨h.uses⟩⟩

@[simp] theorem ofList?_iff {l : Option NodeList} : Uses A (Slot.ofList? l) ↔ Uses A l := by
  cases l with
  | none => exact ⟨fun _ => inferInstance, fun _ => ⟨List.forall_mem_nil _⟩⟩
  | some l => exact ⟨fun h => ⟨h.uses⟩, fun h => ⟨h.uses⟩⟩

instance (s : Slot) [h : Uses A s] : Uses A s.node? := by
  cases s with
  | node n =>
    have := (slot_iff.mp h).head
    exact (inferInstance : Uses A (some n))
  | absent => exact option_iff.mpr nofun
  | list head items => exact option_iff.mpr nofun

instance (n : Node) [h : Uses A n] : Uses A (Slot.ofNode n) := ofNode_iff.mpr h

instance (n : Option Node) [h : Uses A n] : Uses A (Slot.ofNode? n) := ofNode?_iff.mpr h

instance (l : NodeList) [h : Uses A l] : Uses A (Slot.ofList l) := ofList_iff.mpr h

instance (l : Option NodeList) [h : Uses A l] : Uses A (Slot.ofList? l) := ofList?_iff.mpr h

theorem mk_iff {h : Head} {s : Shape} {slots : List Slot} {docs : List Node} {origin : Option Node} :
    Uses A (Node.mk h s slots docs origin) ↔ Uses A s.name? ∧ Uses A slots ∧ Uses A docs := by
  have parts : names (Node.mk h s slots docs origin) = names s.name? ++ (names slots ++ names docs) := by
    refine (Node.names_mk h s slots docs origin).trans (congrArg (· ++ _) ?_)
    cases s.name? <;> rfl
  constructor
  · intro h
    have all := parts ▸ h.uses
    rw [List.forall_mem_append, List.forall_mem_append] at all
    exact ⟨⟨all.1⟩, ⟨all.2.1⟩, ⟨all.2.2⟩⟩
  · rintro ⟨own, children, docs⟩
    refine ⟨parts ▸ ?_⟩
    rw [List.forall_mem_append, List.forall_mem_append]
    exact ⟨own.uses, children.uses, docs.uses⟩

variable {n m : Node}

theorem own (h : Uses A n) : Uses A n.shape.name? := by
  cases n
  exact (mk_iff.mp h).1

theorem child (h : Uses A n) (mem : m ∈ n.children) : Uses A m := by
  cases n
  obtain ⟨slot, held, inside⟩ := List.mem_flatMap.mp mem
  exact (slot_iff.mp ((mk_iff.mp h).2.1.of_mem held)).of_mem inside

theorem of_identifierText? (h : Uses A n) {text : String} (is : n.identifierText? = some text) : A text := by
  have own := h.own
  rw [Node.identifierText?] at is
  split at is
  · rename_i shape
    rw [shape] at own
    exact Option.some.inj is ▸ (own.of_some rfl).of_name
  · cases is

theorem of_identifier (h : Uses A n) {text : String} {word : Option Kind}
    (is : n.form = .identifier text word) :
    Uses A text := by
  have own := h.own
  rw [Node.shape_of_identifier is] at own
  exact own.of_some rfl

theorem form (h : Uses A n) {form : Form} (is : n.form = form) : Uses A form.slots :=
  list_iff.mpr fun _ held => slot_iff.mpr (list_iff.mpr fun _ inside =>
    h.child (Node.mem_children is (List.mem_flatMap.mpr ⟨_, held, inside⟩)))

instance (n : Node) [h : Uses A n] : Uses A n.name? := option_iff.mpr fun _ found =>
  h.child (Node.mem_children_of_name? found)

instance (n : Node) [h : Uses A n] : Uses A n.identifierText? :=
  option_iff.mpr fun _ found => name (h.of_identifierText? found)

instance (n o : Node) [h : Uses A n] : Uses A (n.withOrigin o) := by
  cases n
  exact mk_iff.mpr (mk_iff.mp h)

instance (h : Head) (form : Form) [Uses A form.shape.name?] [Uses A form.slots] :
    Uses A (Node.ofForm h form) :=
  mk_iff.mpr ⟨inferInstance, inferInstance, inferInstance⟩

end Uses

/-! ## Made nodes -/

namespace Made

open Form

variable (kind : Kind) (form : Form) (e e' : Node) (text : String) (items : List Node)

instance [Uses A form.shape.name?] [Uses A form.slots] : Uses A (node kind form) := by
  unfold node
  infer_instance

instance (n : Node) [Uses A form.shape.name?] [Uses A form.slots] : Uses A (n.remade form) := by
  unfold Node.remade
  infer_instance

instance [Uses A items] : Uses A (list items) := by
  unfold list
  infer_instance

instance [Uses A items] : Uses A (list? items) := by
  unfold list?
  infer_instance

instance : Uses A (token kind) := by
  unfold token
  infer_instance

instance [Uses A text] : Uses A (identifier text) := by
  unfold identifier
  infer_instance

instance : Uses A (stringLiteral text) := by
  unfold stringLiteral
  infer_instance

instance : Uses A (numericLiteral text) := by
  unfold numericLiteral
  infer_instance

instance [Uses A e] [Uses A text] : Uses A (member e text) := by
  unfold member
  infer_instance

instance [Uses A e] [Uses A e'] : Uses A (element e e') := by
  unfold element
  infer_instance

instance [Uses A e] [Uses A items] : Uses A (call e items) := by
  unfold call
  infer_instance

instance [Uses A e] [Uses A e'] : Uses A (binary e kind e') := by
  unfold binary
  infer_instance

instance [Uses A e] [Uses A e'] : Uses A (assignment e e') := by
  unfold assignment
  infer_instance

instance [h : Uses A items] : Uses A (commas? items) := by
  have joined (rest : List Node) (first : Node) (h : Uses A first) (h' : Uses A rest) :
      Uses A (rest.foldl (fun left right => binary left .commaToken right) first) := by
    induction rest generalizing first with
    | nil => exact h
    | cons second rest ih =>
      have := h'.head
      exact ih _ inferInstance h'.tail
  cases items with
  | nil =>
    rw [commas?]
    infer_instance
  | cons first rest =>
    have := joined rest first h.head h.tail
    rw [commas?]
    infer_instance

instance [Uses A e] : Uses A (unary kind e) := by
  unfold unary
  infer_instance

instance [Uses A e] : Uses A (parenthesized e) := by
  unfold parenthesized
  infer_instance

instance [Uses A e] : Uses A (kept e) := by
  unfold kept
  infer_instance

instance : Uses A undefined := by
  unfold undefined
  infer_instance

instance (condition yes no : Node) [Uses A condition] [Uses A yes] [Uses A no] :
    Uses A (conditional condition yes no) := by
  unfold conditional
  infer_instance

instance (multiLine : Bool) [Uses A items] : Uses A (object items multiLine) := by
  unfold object
  infer_instance

instance (multiLine : Bool) [Uses A items] : Uses A (array items multiLine) := by
  unfold array
  infer_instance

instance [Uses A e] [Uses A e'] : Uses A (property e e') := by
  unfold property
  infer_instance

/-! ### Functions and statements -/

instance [Uses A e] : Uses A (parameter e) := by
  unfold parameter
  infer_instance

instance [Uses A items] : Uses A (block items) := by
  unfold block
  infer_instance

instance (modifiers : Option NodeList) (name : Option Node) (parameters : List Node) [Uses A modifiers]
    [Uses A name] [Uses A parameters] [Uses A items] :
    Uses A (functionLike kind modifiers name parameters items) := by
  unfold functionLike
  infer_instance

instance (parameters : List String) [Uses A parameters] :
    Uses A (parameters.map (parameter ∘ identifier)) := by
  unfold Function.comp
  infer_instance

instance (parameters : List String) [Uses A parameters] [Uses A items] :
    Uses A (function parameters items) := by
  unfold function
  infer_instance

instance (parameters : List String) [Uses A text] [Uses A parameters] [Uses A items] :
    Uses A (functionDeclaration text parameters items) := by
  unfold functionDeclaration
  infer_instance

instance [Uses A e] : Uses A (expressionStatement e) := by
  unfold expressionStatement
  infer_instance

instance [Uses A e] : Uses A (returnStatement e) := by
  unfold returnStatement
  infer_instance

instance [Uses A e] [Uses A e'] : Uses A (ifStatement e e') := by
  unfold ifStatement
  infer_instance

instance (value : Option Node) [Uses A e] [Uses A value] : Uses A (variableDeclaration e value) := by
  unfold variableDeclaration
  infer_instance

instance (flags : NodeFlags) [Uses A items] : Uses A (variableList flags items) := by
  unfold variableList
  infer_instance

instance (modifiers : List Node) (flags : NodeFlags) [Uses A modifiers] [Uses A items] :
    Uses A (variableStatement modifiers flags items) := by
  unfold variableStatement
  infer_instance

instance [Uses A items] : Uses A (varStatement items) := by
  unfold varStatement
  infer_instance

instance [Uses A text] [Uses A e] [Uses A items] : Uses A (forIn text e items) := by
  unfold forIn
  infer_instance

instance : Uses A (marker kind e) := by
  unfold marker
  infer_instance

end Made

end ScriptFrontend
