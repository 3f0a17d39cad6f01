import Mathlib.Logic.Relation
import ScriptFrontend.Proofs.Tree.Form
import ScriptFrontend.Scope.Binding

/-!
# Nodes below a node

What a pattern binds and what a statement declares stands in it, at some depth.
-/

namespace ScriptFrontend.Node

variable {n m : Node} {slots : List Slot} {items : List Node}

def Contains (n m : Node) : Prop := Relation.ReflTransGen (fun a b => b ∈ a.children) n m

namespace Contains

theorem refl (n : Node) : n.Contains n := Relation.ReflTransGen.refl

theorem ofChild {child : Node} (mem : child ∈ n.children) (h : child.Contains m) :
    n.Contains m := Relation.ReflTransGen.head mem h

/-- What holds of a node and with each node of its children holds of all nodes that it contains. -/
theorem closed {P : Node → Prop} (below : ∀ n m, P n → m ∈ n.children → P m) (h : n.Contains m) (is : P n) :
    P m := by
  induction h with
  | refl => exact is
  | tail _ mem ih => exact below _ _ ih mem

end Contains

theorem preorderItems_eq (ns : List Node) : preorderItems ns = ns.flatMap preorder := by
  induction ns with
  | nil => rw [preorderItems, List.flatMap_nil]
  | cons n ns ih => rw [preorderItems, ih, List.flatMap_cons]

theorem preorderSlots_eq (slots : List Slot) :
    preorderSlots slots = (slots.flatMap Slot.nodes).flatMap preorder := by
  induction slots with
  | nil => rw [preorderSlots, List.flatMap_nil, List.flatMap_nil]
  | cons slot slots ih =>
    rw [preorderSlots, ih, List.flatMap_cons, List.flatMap_append]
    congr 1
    cases slot with
    | absent => rfl
    | node n => rw [preorderSlot, Slot.nodes, List.flatMap_singleton]
    | list head items => rw [preorderSlot, preorderItems_eq, Slot.nodes]

theorem preorder_eq (n : Node) : n.preorder = n :: n.children.flatMap preorder := by
  cases n
  rw [preorder, preorderSlots_eq]
  rfl

theorem Contains.mem_preorder (h : n.Contains m) : m ∈ n.preorder := by
  induction h using Relation.ReflTransGen.head_induction_on with
  | refl =>
    rw [preorder_eq]
    exact List.mem_cons_self
  | @head a b mem _ ih =>
    rw [preorder_eq]
    exact List.mem_cons_of_mem _ (List.mem_flatMap.mpr ⟨b, mem, ih⟩)

theorem contains_boundNames (declaration n : Node) : ∀ p ∈ boundNames declaration n,
    n.Contains p.1 ∧ (p.2 = declaration ∨ n.Contains p.2) ∧
      (declaration.name? = some n → p.2.name? = some p.1) := by
  refine boundNames.induct
    (fun declaration n => ∀ p ∈ boundNames declaration n,
      n.Contains p.1 ∧ (p.2 = declaration ∨ n.Contains p.2) ∧
        (declaration.name? = some n → p.2.name? = some p.1))
    (fun slots => ∀ p ∈ boundNamesSlots slots,
      (∃ m ∈ slots.flatMap Slot.nodes, m.Contains p.1 ∧ m.Contains p.2) ∧ p.2.name? = some p.1)
    (fun items => ∀ p ∈ boundNamesItems items,
      (∃ m ∈ items, m.Contains p.1 ∧ m.Contains p.2) ∧ p.2.name? = some p.1)
    ?name ?pattern ?list ?other ?slot ?noSlot ?done ?element ?noElement declaration n
  case name =>
    intro declaration h text word slots docs origin p mem
    rw [boundNames, List.mem_singleton] at mem
    exact mem ▸ ⟨.refl _, .inl rfl, fun named => named⟩
  case pattern =>
    intro declaration h multiLine slots docs origin pattern ih p mem
    rw [boundNames, if_pos pattern] at mem
    obtain ⟨⟨m, child, contains, element⟩, named⟩ := ih p mem
    exact ⟨.ofChild child contains, .inr (.ofChild child element), fun _ => named⟩
  case list =>
    intro declaration h multiLine slots docs origin other p mem
    rw [boundNames, if_neg other] at mem
    cases mem
  case other =>
    intro n declaration notName notList p mem
    rw [boundNames.eq_def] at mem
    split at mem
    · exact (notName _ _ _ _ _ _ rfl).elim
    · exact (notList _ _ _ _ _ rfl).elim
    · cases mem
  case slot =>
    intro head items ih p mem
    obtain ⟨⟨m, inside, contains⟩, named⟩ := ih p mem
    exact ⟨⟨m, List.mem_append_left _ inside, contains⟩, named⟩
  case noSlot =>
    intro slots other p mem
    rw [boundNamesSlots.eq_def] at mem
    split at mem
    · exact (other _ _ rfl).elim
    · cases mem
  case done => exact fun _ mem => nomatch mem
  case element =>
    intro h a b name d docs origin rest ih ih' p mem
    rw [boundNamesItems] at mem
    rcases List.mem_append.mp mem with here | later
    · obtain ⟨contains, element, named⟩ := ih p here
      have child : name ∈ (Node.mk h .bindingElement [a, b, .node name, d] docs origin).children := by
        simp [children, Node.slots, Slot.nodes]
      refine ⟨⟨_, List.mem_cons_self .., .ofChild child contains, ?_⟩, named rfl⟩
      exact element.elim (fun same => same ▸ .refl _) (.ofChild child ·)
    · obtain ⟨⟨m, inside, contains⟩, named⟩ := ih' p later
      exact ⟨⟨m, List.mem_cons_of_mem _ inside, contains⟩, named⟩
  case noElement =>
    intro head rest other ih p mem
    rw [boundNamesItems.eq_def] at mem
    split at mem
    · cases mem
    · rename_i same
      exact (other _ _ _ _ _ _ _ (List.cons.inj same).1).elim
    · rename_i same
      cases same
      obtain ⟨⟨m, inside, contains⟩, named⟩ := ih p mem
      exact ⟨⟨m, List.mem_cons_of_mem _ inside, contains⟩, named⟩

theorem mem_children_of_ownFunctionVariables {p : Node × Bool} (mem : p ∈ n.ownFunctionVariables) :
    p.1 ∈ n.children := by
  rw [ownFunctionVariables] at mem
  split at mem
  case h_4 => cases mem
  all_goals
    rename_i form
    refine mem_children form ?_
    grind [Slot.ofNode, Slot.ofNode?, Slot.nodes]

mutual

theorem contains_functionVariables : ∀ n : Node, ∀ p ∈ n.functionVariables, n.Contains p.1
  | .mk h s slots docs origin => fun p mem => by
    rw [functionVariables] at mem
    rcases List.mem_append.mp mem with own | inner
    · exact .ofChild (mem_children_of_ownFunctionVariables own) (.refl _)
    · split at inner
      · obtain ⟨m, child, contains⟩ := contains_functionVariablesSlots slots p inner
        exact .ofChild child contains
      · cases inner

theorem contains_functionVariablesSlots : ∀ slots : List Slot, ∀ p ∈ functionVariablesSlots slots,
    ∃ m ∈ slots.flatMap Slot.nodes, m.Contains p.1
  | [] => fun _ mem => nomatch mem
  | slot :: rest => fun p mem => by
    rw [functionVariablesSlots] at mem
    rw [List.flatMap_cons]
    rcases List.mem_append.mp mem with here | later
    · obtain ⟨m, inside, contains⟩ := contains_functionVariablesSlot slot p here
      exact ⟨m, List.mem_append_left _ inside, contains⟩
    · obtain ⟨m, inside, contains⟩ := contains_functionVariablesSlots rest p later
      exact ⟨m, List.mem_append_right _ inside, contains⟩

theorem contains_functionVariablesSlot : ∀ slot : Slot, ∀ p ∈ functionVariablesSlot slot,
    ∃ m ∈ slot.nodes, m.Contains p.1
  | .absent => fun _ mem => nomatch mem
  | .node n => fun p mem => ⟨n, List.mem_singleton_self n, contains_functionVariables n p mem⟩
  | .list _ items => fun p mem => contains_functionVariablesItems items p mem

theorem contains_functionVariablesItems : ∀ items : List Node, ∀ p ∈ functionVariablesItems items,
    ∃ m ∈ items, m.Contains p.1
  | [] => fun _ mem => nomatch mem
  | n :: rest => fun p mem => by
    rw [functionVariablesItems] at mem
    rcases List.mem_append.mp mem with here | later
    · exact ⟨n, List.mem_cons_self .., contains_functionVariables n p here⟩
    · obtain ⟨m, inside, contains⟩ := contains_functionVariablesItems rest p later
      exact ⟨m, List.mem_cons_of_mem _ inside, contains⟩

end

end ScriptFrontend.Node

namespace ScriptFrontend

/-! ## Values that stand in a node -/

class Rooted (α : Type) where
  roots : α → List Node

export Rooted (roots)

variable {α : Type} [Rooted α] {c n m : Node}

instance : Rooted Node := ⟨fun n => [n]⟩

instance : Rooted (Option α) := ⟨fun
  | none => []
  | some x => roots x⟩

instance : Rooted (List α) := ⟨fun xs => xs.flatMap roots⟩

instance : Rooted NodeList := ⟨fun l => l.items⟩

instance : Rooted Slot := ⟨Slot.nodes⟩

/-- All nodes that a value is made of stand in the node. -/
class In (c : Node) (x : α) : Prop where
  contains : ∀ m ∈ roots x, c.Contains m

namespace In

theorem node_iff : In c n ↔ c.Contains n :=
  ⟨fun h => h.contains n (List.mem_singleton_self n), fun h => ⟨fun _ mem => List.mem_singleton.mp mem ▸ h⟩⟩

instance self (c : Node) : In c c := node_iff.mpr (.refl c)

theorem child (h : In c n) (mem : m ∈ n.children) : In c m := node_iff.mpr ((node_iff.mp h).tail mem)

theorem list_iff {xs : List α} : In c xs ↔ ∀ x ∈ xs, In c x :=
  ⟨fun h x mem => ⟨fun m inside => h.contains m (List.mem_flatMap.mpr ⟨x, mem, inside⟩)⟩, fun h => ⟨fun m mem =>
    have ⟨x, mem, inside⟩ := List.mem_flatMap.mp mem
    (h x mem).contains m inside⟩⟩

theorem of_mem {xs : List α} (h : In c xs) {x : α} (mem : x ∈ xs) : In c x := list_iff.mp h x mem

theorem of_some {x : Option α} (h : In c x) {y : α} (found : x = some y) : In c y := by
  subst found
  exact ⟨h.contains⟩

instance (x : Option α) (y : α) [h : In c x] [h' : In c y] : In c (x.getD y) := by
  cases x with
  | none => exact h'
  | some x => exact ⟨h.contains⟩

instance : In c ([] : List α) := ⟨List.forall_mem_nil _⟩

theorem cons_iff {x : α} {xs : List α} : In c (x :: xs) ↔ In c x ∧ In c xs := by
  rw [list_iff, List.forall_mem_cons, list_iff]

instance (l : NodeList) [h : In c l] : In c l.items := list_iff.mpr fun m mem => node_iff.mpr (h.contains m mem)

instance (l : Option NodeList) [h : In c l] : In c ((l.map (·.items)).getD []) := by
  cases l with
  | none => exact inferInstanceAs (In c ([] : List Node))
  | some l =>
    have := h.of_some rfl
    exact inferInstanceAs (In c l.items)

theorem ofNode_iff : In c (Slot.ofNode n) ↔ In c n := ⟨fun h => ⟨h.contains⟩, fun h => ⟨h.contains⟩⟩

theorem ofNode?_iff {n : Option Node} : In c (Slot.ofNode? n) ↔ In c n := by
  cases n with
  | none => exact ⟨fun h => ⟨h.contains⟩, fun h => ⟨h.contains⟩⟩
  | some n => exact ⟨fun h => ⟨h.contains⟩, fun h => ⟨h.contains⟩⟩

theorem ofList_iff {l : NodeList} : In c (Slot.ofList l) ↔ In c l := ⟨fun h => ⟨h.contains⟩, fun h => ⟨h.contains⟩⟩

theorem ofList?_iff {l : Option NodeList} : In c (Slot.ofList? l) ↔ In c l := by
  cases l with
  | none => exact ⟨fun h => ⟨h.contains⟩, fun h => ⟨h.contains⟩⟩
  | some l => exact ⟨fun h => ⟨h.contains⟩, fun h => ⟨h.contains⟩⟩

/-- What a node is made of stands in what the node stands in. -/
theorem slots (h : In c n) {form : Form} (is : n.form = form) : In c form.slots :=
  ⟨fun _ mem => (node_iff.mp h).tail (Node.mem_children is mem)⟩

theorem statements (h : In c n) : In c (((n.statements?).map (·.items)).getD []) := by
  cases held : n.statements? with
  | none => exact inferInstanceAs (In c ([] : List Node))
  | some l => exact list_iff.mpr fun _ mem => h.child (Node.mem_children_of_statements? held mem)

end In

end ScriptFrontend
