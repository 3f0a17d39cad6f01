import Mathlib.Data.List.Forall2
import ScriptFrontend.Lowering.Basic

/-!
# Children by their roles

The form of a node names its children by what they are. Whatever it names is a child of the node, in
the order of the children.
-/

namespace ScriptFrontend

variable {α : Type} {F : Slot → List α}

theorem Slot.ofNode?_node? (absent : F .absent = []) (s : Slot) :
    (F (.ofNode? s.node?)).Sublist (F s) := by
  cases s with
  | node n => exact .refl _
  | absent => exact .refl _
  | list head items => exact absent ▸ List.nil_sublist _

theorem Slot.ofList?_list? (absent : F .absent = []) (s : Slot) :
    (F (.ofList? s.list?)).Sublist (F s) := by
  cases s with
  | list head items => exact .refl _
  | absent => exact .refl _
  | node n => exact absent ▸ List.nil_sublist _

/-- A form read back from a layout names some of the slots that it was read from. -/
theorem Form.slots_ofLayout (absent : F .absent = []) (shape : Shape) (slots : List Slot) :
    ((Form.ofLayout shape slots).slots.flatMap F).Sublist (slots.flatMap F) := by
  have node (s : Slot) := Slot.ofNode?_node? absent s
  have list (s : Slot) := Slot.ofList?_list? absent s
  have found {l l' : List Slot} (h : List.Forall₂ (fun s s' => (F s).Sublist (F s')) l l') :
      (l.flatMap F).Sublist (l'.flatMap F) := by
    induction h with
    | nil => exact .refl _
    | cons first _ ih => exact first.append ih
  have skip : ([] : List α).Sublist (slots.flatMap F) := List.nil_sublist _
  cases shape
  case token => exact skip
  case docTag comment bracketed nameFirst =>
    cases nameFirst
    all_goals
      dsimp only [Form.ofLayout]
      split
      · exact found (by simp [Form.slots, Slot.ofNode, node, list])
      · exact skip
  all_goals
    dsimp only [Form.ofLayout]
    split
    · exact found (by simp [Slot.ofNode, Slot.ofList, node, list])
    · exact skip

theorem Form.shape_ofLayout (shape : Shape) (slots : List Slot) :
    (Form.ofLayout shape slots).shape = shape ∨ Form.ofLayout shape slots = .token := by
  cases shape
  case token => exact .inr rfl
  case docTag comment bracketed nameFirst =>
    cases nameFirst
    all_goals
      dsimp only [Form.ofLayout]
      split
      · exact .inl rfl
      · exact .inr rfl
  all_goals
    dsimp only [Form.ofLayout]
    split
    · exact .inl rfl
    · exact .inr rfl

def Form.isToken : Form → Bool
  | .token => true
  | _ => false

/-- The kind of the nodes with a shape, where it is for statements that import or export, for elements or
for fragments. -/
@[reducible]
def Shape.kind? : Shape → Option Kind
  | .importDeclaration => some .importDeclaration
  | .importEquals _ => some .importEqualsDeclaration
  | .exportDeclaration _ => some .exportDeclaration
  | .jsxElement => some .jsxElement
  | .jsxFragment => some .jsxFragment
  | _ => none

/-- The shape is that of an element or a fragment, with tags of its own. -/
@[reducible]
def Shape.isTagged : Shape → Bool
  | .jsxElement | .jsxFragment => true
  | _ => false

/-- The opening tag of an element begins and ends before its children do. -/
def Form.Opens (form : Form) : Prop :=
  ∀ tag children closing, form = .jsxElement tag children closing →
    tag.pos ≤ children.pos ∧ tag.stop ≤ children.stop

/-- The parts of an element or of a fragment stand in a row: the opening tag, the children one after the
other, and the closing tag. -/
def Form.Lines (form : Form) : Prop :=
  ∀ opening children closing, form = .jsxElement opening children closing ∨
      form = .jsxFragment opening children closing →
    opening.stop ≤ children.pos ∧ children.items.Pairwise (fun n m => n.stop ≤ m.pos) ∧
      children.stop ≤ closing.pos

section

variable {form : Form}

theorem Form.opens_of_untagged (other : form.shape.isTagged = false) : form.Opens := by
  rintro _ _ _ rfl
  cases other

theorem Form.lines_of_untagged (other : form.shape.isTagged = false) : form.Lines := by
  rintro _ _ _ (rfl | rfl)
  all_goals cases other

/-- An opening tag, the children behind it and the closing tag behind them stand in a row. -/
theorem Form.Lines.of_row {opening closing : Node} {l : NodeList} (begins : opening.stop ≤ l.pos)
    (row : l.items.Pairwise (·.stop ≤ ·.pos)) (ends : l.stop ≤ closing.pos) :
    (Form.jsxElement opening l closing).Lines ∧ (Form.jsxFragment opening l closing).Lines := by
  constructor
  all_goals
    rintro _ _ _ (⟨⟨⟩⟩ | ⟨⟨⟩⟩)
    exact ⟨begins, row, ends⟩

end

namespace Node

variable {n m : Node}

theorem parsed_of_origin (h : n.origin = none) : n.parsed = n := by
  cases n
  cases h
  rfl

theorem shape_of_form {form : Form} (h : n.form = form) (other : form.isToken = false) :
    n.shape = form.shape := by
  rcases Form.shape_ofLayout n.shape n.slots with same | token
  · exact same.symm.trans (congrArg Form.shape h)
  · cases (congrArg Form.isToken (h.symm.trans token)).symm.trans other

theorem shape_of_identifier {text : String} {word : Option Kind} (h : n.form = .identifier text word) :
    n.shape = .identifier text word := shape_of_form h rfl

theorem form_eq_jsxElement {tag closing : Node} {l : NodeList} : n.form = .jsxElement tag l closing ↔
    n.shape = .jsxElement ∧ n.slots = [.node tag, .list l.head l.items, .node closing] := by
  refine ⟨fun h => ?_, fun ⟨shape, slots⟩ => ?_⟩
  · have shape := shape_of_form h rfl
    refine ⟨shape, ?_⟩
    rw [form, shape] at h
    dsimp only [Form.ofLayout, Form.shape] at h
    split at h
    · rename_i layout
      cases h
      exact layout
    · cases h
  · rw [form, shape, slots]
    rfl

theorem getLast?_children_of_importEquals {p : Form.ImportEquals} (h : n.form = .importEquals p) :
    n.children.getLast? = some p.reference := by
  have shape := shape_of_form h rfl
  cases n with
  | mk head s slots docs origin =>
    subst shape
    dsimp only [form, Form.ofLayout, Node.shape, Node.slots] at h
    split at h
    · rw [← congrArg Form.ImportEquals.reference (Form.importEquals.inj h)]
      simp [children, Node.slots, Slot.nodes]
    · cases h

theorem slots_form (absent : F .absent = []) (n : Node) :
    (n.form.slots.flatMap F).Sublist (n.slots.flatMap F) :=
  Form.slots_ofLayout absent _ _

theorem mem_children {form : Form} (h : n.form = form) (mem : m ∈ form.slots.flatMap Slot.nodes) :
    m ∈ n.children :=
  (slots_form rfl n).subset (h ▸ mem)

theorem mem_children_of_statements? {l : NodeList} (h : n.statements? = some l) (mem : m ∈ l.items) :
    m ∈ n.children := by
  rw [statements?] at h
  split at h
  all_goals try cases h
  all_goals
    rename_i form
    exact mem_children form (by simp [Form.slots, Slot.ofList, Slot.ofNode?, Slot.nodes, mem])

theorem mem_children_of_body? (h : n.body? = some m) : m ∈ n.children := by
  rw [body?] at h
  split at h
  case h_4 => cases h
  all_goals
    rename_i form
    exact mem_children form (by simp_all [Form.slots, Slot.ofNode, Slot.ofNode?, Slot.nodes])

theorem mem_children_of_clauseExpression? (h : n.clauseExpression? = some m) : m ∈ n.children := by
  rw [clauseExpression?] at h
  split at h
  · rename_i form
    exact mem_children form (by simp [Form.slots, Slot.ofNode?, Slot.nodes, h])
  · cases h

end Node

end ScriptFrontend
