import ScriptFrontend.Proofs.Print.SpellOut

/-!
# Nodes that are spelled out

A node that is spelled out has the form of the node that it stands for, with its children spelled out in
their places. Its kind, its flags and its own name stay.
-/

namespace ScriptFrontend

variable {σ : Substitution} {place : Position} {n : Node}

@[simp] theorem Position.item_part (k : Kind) : Position.part.item k = .part := rfl

@[simp] theorem Position.inside_part (k : Kind) : Position.part.inside k = .value := by
  rw [inside, bne_self_eq_false, Bool.and_false, if_neg Bool.false_ne_true]

theorem Position.inside_of_ne {k : Kind} (other : k ≠ .partiallyEmittedExpression) : place.inside k = .value := by
  rw [inside, beq_false_of_ne other, Bool.false_and, if_neg Bool.false_ne_true]

@[simp] theorem Position.item_attributes (k : Kind) : Position.attributes.item k = .part := rfl

/-! ## Slots -/

namespace Node

theorem spellOutItems_eq (ns : List Node) : spellOutItems σ place ns = ns.map (·.spellOut σ place) := by
  induction ns with
  | nil => rw [spellOutItems, List.map_nil]
  | cons n ns ih => rw [spellOutItems, ih, List.map_cons]

theorem spellOutSlots_eq_nil {slots : List Slot} {places : List Position}
    (h : spellOutSlots σ places slots = []) : slots = [] := by
  cases places <;> cases slots <;> simp_all [spellOutSlots]

theorem spellOutSlots_eq_cons {slots rest : List Slot} {places : List Position} {slot : Slot}
    (h : spellOutSlots σ (place :: places) slots = slot :: rest) :
    ∃ s r, slots = s :: r ∧ spellOutSlot σ place s = slot ∧ spellOutSlots σ places r = rest := by
  cases slots with
  | nil => simp [spellOutSlots] at h
  | cons s r =>
    rw [spellOutSlots, List.cons.injEq] at h
    exact ⟨s, r, rfl, h⟩

theorem spellOutSlots_eq_node {slots rest : List Slot} {places : List Position} {m : Node}
    (h : spellOutSlots σ (place :: places) slots = .node m :: rest) :
    ∃ n r, slots = .node n :: r ∧ n.spellOut σ place = m ∧ spellOutSlots σ places r = rest := by
  obtain ⟨s, r, rfl, same, rest⟩ := spellOutSlots_eq_cons h
  cases s with
  | node n => exact ⟨n, r, rfl, Slot.node.inj same, rest⟩
  | _ => cases same

theorem spellOutSlots_eq_list {slots rest : List Slot} {places : List Position} {head : ListHead}
    {items : List Node} (h : spellOutSlots σ (place :: places) slots = .list head items :: rest) :
    ∃ ns r, slots = .list head ns :: r ∧ spellOutItems σ place ns = items ∧
      spellOutSlots σ places r = rest := by
  obtain ⟨s, r, rfl, same, rest⟩ := spellOutSlots_eq_cons h
  cases s with
  | list head' ns =>
    cases same
    exact ⟨ns, r, rfl, rfl, rest⟩
  | _ => cases same

@[simp] theorem spellOutSlots_nil {slots : List Slot} : spellOutSlots σ [] slots = slots := by
  cases slots <;> rw [spellOutSlots]

theorem spellOutSlot_node? (slot : Slot) :
    (spellOutSlot σ place slot).node? = slot.node?.map (·.spellOut σ place) := by
  cases slot <;> rfl

end Node

def NodeList.spellOut (σ : Substitution) (place : Position) (l : NodeList) : NodeList :=
  { l with items := l.items.map (·.spellOut σ place) }

@[simp] theorem NodeList.items_spellOut (l : NodeList) :
    (l.spellOut σ place).items = l.items.map (·.spellOut σ place) :=
  rfl

@[simp] theorem NodeList.isEmpty_spellOut (l : NodeList) : (l.spellOut σ place).isEmpty = l.isEmpty := by
  rw [isEmpty, items_spellOut, List.isEmpty_map, isEmpty]

namespace Node
theorem spellOutSlot_list? (slot : Slot) :
    (spellOutSlot σ place slot).list? = slot.list?.map (·.spellOut σ place) := by
  cases slot with
  | list head items => simp [spellOutSlot, Slot.list?, NodeList.spellOut, spellOutItems_eq]
  | _ => rfl

@[simp] theorem spellOut_copied (n : Node) : n.spellOut σ .copied = n := by
  cases n; simp [spellOut, Position.resolve, Substitution.whole?]

theorem spellOutSlot_copied (slot : Slot) : spellOutSlot σ .copied slot = slot := by
  cases slot <;> simp [spellOutSlot, spellOutItems_eq]

end Node
namespace Form

/-- The form with the names in it spelled out; it is that of a node of the kind in the
place. -/
def spellOut (σ : Substitution) (place : Position) (k : Kind) : Form → Form
  | .qualifiedName a b => .qualifiedName (a.spellOut σ .value) b
  | .wrapped a => .wrapped (a.spellOut σ (place.inside k))
  | .optionalExpression a => .optionalExpression (a.map (·.spellOut σ .value))
  | .parameter p =>
    .parameter { p with name := p.name.spellOut σ .part, value := p.value.map (·.spellOut σ .value) }
  | .property p =>
    .property { p with
      modifiers := p.modifiers.map (·.spellOut σ .part)
      name := p.name.spellOut σ .key
      value := p.value.map (·.spellOut σ .value) }
  | .functionLike p =>
    .functionLike { p with
      modifiers := p.modifiers.map (·.spellOut σ .part)
      name := p.name.map (·.spellOut σ .key)
      parameters := p.parameters.spellOut σ .part
      body := p.body.map (·.spellOut σ .body) }
  | .classStaticBlock a b => .classStaticBlock a (b.spellOut σ .part)
  | .classLike p =>
    .classLike { p with
      modifiers := p.modifiers.map (·.spellOut σ .part)
      heritage := p.heritage.map (·.spellOut σ .part)
      members := p.members.spellOut σ .part }
  | .typeReference a b => .typeReference (a.spellOut σ .value) b
  | .list multiLine a => .list multiLine (a.spellOut σ (place.item k))
  | .templateLiteral a b => .templateLiteral a (b.spellOut σ .part)
  | .templateSpan a b => .templateSpan (a.spellOut σ .value) b
  | .bindingElement p =>
    .bindingElement { p with
      propertyName := p.propertyName.map (·.spellOut σ .key)
      name := p.name.spellOut σ .part
      value := p.value.map (·.spellOut σ .value) }
  | .propertyAccess a b c => .propertyAccess (a.spellOut σ .value) b c
  | .elementAccess a b c => .elementAccess (a.spellOut σ .value) b (c.spellOut σ .value)
  | .call p =>
    .call { p with
      expression := p.expression.spellOut σ .value
      arguments := p.arguments.map (·.spellOut σ .value) }
  | .taggedTemplate p =>
    .taggedTemplate { p with
      tag := p.tag.spellOut σ .value
      template := p.template.spellOut σ .value }
  | .typeAssertion a b => .typeAssertion a (b.spellOut σ .value)
  | .typedExpression a b => .typedExpression (a.spellOut σ .value) b
  | .unary operator a => .unary operator (a.spellOut σ .value)
  | .binary a b c => .binary (a.spellOut σ .value) b (c.spellOut σ .value)
  | .conditional p =>
    .conditional { p with
      condition := p.condition.spellOut σ .value
      yes := p.yes.spellOut σ .value
      no := p.no.spellOut σ .value }
  | .yieldLike a b => .yieldLike a (b.map (·.spellOut σ .value))
  | .block multiLine a => .block multiLine (a.spellOut σ .part)
  | .variableStatement a b => .variableStatement a (b.spellOut σ .part)
  | .variableDeclaration p =>
    .variableDeclaration { p with
      name := p.name.spellOut σ .part
      value := p.value.map (·.spellOut σ .value) }
  | .ifElse a b c => .ifElse (a.spellOut σ .value) (b.spellOut σ .part) (c.map (·.spellOut σ .part))
  | .doLoop a b => .doLoop (a.spellOut σ .part) (b.spellOut σ .value)
  | .whileLoop a b => .whileLoop (a.spellOut σ .value) (b.spellOut σ .part)
  | .forLoop p =>
    .forLoop {
      start := p.start.map (·.spellOut σ .value)
      condition := p.condition.map (·.spellOut σ .value)
      update := p.update.map (·.spellOut σ .value)
      body := p.body.spellOut σ .part }
  | .forEach p =>
    .forEach { p with
      start := p.start.spellOut σ .value
      expression := p.expression.spellOut σ .value
      body := p.body.spellOut σ .part }
  | .withObject a b => .withObject (a.spellOut σ .value) (b.spellOut σ .part)
  | .switch a b => .switch (a.spellOut σ .value) (b.spellOut σ .part)
  | .caseClause a b => .caseClause (a.map (·.spellOut σ .value)) (b.spellOut σ .part)
  | .labeled a b => .labeled a (b.spellOut σ .part)
  | .tryCatch a b c =>
    .tryCatch (a.spellOut σ .part) (b.map (·.spellOut σ .part)) (c.map (·.spellOut σ .part))
  | .catchClause a b => .catchClause (a.map (·.spellOut σ .part)) (b.spellOut σ .part)
  | .importEquals p => .importEquals { p with reference := p.reference.spellOut σ .reference }
  | .importDeclaration p =>
    .importDeclaration { p with attributes := p.attributes.map (·.spellOut σ .attributes) }
  | .exportAssignment isEquals a b => .exportAssignment isEquals a (b.spellOut σ .value)
  | .exportDeclaration p =>
    .exportDeclaration { p with attributes := p.attributes.map (·.spellOut σ .attributes) }
  | .heritageClause word a => .heritageClause word (a.spellOut σ .value)
  | .importAttribute a b => .importAttribute (a.spellOut σ .key) (b.spellOut σ .value)
  | .shorthand a b c => .shorthand (a.spellOut σ .shorthand) b (c.map (·.spellOut σ .value))
  | .jsxElement a b c => .jsxElement (a.spellOut σ .part) (b.spellOut σ .part) c
  | .jsxTag a b c => .jsxTag (a.spellOut σ .tag) b (c.spellOut σ .part)
  | .jsxFragment a b c => .jsxFragment a (b.spellOut σ .part) c
  | .jsxAttribute a b => .jsxAttribute (a.spellOut σ .part) (b.map (·.spellOut σ .part))
  | .jsxExpression a b => .jsxExpression a (b.map (·.spellOut σ .value))
  | form => form

open Node in
theorem ofLayout_spellOutSlots (place : Position) (k : Kind) (s : Shape) (slots : List Slot) :
    Form.ofLayout s (spellOutSlots σ (s.places place k) slots) =
      (Form.ofLayout s slots).spellOut σ place k := by
  cases s
  case importEquals | call | functionLike | wrapped | classStaticBlock | list | elementAccess |
      qualifiedName | optionalExpression | parameter | property | classLike | typeReference |
      templateLiteral | templateSpan | bindingElement | propertyAccess | taggedTemplate |
      typeAssertion | typedExpression | unary | binary | conditional | yieldLike | block |
      variableStatement | variableDeclaration | ifElse | doLoop | whileLoop | forLoop | forEach |
      withObject | switch | caseClause | labeled | tryCatch | catchClause | importDeclaration |
      exportAssignment | exportDeclaration | heritageClause | importAttribute | shorthand |
      jsxElement | jsxTag | jsxFragment | jsxAttribute | jsxExpression =>
    dsimp only [Form.ofLayout, Shape.places]
    split
    · rename_i h
      repeat first
        | replace h := spellOutSlots_eq_node h; obtain ⟨_, _, rfl, rfl, h⟩ := h
        | replace h := spellOutSlots_eq_list h; obtain ⟨_, _, rfl, rfl, h⟩ := h
        | replace h := spellOutSlots_eq_cons h; obtain ⟨_, _, rfl, rfl, h⟩ := h
      obtain rfl := spellOutSlots_eq_nil h
      simp [spellOutSlot_copied, spellOutSlot_node?, spellOutSlot_list?, spellOutItems_eq,
        Form.spellOut, NodeList.spellOut]
    · rename_i no
      split
      · exfalso; apply no; rfl
      · rfl
  case token => rfl
  case docTag comment bracketed nameFirst =>
    change Form.ofLayout _ (spellOutSlots σ [] slots) = _
    rw [spellOutSlots_nil]
    cases nameFirst
    all_goals
      dsimp only [Form.ofLayout]
      split <;> rfl
  all_goals
    change Form.ofLayout _ (spellOutSlots σ [] slots) = _
    rw [spellOutSlots_nil]
    dsimp only [Form.ofLayout]
    split <;> rfl
end Form

/-! ## Nodes -/

namespace Node

def IsSpelled (σ : Substitution) (place : Position) (n : Node) : Prop := σ.whole? (place.resolve n) n = none

theorem spellOut_eq (h : n.IsSpelled σ place) :
    n.spellOut σ place = .mk (n.head.placed (place.resolve n) n.shape) n.shape
      (spellOutSlots σ (n.shape.places (place.resolve n) n.kind) n.slots) n.docs (some n) := by
  cases n
  rw [spellOut, h]
  rfl

theorem spellOut_whole {m : Node} (h : σ.whole? (place.resolve n) n = some m) : n.spellOut σ place = m := by
  cases n
  rw [spellOut, h]

theorem spellOut_resolve : n.spellOut σ (place.resolve n) = n.spellOut σ place := by
  have same : (place.resolve n).resolve n = place.resolve n := by
    cases place <;> dsimp only [Position.resolve]
    all_goals repeat' split
    all_goals simp_all
  cases n
  rw [spellOut, spellOut, same]

theorem isSpelled_part : n.IsSpelled σ .part := rfl

theorem isSpelled_attributes : n.IsSpelled σ .attributes := rfl

theorem isSpelled_kept : n.IsSpelled σ .kept := rfl

theorem isSpelled_key : n.IsSpelled σ .key := by
  rw [IsSpelled, Position.resolve]
  split <;> rfl

theorem isSpelled_value (h : n.isName = true → σ.expression n = none) : n.IsSpelled σ .value := by
  change (if n.isName then (σ.expression n).map Made.kept else none) = none
  split
  · rw [h ‹_›, Option.map_none]
  · rfl

theorem spellOut_name {a : Node} (name : n.isName = true) (found : σ.expression n = some a) :
    n.spellOut σ .value = Made.kept a :=
  spellOut_whole (by
    change (if n.isName then (σ.expression n).map Made.kept else none) = _
    rw [if_pos name, found, Option.map_some])

namespace IsSpelled

variable (h : n.IsSpelled σ place)

include h

theorem form : (n.spellOut σ place).form = n.form.spellOut σ (place.resolve n) n.kind := by
  rw [spellOut_eq h]
  exact Form.ofLayout_spellOutSlots ..

theorem kind : (n.spellOut σ place).kind = n.kind := by
  rw [spellOut_eq h, Node.kind, Node.head, Head.placed]
  split <;> rfl

theorem flags : (n.spellOut σ place).flags = n.flags := by
  rw [spellOut_eq h, Node.flags, Node.head, Head.placed]
  split <;> rfl

theorem shape : (n.spellOut σ place).shape = n.shape := by rw [spellOut_eq h]; rfl

theorem origin : (n.spellOut σ place).origin = some n := by rw [spellOut_eq h]; rfl

theorem head (kept : n.shape.keepsText (place.resolve n) = true) : (n.spellOut σ place).head = n.head := by
  rw [spellOut_eq h, Node.head, Head.placed, kept, if_pos rfl]

theorem isName : (n.spellOut σ place).isName = n.isName := by
  rw [Node.isName, h.kind, h.form, Node.isName]
  cases n.form <;> rfl

theorem isSynthesized : (n.spellOut σ place).isSynthesized = n.isSynthesized := by
  rw [Node.isSynthesized, h.flags, Node.isSynthesized]

theorem identifierText? : (n.spellOut σ place).identifierText? = n.identifierText? := by
  rw [Node.identifierText?, h.shape, Node.identifierText?]

theorem literalText? : (n.spellOut σ place).literalText? = n.literalText? := by
  rw [Node.literalText?, h.shape, Node.literalText?]

end IsSpelled

/-! Parts and keys are never taken as a whole. -/

@[simp] theorem form_spellOut_part : (n.spellOut σ .part).form = n.form.spellOut σ .part n.kind :=
  isSpelled_part.form

theorem form_spellOut_key : (n.spellOut σ .key).form = n.form.spellOut σ (Position.key.resolve n) n.kind :=
  isSpelled_key.form

@[simp] theorem form_spellOut_kept : (n.spellOut σ .kept).form = n.form.spellOut σ .kept n.kind :=
  isSpelled_kept.form

@[simp] theorem kind_spellOut_part : (n.spellOut σ .part).kind = n.kind := isSpelled_part.kind

@[simp] theorem identifierText?_spellOut_part : (n.spellOut σ .part).identifierText? = n.identifierText? :=
  isSpelled_part.identifierText?

@[simp] theorem identifierText?_spellOut_key : (n.spellOut σ .key).identifierText? = n.identifierText? :=
  isSpelled_key.identifierText?

/-! A value is taken as a whole only if it is a name, and becomes one that is kept. -/

theorem value_cases (σ : Substitution) (n : Node) :
    n.IsSpelled σ .value ∨
      ∃ a, n.isName = true ∧ σ.expression n = some a ∧ n.spellOut σ .value = Made.kept a := by
  by_cases name : n.isName = true
  · cases found : σ.expression n with
    | none => exact .inl (isSpelled_value fun _ => found)
    | some a => exact .inr ⟨a, name, rfl, spellOut_name name found⟩
  · exact .inl (isSpelled_value fun h => absurd h name)

theorem IsSpelled.unreplaced (h : n.IsSpelled σ .value) (name : n.isName = true) : σ.expression n = none := by
  change (if n.isName then (σ.expression n).map Made.kept else none) = none at h
  rw [if_pos name] at h
  exact Option.map_eq_none_iff.mp h

/-- The name of a member is taken as a whole only if something stands for it, and keeps that. -/
theorem shorthand_cases (σ : Substitution) (n : Node) :
    (n.IsSpelled σ .shorthand ∧ (n.isName = true → σ.expression n = none)) ∨
      ∃ a, n.isName = true ∧ σ.expression n = some a ∧
        n.spellOut σ .shorthand = n.withOrigin (Made.kept a) := by
  have whole : σ.whole? (Position.shorthand.resolve n) n =
      if n.isName then (σ.expression n).map (n.withOrigin <| Made.kept ·) else none := rfl
  by_cases name : n.isName = true
  · rw [if_pos name] at whole
    cases found : σ.expression n with
    | none => exact .inl ⟨whole.trans (by rw [found, Option.map_none]), fun _ => rfl⟩
    | some a => exact .inr ⟨a, name, rfl, spellOut_whole (whole.trans (by rw [found, Option.map_some]))⟩
  · rw [if_neg name] at whole
    exact .inl ⟨whole, fun h => absurd h name⟩

theorem identifierText?_withOrigin (m : Node) : (n.withOrigin m).identifierText? = n.identifierText? := by
  cases n
  rfl

@[simp] theorem identifierText?_spellOut_shorthand :
    (n.spellOut σ .shorthand).identifierText? = n.identifierText? := by
  rcases shorthand_cases σ n with ⟨spelled, -⟩ | ⟨a, -, -, is⟩
  · exact spelled.identifierText?
  · rw [is, identifierText?_withOrigin]

theorem kind_of_isName (name : n.isName = true) : n.kind = .identifier :=
  beq_iff_eq.mp (Bool.and_eq_true_iff.mp name).1

theorem form_of_isName (name : n.isName = true) : ∃ text word, n.form = .identifier text word := by
  have form := (Bool.and_eq_true_iff.mp name).2
  split at form
  · exact ⟨_, _, ‹_›⟩
  · cases form

theorem kind_spellOut_value {k : Kind} (identifier : k ≠ .identifier)
    (kept : k ≠ .partiallyEmittedExpression) : ((n.spellOut σ .value).kind == k) = (n.kind == k) := by
  rcases value_cases σ n with spelled | ⟨a, name, found, is⟩
  · rw [spelled.kind]
  · rw [is, kind_of_isName name, beq_false_of_ne identifier.symm]
    exact beq_false_of_ne kept.symm

end Node

end ScriptFrontend
