import ScriptFrontend.Proofs.Print.Spelled
import ScriptFrontend.Proofs.Tree.Form

/-!
# Printing what is spelled out

Two computations agree if the one writes for trees that are spelled out, with what is left of the
substitution, what the other writes for the trees themselves. There is a rule for each way to put
computations together. What is copied is written as it was. Patterns and elements keep their form; the
values in them are spelled out.
-/

namespace ScriptFrontend

open Node

variable {σ : Substitution} {place : Position} {α β : Type}

inductive IsAccess : Node → Prop
  | name (text : String) : IsAccess (Made.identifier text)
  | text (text : String) : IsAccess (Made.stringLiteral text)
  | member {e : Node} (object : IsAccess e) (name : String) : IsAccess (Made.member e name)
  | element {e index : Node} (object : IsAccess e) (argument : IsAccess index) :
      IsAccess (Made.element e index)

/-- What stands for a name is an access, and nothing stands for an access. -/
structure Substitution.NamesAccesses (σ : Substitution) : Prop where
  access : ∀ n a, n.isName = true → σ.expression n = some a → IsAccess a
  plain : ∀ a, IsAccess a → σ.expression a = .none

/-- The second printing writes for what is spelled out what the first one writes. -/
structure Spells (σ : Substitution) (p p' : Printing) : Prop where
  accesses : σ.NamesAccesses
  style : p'.style = p.style
  source : p'.source = p.source
  substitution : p.substitution = σ
  rest : p'.substitution = σ.rest
  statement : ∀ n, p'.print .statement (n.spellOut σ .part) = p.print .statement n
  expression : ∀ n, p'.print .expression (n.spellOut σ .value) = p.print .expression n
  expression_kept : ∀ n, n.isName = false → p'.print .expression (n.spellOut σ .kept) = p.print .expression n
  whole : ∀ n, p'.print .wholeExpression (n.spellOut σ .value) = p.print .wholeExpression n
  settled : ∀ n, p'.print .settled (n.spellOut σ .kept) = p.print .settled n
  binding : ∀ place n, n.IsSpelled σ place → p'.print .binding (n.spellOut σ place) = p.print .binding n
  element : ∀ place n, n.IsSpelled σ place → p'.print .element (n.spellOut σ place) = p.print .element n
  access : ∀ a, IsAccess a → p'.print .expression a = p.print .expression a
  kept : ∀ a, IsAccess a → p'.print .settled a = p.print .expression a

/-- The first computation writes for what is spelled out what the second one writes. -/
class Agrees (σ : Substitution) (x' x : Print α) : Prop where
  holds : ∀ ⦃p p' : Printing⦄, Spells σ p p' → x' p' = x p

namespace Agrees

theorem seq {x' x : Print α} {f' f : α → Print β} (first : Agrees σ x' x)
    (rest : ∀ a, Agrees σ (f' a) (f a)) :
    Agrees σ (x' >>= f') (x >>= f) where
  holds p p' spells := by
    change (x' p' >>= fun a => f' a p') = x p >>= fun a => f a p
    rw [first.holds spells]
    exact congrArg _ (funext fun a => (rest a).holds spells)

instance pure (a : α) : Agrees σ (Pure.pure a : Print α) (Pure.pure a) := ⟨fun _ _ _ => rfl⟩

instance bind {x' x : Print α} {f' f : α → Print β} [first : Agrees σ x' x]
    [rest : ∀ a, Agrees σ (f' a) (f a)] :
    Agrees σ (x' >>= f') (x >>= f) :=
  .seq first rest

instance ite (c : Prop) {_ : Decidable c} (x' x y' y : Print α) [yes : Agrees σ x' x] [no : Agrees σ y' y] :
    Agrees σ (if c then x' else y') (if c then x else y) := by
  split
  · exact yes
  · exact no

instance forOption (f' f : α → Print Unit) (g : α → α) (x : Option α)
    [each : ∀ a, Agrees σ (f' (g a)) (f a)] :
    Agrees σ ((x.map g).forM f') (x.forM f) := by
  cases x with
  | none => exact pure ()
  | some a => exact each a

instance forOption_same (f' f : α → Print Unit) (x : Option α) [each : ∀ a, Agrees σ (f' a) (f a)] :
    Agrees σ (x.forM f') (x.forM f) := by
  cases x with
  | none => exact pure ()
  | some a => exact each a

instance forList (f' f : α → Print Unit) (g : α → α) (xs : List α) [each : ∀ a, Agrees σ (f' (g a)) (f a)] :
    Agrees σ ((xs.map g).forM f') (xs.forM f) := by
  induction xs with
  | nil => exact pure ()
  | cons a rest ih => exact .seq (each a) fun _ => ih

instance forList_same (f' f : α → Print Unit) (xs : List α) [each : ∀ a, Agrees σ (f' a) (f a)] :
    Agrees σ (xs.forM f') (xs.forM f) := by
  have (a : α) : Agrees σ (f' (id a)) (f a) := each a
  simpa using forList f' f id xs

instance loop (f' f : α → β → Print (ForInStep β)) (g : α → α) (xs : List α) (b : β)
    [each : ∀ a b, Agrees σ (f' (g a) b) (f a b)] :
    Agrees σ (forIn (xs.map g) b f') (forIn xs b f) := by
  induction xs generalizing b with
  | nil => exact pure b
  | cons a rest ih =>
    rw [List.map_cons, List.forIn_cons, List.forIn_cons]
    refine .seq (each a b) fun step => ?_
    cases step with
    | done b => exact pure b
    | yield b => exact ih b

instance loop_same (f' f : α → β → Print (ForInStep β)) (xs : List α) (b : β)
    [each : ∀ a b, Agrees σ (f' a b) (f a b)] : Agrees σ (forIn xs b f') (forIn xs b f) := by
  have (a : α) (b : β) : Agrees σ (f' (id a) b) (f a b) := each a b
  simpa using loop f' f id xs b

/-! ### Writing -/

instance write (s : String) : Agrees σ (Print.write s) (Print.write s) := ⟨fun p p' spells => by
  change _ = (modify (·.write p.style s) : StateM Writer Unit)
  rw [← spells.style]
  rfl⟩

instance endLine : Agrees σ Print.endLine Print.endLine := ⟨fun p p' spells => by
  change _ = (modify (·.endLine p.style) : StateM Writer Unit)
  rw [← spells.style]
  rfl⟩

instance modifies (f : Writer → Writer) : Agrees σ (modify f : Print Unit) (modify f) := ⟨fun _ _ _ => rfl⟩

instance indented (x' x : Print Unit) [Agrees σ x' x] : Agrees σ (Print.indented x') (Print.indented x) := by
  unfold Print.indented
  infer_instance

instance braced (x' x : Print Unit) [Agrees σ x' x] : Agrees σ (Print.braced x') (Print.braced x) := by
  unfold Print.braced
  infer_instance

instance separated (separator : String) (f' f : Node → Print Unit) (g : Node → Node) (ns : List Node)
    [each : ∀ n, Agrees σ (f' (g n)) (f n)] :
    Agrees σ (Print.separated separator f' (ns.map g)) (Print.separated separator f ns) := by
  induction ns with
  | nil => exact pure ()
  | cons n rest ih =>
    cases rest with
    | nil => exact each n
    | cons m rest =>
      change Agrees σ
        (f' (g n) >>= fun _ => _ >>= fun _ => Print.separated separator f' ((m :: rest).map g)) _
      exact .seq (each n) fun _ => .seq (write separator) fun _ => ih

instance separated_same (separator : String) (f' f : Node → Print Unit) (ns : List Node)
    [each : ∀ n, Agrees σ (f' n) (f n)] :
    Agrees σ (Print.separated separator f' ns) (Print.separated separator f ns) := by
  have (n : Node) : Agrees σ (f' (id n)) (f n) := each n
  simpa using separated separator f' f id ns

/-! ### Printing in a role -/

instance expression (n : Node) : Agrees σ (Print.expression (n.spellOut σ .value)) (Print.expression n) :=
  ⟨fun _ _ spells => spells.expression n⟩

theorem expression_kept {n : Node} (other : n.isName = false) :
    Agrees σ (Print.expression (n.spellOut σ .kept)) (Print.expression n) :=
  ⟨fun _ _ spells => spells.expression_kept n other⟩

instance statement (n : Node) : Agrees σ (Print.statement (n.spellOut σ .part)) (Print.statement n) :=
  ⟨fun _ _ spells => spells.statement n⟩

instance wholeExpression (n : Node) :
    Agrees σ (Print.printAs .wholeExpression (n.spellOut σ .value)) (Print.printAs .wholeExpression n) :=
  ⟨fun _ _ spells => spells.whole n⟩

instance settled (n : Node) :
    Agrees σ (Print.printAs .settled (n.spellOut σ .kept)) (Print.printAs .settled n) :=
  ⟨fun _ _ spells => spells.settled n⟩

theorem binding_of {n : Node} (h : n.IsSpelled σ place) :
    Agrees σ (Print.printAs .binding (n.spellOut σ place)) (Print.printAs .binding n) :=
  ⟨fun _ _ spells => spells.binding place n h⟩

instance binding (n : Node) :
    Agrees σ (Print.printAs .binding (n.spellOut σ .part)) (Print.printAs .binding n) :=
  binding_of Node.isSpelled_part

theorem element_of {n : Node} (h : n.IsSpelled σ place) :
    Agrees σ (Print.printAs .element (n.spellOut σ place)) (Print.printAs .element n) :=
  ⟨fun _ _ spells => spells.element place n h⟩

instance element (n : Node) :
    Agrees σ (Print.printAs .element (n.spellOut σ .part)) (Print.printAs .element n) :=
  element_of Node.isSpelled_part

end Agrees

/-! ## Names, patterns and elements -/

variable {n : Node}

theorem Node.textIn_of_head {m : Node} (same : m.head = n.head) (source : String) :
    m.textIn source = n.textIn source := by
  rw [textIn, textIn, isSynthesized, isSynthesized, flags, flags, pos, pos, stop, stop, same]

theorem Print.name_withOrigin (n m : Node) : name (n.withOrigin m) = name n := by
  cases n
  rfl

theorem Node.fullText_of_head {m : Node} (same : m.head = n.head) (source : String) :
    m.fullText source = n.fullText source := by
  rw [fullText, fullText, pos, pos, stop, stop, same]

theorem Node.shape_of_literal {text : String} {raw : Option String} {flags : TokenFlags}
    (form : n.form = .literal text raw flags) : n.shape = .literal text raw flags := by
  rcases Form.shape_ofLayout n.shape n.slots with same | token
  · exact same.symm.trans (congrArg Form.shape form)
  · cases form.symm.trans token

namespace Agrees

/-! ### Names and literals -/

theorem name_of (h : n.IsSpelled σ place) : Agrees σ (Print.name (n.spellOut σ place)) (Print.name n) := by
  rw [Print.name, Print.name, h.identifierText?, h.kind]
  infer_instance

instance name : Agrees σ (Print.name n) (Print.name n) := by
  unfold Print.name
  infer_instance

instance name_part : Agrees σ (Print.name (n.spellOut σ .part)) (Print.name n) := name_of isSpelled_part

instance name_key : Agrees σ (Print.name (n.spellOut σ .key)) (Print.name n) := name_of isSpelled_key

theorem writeSource_of {m : Node} (same : m.head = n.head) :
    Agrees σ (Print.writeSource m) (Print.writeSource n) := ⟨fun p p' spells => by
  change Print.write (m.textIn p'.source) p' = Print.write (n.textIn p.source) p
  rw [spells.source, textIn_of_head same]
  exact (write _).holds spells⟩

instance writeSource : Agrees σ (Print.writeSource n) (Print.writeSource n) := writeSource_of rfl

theorem literal_of (h : n.IsSpelled σ place) (kept : n.shape.keepsText (place.resolve n) = true) :
    Agrees σ (Print.literal (n.spellOut σ place)) (Print.literal n) := by
  rw [Print.literal, Print.literal, h.isSynthesized, h.literalText?, h.kind]
  have := writeSource_of (σ := σ) (h.head kept)
  dsimp only
  infer_instance

instance literal : Agrees σ (Print.literal n) (Print.literal n) := by
  unfold Print.literal
  dsimp only
  infer_instance

instance exportedName : Agrees σ (Print.exportedName n) (Print.exportedName n) := by
  unfold Print.exportedName
  infer_instance

instance propertyName : Agrees σ (Print.propertyName (n.spellOut σ .key)) (Print.propertyName n) := by
  rw [Print.propertyName, Print.propertyName, form_spellOut_key, Position.resolve]
  cases form : n.form
  case identifier => exact name_of isSpelled_key
  case literal =>
    exact literal_of isSpelled_key (by rw [Position.resolve, form, shape_of_literal form]; rfl)
  case wrapped e =>
    dsimp only [Form.spellOut]
    rw [Position.inside_part]
    infer_instance
  all_goals
    rw [← spellOut_resolve, Position.resolve, form]
    exact expression_kept (by simp [isName, form])

/-! ### Patterns -/

instance initializer (value : Option Node) :
    Agrees σ (Print.initializer (value.map (·.spellOut σ .value))) (Print.initializer value) := by
  unfold Print.initializer
  infer_instance

instance bindingElement : Agrees σ (Print.bindingElement (n.spellOut σ .part)) (Print.bindingElement n) := by
  rw [Print.bindingElement, Print.bindingElement, form_spellOut_part]
  cases n.form
  all_goals
    dsimp only [Form.spellOut]
    infer_instance

instance closeHole (items : List Node) :
    Agrees σ (Print.closeHole (items.map (·.spellOut σ .part))) (Print.closeHole items) := by
  have same : (items.map (·.spellOut σ .part)).getLast?.any (·.kind == .omittedExpression) =
      items.getLast?.any (·.kind == .omittedExpression) := by
    rw [List.getLast?_map, Option.any_map]
    exact congrArg (items.getLast?.any ·) (funext fun n => congrArg (· == _) kind_spellOut_part)
  rw [Print.closeHole, Print.closeHole, same]
  infer_instance

theorem bindingName_of (h : n.IsSpelled σ place) :
    Agrees σ (Print.bindingName (n.spellOut σ place)) (Print.bindingName n) := by
  have name := name_of h
  rw [Print.bindingName, Print.bindingName, h.form, h.kind]
  generalize n.form = form
  cases kind : n.kind
  case objectBindingPattern | arrayBindingPattern =>
    cases form
    case list =>
      have item : (place.resolve n).item n.kind = .part := by
        rw [kind]
        cases place.resolve n <;> rfl
      rw [kind] at item
      simp only [Form.spellOut, item, NodeList.isEmpty_spellOut, NodeList.items_spellOut]
      infer_instance
    all_goals exact name
  all_goals exact name

end Agrees

end ScriptFrontend
