import ScriptFrontend.Grammar.Binding
import ScriptFrontend.Grammar.Modifier
import ScriptFrontend.Proofs.Making.Finish

/-!
# Nodes of lists and names

Each element of a list is taken over from an old tree or read. Literals, names, modifiers and bindings make
their nodes.
-/

namespace ScriptFrontend

open Diagnostic (Fault)
open Parse

set_option synthInstance.maxSize 4096

variable {W : Type} [Course W] {lo : Nat} {w : W} [AtMost W lo (Course.offset w)]

/-! ## Elements -/

instance (context : ListContext) (read : Parse (Option Node)) [reads : ∀ w : W, Makes (Course.offset w) w read] :
    Makes lo w (element? context read) where
  holds {g} link s stands := by
    have : Still W (modify fun s => { s with
        counts := { s.counts with reparsed := s.counts.reparsed + 1 } } : Parse Unit) :=
      .notes fun _ => ⟨rfl, rfl, rfl, rfl, fun _ => id, .refl _, rfl, id⟩
    have fresh (b : W) : Makes (Course.offset b) b (readElement context read) := by
      unfold readElement
      dsimp only
      infer_instance
    have run : element? context read g s = (match (oldElement? context g s).1 with
        | some n => some <$> takeOver n
        | none => readElement context read : Parse (Option Node)) g (oldElement? context g s).2 := rfl
    rw [run]
    rcases found : oldElement? context g s with ⟨_ | n, t⟩
    · have look : Still W (oldElement? context) := inferInstance
      have stands' := Course.moves stands (look.leads g s)
      rw [found] at stands'
      exact ((fresh w).lower inferInstance).holds link stands'
    · obtain ⟨b, before, holds, stands'⟩ := Course.take stands found
      have built : Built (Course.offset w) b n := .of_node holds
      have low : AtMost W lo (Course.offset w) := inferInstance
      have := built.lower low
      exact ⟨⟨b, before, some n, inferInstance⟩, rfl, stands'⟩

/-! ## Lists -/

instance (items : Array Node) (x : Option Node) [Built lo w items] [h : Built lo w x] :
    Built lo w (pushSome items x) := by
  cases x with
  | none => assumption
  | some n =>
    have : Built lo w n := ⟨h.holds⟩
    exact inferInstanceAs (Built lo w (items.push n))

instance (context : ListContext) (read : Parse Node) [∀ w : W, Makes (Course.offset w) w read] :
    Makes lo w (listOf context read) := by
  unfold listOf
  dsimp only
  refine .seq_from fun pos => .seq_on (.withOpenList (.seq_on (.loop inferInstance fun items => ?_) inferInstance))
    inferInstance
  refine .seq_still inferInstance fun ends => .choose (fun _ => inferInstance) fun _ => ?_
  refine .seq_still inferInstance fun starts => .choose (fun _ => ?_) fun _ => inferInstance
  refine .seq_still inferInstance fun start => .seq_on inferInstance fun n => ?_
  exact .seq_still inferInstance fun stop => inferInstance

instance : Parted CommaItems := ⟨fun x => parts x.items⟩

instance (x : CommaItems) [h : Built lo w x] : Built lo w x.items := ⟨h.holds⟩

instance (items : Array Node) (endsInComma failed : Bool) [h : Built lo w items] :
    Built lo w (⟨items, endsInComma, failed⟩ : CommaItems) :=
  ⟨h.holds⟩

instance (context : ListContext) (read : Parse (Option Node)) (allowSemicolons : Bool)
    [∀ w : W, Makes (Course.offset w) w read] : Makes lo w (commaItems context read allowSemicolons) := by
  unfold commaItems
  dsimp only
  infer_instance

instance (context : ListContext) (read : Parse (Option Node)) (allowSemicolons : Bool)
    [∀ w : W, Makes (Course.offset w) w read] : Makes lo w (commaListOf? context read allowSemicolons) := by
  unfold commaListOf?
  refine .seq_from fun pos => .seq_on inferInstance fun l => .choose (fun _ => inferInstance) fun _ => ?_
  exact .seq_here fun stop => inferInstance

instance (context : ListContext) (read : Parse Node) (allowSemicolons : Bool)
    [∀ w : W, Makes (Course.offset w) w read] : Makes lo w (commaListOf context read allowSemicolons) := by
  unfold commaListOf
  infer_instance

instance (context : ListContext) (read : Parse Node) (opening closing : Kind)
    [∀ w : W, Makes (Course.offset w) w read] : Makes lo w (bracketedList context read opening closing) := by
  unfold bracketedList
  infer_instance

/-! ## Names -/

instance (mode : ModifierMode) (seenStatic : Bool) : Makes lo w (modifier? mode seenStatic) := by
  unfold modifier?
  infer_instance

instance : Makes lo w decorator? := by
  unfold decorator?
  infer_instance

instance (mode : ModifierMode) (before : Array Node) [Built lo w before] :
    Makes lo w (modifiersAfter mode before) := by
  unfold modifiersAfter
  infer_instance

instance (before : Array Node) [Built lo w before] : Makes lo w (decoratorsAfter before) := by
  unfold decoratorsAfter
  infer_instance

instance (mode : ModifierMode) (decorators : Nat) (items : Array Node) [Built lo w items] :
    Makes lo w (moreModifiers mode decorators items) := by
  unfold moreModifiers
  infer_instance

instance (mode : ModifierMode) : Makes lo w (modifiers mode) := by
  unfold modifiers
  infer_instance

instance (kind : Kind) : Makes lo w (literalOf kind) := by
  unfold literalOf
  infer_instance

instance : Makes lo w literal := by
  unfold literal
  infer_instance

instance : Makes lo w nameLiteral := by
  unfold nameLiteral
  refine .seq_new inferInstance fun n => ?_
  split <;> infer_instance

instance : Makes lo w assignment := by
  unfold assignment
  infer_instance

instance : Makes lo w expressionSequence := by
  unfold expressionSequence
  infer_instance

instance : Makes lo w freeExpression := by
  unfold freeExpression
  infer_instance

instance : Makes lo w initializer? := by
  unfold initializer?
  infer_instance

instance : Makes lo w computedName := by
  unfold computedName
  infer_instance

instance : Makes lo w propertyName := by
  unfold propertyName
  refine .seq_still inferInstance fun k => ?_
  split <;> infer_instance

instance : Makes lo w bindingIdentifier? := by
  unfold bindingIdentifier?
  infer_instance

instance : Makes lo w importAttribute := by
  unfold importAttribute
  infer_instance

instance (word : Option Kind) : Makes lo w (importAttributes word) := by
  unfold importAttributes
  cases word <;> dsimp only <;> infer_instance

instance : Makes lo w importAttributes? := by
  unfold importAttributes?
  infer_instance

instance : Makes lo w objectBindingElement := by
  unfold objectBindingElement
  infer_instance

instance : Makes lo w arrayBindingElement := by
  unfold arrayBindingElement
  infer_instance

instance (kind : Kind) (context : ListContext) (read : Parse Node) (opening closing : Kind)
    [∀ w : W, Makes (Course.offset w) w read] :
    Makes lo w (bindingPattern kind context read opening closing) := by
  unfold bindingPattern
  infer_instance

instance (privateFault : Option Fault) : Makes lo w (nameOrPattern privateFault) := by
  unfold nameOrPattern
  refine .seq_still inferInstance fun k => ?_
  cases privateFault <;> split <;> infer_instance

end ScriptFrontend
