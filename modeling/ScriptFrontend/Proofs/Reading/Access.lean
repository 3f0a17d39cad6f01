import ScriptFrontend.Grammar.Access
import ScriptFrontend.Grammar.Primary
import ScriptFrontend.Proofs.Reading.Type

/-!
# Reading accesses, calls and primary expressions

Each access or call behind an operand passes a token: the dot, the bracket, the template or the mark
that it begins with. An expression between brackets is read behind the opening one, and a function or a
class behind its word. Members of objects are read behind the brace.
-/

namespace ScriptFrontend

open Parse

set_option synthInstance.maxSize 4096

variable {D : Discipline} {m : World D}

/-! ## Arguments -/

instance [m.Free] : Runs D m arrayElement := by
  unfold arrayElement
  refine .seq_token ?_
  split
  · have : m.Shows .dotDotDotToken := ⟨‹_›⟩
    infer_instance
  all_goals infer_instance

instance [m.Free] : Runs D m argument := by
  unfold argument
  infer_instance

instance [m.Ready .openParenToken] : Runs D m arguments := by
  unfold arguments
  infer_instance

instance [m.Shows .openParenToken] : Steps D m arguments := by
  unfold arguments
  exact ⟨inferInstance⟩

instance : Advances D m expressionTypeArguments? := by
  unfold expressionTypeArguments?
  refine @Advances.attempt _ _ _ _ (.seq_peeks inferInstance fun js =>
    .choose (fun _ => inferInstance) fun _ => @Reads.bind_scans _ _ _ _ _ _ inferInstance fun w => ?_)
  refine .choose (fun less => ?_) fun _ => inferInstance
  have : w.world.Live := .of_token (beq_iff_eq.mp less)
  infer_instance

/-! ## Templates -/

instance : Peeks D m isTemplateStart := by
  unfold isTemplateStart
  infer_instance

instance (priority := 1300) Reads.bind_isTemplateStart_ite {α : Type} {Q : World D → α → Prop}
    (p q : Parse α) [yes : ∀ w : Alive m, Reads D Q w.world p] [no : Reads D Q m q] :
    Reads D Q m (isTemplateStart >>= fun x => if x = true then p else q) := by
  unfold isTemplateStart
  exact .ask_tokenIn rfl yes no

instance (isTagged : Bool) [m.Live] : Steps D m (templateExpression isTagged) := by
  unfold templateExpression
  infer_instance

instance (pos : Nat) (tag : Node) (questionDot : Option Node) (typeArguments : Option NodeList)
    [m.Live] : Steps D m (taggedTemplate pos tag questionDot typeArguments) := by
  unfold taggedTemplate
  dsimp only
  exact ⟨inferInstance⟩

/-! ## Members and elements -/

instance (allowChain : Bool) : Advances D m (chainMark? allowChain) := by
  unfold chainMark? isOptionalAccess
  exact ⟨inferInstance⟩

instance : Passes D m (passMemberDot false) := by
  unfold passMemberDot
  rw [if_neg Bool.false_ne_true]
  infer_instance

instance (chained : Bool) : Runs D m (passMemberDot chained) := by
  unfold passMemberDot
  infer_instance

instance (chained : Bool) : Passes D m (passElementBracket chained) := by
  unfold passElementBracket
  exact ⟨inferInstance⟩

instance (pos : Nat) (e : Node) (questionDot : Option Node) :
    Runs D m (propertyAccess pos e questionDot) := by
  unfold propertyAccess
  dsimp only
  refine @Reads.bind _ _ _ _ _ _ _ inferInstance fun w name => ?_
  split <;> infer_instance

instance (pos : Nat) (e : Node) (questionDot : Option Node) [m.Free] :
    Runs D m (elementAccess pos e questionDot) := by
  unfold elementAccess
  dsimp only
  refine .seq_peeks inferInstance fun closes => .choose (fun _ => inferInstance) fun _ =>
    @Reads.bind _ _ _ _ _ _ _ inferInstance fun w index => .choose (fun _ => ?_) fun _ => inferInstance
  split <;> infer_instance

instance (pos : Nat) (e : Node) (allowChain : Bool) :
    Reads D (BehindIfSome m.offset) m (memberStep? pos e allowChain) := by
  unfold memberStep?
  refine .seq_advances inferInstance ?_ fun w mark => ?_
  · simp only [Option.isSome_none, Bool.false_eq_true, if_false]
    rcases e.instantiation? with _ | ⟨callee, given⟩ <;> dsimp only <;> infer_instance
  · simp only [Option.isSome_some, if_true]
    infer_instance

instance (pos : Nat) (e : Node) (allowChain : Bool) : Runs D m (memberRest pos e allowChain) := by
  unfold memberRest
  dsimp only
  infer_instance

/-! ## Calls -/

instance (pos : Nat) (e : Node) : Runs D m (callRest pos e) := by
  unfold callRest
  dsimp only
  refine @Reads.bind _ _ _ _ _ _ _ (Runs.rounds fun w e => ?_) fun w e => inferInstance
  refine @Reads.bind _ _ _ _ _ _ _ inferInstance fun v e => .seq_advances inferInstance ?_ fun u mark => ?_
  · simp only [Option.isSome_none, Bool.false_eq_true, if_false, Option.isNone_none, if_true]
    rcases e.instantiation? with _ | ⟨callee, given⟩ <;> dsimp only <;> infer_instance
  · simp only [Option.isSome_some, if_true, Option.isNone_some, Bool.false_eq_true, if_false]
    infer_instance

instance [m.Ready .openParenToken] : Runs D m parenthesizedExpression := by
  unfold parenthesizedExpression
  infer_instance

instance [m.Shows .openBracketToken] : Steps D m arrayLiteral := by
  unfold arrayLiteral
  infer_instance

/-! ## Objects -/

instance [m.Allows (.assignment true)] : Runs D m freeAssignment := by
  unfold freeAssignment
  infer_instance

section

variable (l : Lead) [D.Leads l]

instance (mayBeShorthand : Bool) (name : Node) (question exclamation : Option Node) [m.Free] :
    Runs D m (propertyAssignment l mayBeShorthand name question exclamation) := by
  unfold propertyAssignment
  dsimp only
  infer_instance

end

instance [m.Free] : Runs D m objectMember := by
  unfold objectMember
  dsimp only
  infer_instance

instance [m.Shows .openBraceToken] : Steps D m objectLiteral := by
  unfold objectLiteral
  infer_instance

/-! ## Functions, classes and objects that are made -/

/-- Either nothing was read, or there are items and a token was passed. -/
def Grown (m : World D) (before : Array Node) : World D → Array Node → Prop :=
  fun w items => (items = before ∧ w = m) ∨ (items.isEmpty = false ∧ m.offset < w.offset)

theorem Parse.modifiersAfter_reads (mode : ModifierMode) (before : Array Node) :
    Reads D (Grown m before) m (modifiersAfter mode before) := by
  unfold modifiersAfter
  dsimp only
  refine .seq (.rounds (I := Grown m before) (J := Grown m before) (.inl ⟨rfl, rfl⟩)
    fun w items grown => ?_) fun w items grown => ⟨fun _ => .pure grown⟩
  refine .seq_advances inferInstance ⟨fun _ => .pure (.done grown)⟩ fun v read => ?_
  refine ⟨fun _ => .pure (.yield (.inr ⟨?_, ?_⟩) v.past)⟩
  · exact Array.isEmpty_eq_false_iff.mpr Array.push_ne_empty
  · exact Nat.lt_of_le_of_lt w.before.offset v.past

instance : Advances D m (modifiers {}) := by
  unfold modifiers moreModifiers
  refine ⟨.seq_nodePos ?_⟩
  simp only [Bool.false_eq_true, if_false, pure_bind, Bool.false_and]
  refine .seq (modifiersAfter_reads _ _) fun w items read => ?_
  rcases read with ⟨rfl, same⟩ | ⟨some, past⟩
  · rw [same]
    exact Reads.advanced_none
  · have : w.world.After m.offset := ⟨past⟩
    rw [some, if_neg Bool.false_ne_true]
    infer_instance

instance [shows : m.Shows .asyncKeyword] : Steps D m bindingIdentifier? := by
  unfold bindingIdentifier? isBindingIdentifier
  refine ⟨.seq_look (x := true) (fun g s stands => ?_) ?_⟩
  · change (_, s) = (true, s)
    rw [stands.token, shows.token]
    rfl
  · rw [if_pos rfl]
    infer_instance

instance [m.Shows .functionKeyword] : Runs D m functionExpression := by
  unfold functionExpression
  dsimp only
  infer_instance

instance [m.Shows .asyncKeyword] : Runs D m functionExpression := by
  unfold functionExpression
  refine @Reads.outside _ _ _ _ _ _ (@Reads.bind_lead _ _ _ _ _ fun l =>
    .seq_advances inferInstance (.seq_require _ (fun w => inferInstance) ?_) fun w read => inferInstance)
  refine .seq_advances inferInstance ?_ fun w asterisk => inferInstance
  infer_instance

instance [m.Ready .classKeyword] : Runs D m classExpression := by
  unfold classExpression
  infer_instance

instance : Runs D m decoratedExpression := by
  unfold decoratedExpression
  dsimp only
  infer_instance

instance [m.Ready .newKeyword] : Runs D m (newExpression (call .primary)) := by
  unfold newExpression
  dsimp only
  infer_instance

/-! ## Primary expressions -/

instance : Runs D m primary := by
  unfold primary
  refine .seq_token ?_
  split
  all_goals first
    | infer_instance
    | have : m.Live := .of_token ‹_›
      infer_instance
    | have : m.Shows _ := ⟨‹m.token = _›⟩
      infer_instance

end ScriptFrontend
