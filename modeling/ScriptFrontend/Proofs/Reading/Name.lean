import ScriptFrontend.Grammar.Modifier
import ScriptFrontend.Grammar.Name
import ScriptFrontend.Grammar.Signature
import ScriptFrontend.Proofs.Reading.Lead
import ScriptFrontend.Proofs.Reading.Lists

/-!
# Reading names, modifiers and signatures

A literal passes its token. A modifier that is read has been passed. In signatures, what stands between
brackets is read behind the opening one, where any nonterminal may be called.
-/

namespace ScriptFrontend

open Parse

set_option synthInstance.maxSize 4096

variable {D : Discipline} {m : World D}

/-! ## Literals -/

instance (kind : Kind) : Peeks D m (templateText kind) := by
  unfold templateText
  infer_instance

instance (kind : Kind) : Runs D m (literalOf kind) := by
  unfold literalOf
  infer_instance

instance (kind : Kind) [m.Live] : Steps D m (literalOf kind) := by
  unfold literalOf
  exact ⟨inferInstance⟩

instance : Runs D m literal := by
  unfold literal
  infer_instance

instance [m.Live] : Steps D m literal := by
  unfold literal
  exact ⟨inferInstance⟩

instance : Runs D m nameLiteral := by
  unfold nameLiteral
  dsimp only
  refine @Reads.bind _ _ _ _ _ _ _ inferInstance fun w n => ?_
  split <;> infer_instance

/-! ## Expressions -/

instance [m.Allows (.assignment true)] : Runs D m assignment := by
  unfold assignment
  infer_instance

instance [m.Allows (.assignment true)] : Runs D m expressionSequence := by
  unfold expressionSequence
  dsimp only
  infer_instance

instance [m.Allows (.assignment true)] : Runs D m freeExpression := by
  unfold freeExpression
  infer_instance

instance : Runs D m initializer? := by
  unfold initializer?
  infer_instance

/-! ## Names of properties -/

instance [m.Ready .openBracketToken] : Runs D m computedName := by
  unfold computedName
  infer_instance

instance : Runs D m propertyName := by
  unfold propertyName
  refine .seq_token ?_
  split
  case h_4 => 
    have : m.Shows .openBracketToken := ⟨‹_›⟩
    infer_instance
  all_goals infer_instance

instance : Runs D m bindingIdentifier? := by
  unfold bindingIdentifier?
  infer_instance

/-! ## Import attributes -/

instance [m.Free] : Runs D m importAttribute := by
  unfold importAttribute
  infer_instance

instance (word : Option Kind) [m.Free] : Runs D m (importAttributes word) := by
  unfold importAttributes
  cases word <;> dsimp only <;> infer_instance

instance [m.Free] : Runs D m importAttributes? := by
  unfold importAttributes?
  infer_instance

/-! ## Modifiers -/

instance [m.Live] : Reads D (Behind m.offset) m nextOnLineCanFollowModifier := by
  unfold nextOnLineCanFollowModifier
  infer_instance

instance [m.Live] : Reads D (Behind m.offset) m nextCanFollowDefault := by
  unfold nextCanFollowDefault
  refine @Reads.bind_skips _ _ _ _ _ _ inferInstance fun w => ?_
  split <;> infer_instance

instance [m.Live] : Reads D (Behind m.offset) m nextCanFollowModifier := by
  unfold nextCanFollowModifier nextTokenIs
  refine .seq_token ?_
  split
  case h_2 =>
    refine @Reads.bind_skips _ _ _ _ _ _ inferInstance fun w => ?_
    split <;> infer_instance
  all_goals infer_instance

instance (priority := 900) (p : Parse Bool) [r : Reads D (Behind m.offset) m p] :
    Passes D m (attemptTest p) :=
  .attemptTest (r.imp fun _ _ _ past _ => past)

instance (mode : ModifierMode) (seenStatic : Bool) : Passes D m (passModifier mode seenStatic) := by
  unfold passModifier
  dsimp only
  refine ⟨.seq_token ?_⟩
  have word : Reads D (Passed m) m
      (if m.token.isModifier = true then attemptTest nextCanFollowModifier else pure false) := by
    refine .choose (fun modifier => ?_) fun _ => inferInstance
    have : m.Live := .of_test modifier rfl
    infer_instance
  refine .choose (fun const => ?_) fun _ => inferInstance
  have : m.Live := .of_token (beq_iff_eq.mp (Bool.and_eq_true_iff.mp const).1)
  infer_instance

instance (mode : ModifierMode) (seenStatic : Bool) :
    Advances D m (modifier? mode seenStatic) := by
  unfold modifier?
  exact ⟨inferInstance⟩

instance : Advances D m decorator? := by
  unfold decorator?
  exact ⟨inferInstance⟩

instance (mode : ModifierMode) (before : Array Node) : Runs D m (modifiersAfter mode before) := by
  unfold modifiersAfter
  dsimp only
  infer_instance

instance (before : Array Node) : Runs D m (decoratorsAfter before) := by
  unfold decoratorsAfter
  dsimp only
  infer_instance

instance (mode : ModifierMode) (decorators : Nat) (items : Array Node) :
    Runs D m (moreModifiers mode decorators items) := by
  unfold moreModifiers
  infer_instance

instance (mode : ModifierMode) : Runs D m (modifiers mode) := by
  unfold modifiers
  dsimp only
  infer_instance

instance (modifiers : Option NodeList) (fault : Diagnostic.Fault) :
    Peeks D m (errorAtFirst modifiers fault) := by
  unfold errorAtFirst
  split <;> infer_instance

/-! ## Types -/

instance [m.Allows .type] : Runs D m type := by
  unfold type
  infer_instance

instance : Runs D m typeAnnotation? := by
  unfold typeAnnotation?
  infer_instance

instance : Runs D m predicateName? := by
  unfold predicateName?
  infer_instance

instance [m.Free] : Runs D m typeOrPredicate := by
  unfold typeOrPredicate
  dsimp only
  infer_instance

instance (mark : Kind) (isType : Bool) : Runs D m (passReturnMark mark isType) := by
  unfold passReturnMark
  infer_instance

instance (mark : Kind) (isType : Bool) [m.Free] : Runs D m (returnType? mark isType) := by
  unfold returnType?
  infer_instance

instance (isType : Bool) : Passes D m (passReturnMark .colonToken isType) := by
  unfold passReturnMark
  rw [if_neg (by decide)]
  refine ⟨.seq_passes inferInstance (fun w => Reads.passed_true) (.ask_token (fun w => ?_) fun _ => ?_)⟩
  · exact .choose (fun _ => inferInstance) fun _ => Reads.passed_false_shown w
  · rw [Bool.and_false]
    exact Reads.passed_false

instance (isType : Bool) : Advances D m (returnType? .colonToken isType) := by
  unfold returnType?
  exact ⟨inferInstance⟩

instance [m.Free] : Runs D m docType := by
  unfold docType
  dsimp only
  have path (w : Later m) : Runs D w.world (forIn rounds () fun _ _ => do
      if ← tokenIn [.closeBraceToken, .endOfFileToken, .commaToken, .whitespaceTrivia] then
        pure (.done ())
      else do
        let _ ← nextDocToken
        pure (.yield ())) := by
    refine .rounds fun v _ => .seq_tokenIn _ (.choose (fun _ => inferInstance) fun other => ?_)
    have : v.world.Live := .of_not_in other rfl
    infer_instance
  infer_instance

instance [m.Free] : Runs D m docParameter := by
  unfold docParameter
  infer_instance

/-! ## Type parameters and arguments -/

instance [m.Free] : Runs D m typeParameter := by
  unfold typeParameter
  dsimp only
  infer_instance

instance : Runs D m typeParameters? := by
  unfold typeParameters?
  infer_instance

instance : Runs D m typeArgumentList := by
  unfold typeArgumentList
  infer_instance

instance : Runs D m typeArguments? := by
  unfold typeArguments?
  infer_instance

instance : Runs D m typeArgumentsOfName? := by
  unfold typeArgumentsOfName?
  infer_instance

/-! ## Parameters -/

instance (modifiers : Option NodeList) [m.Free] : Runs D m (parameterName modifiers) := by
  unfold parameterName
  dsimp only
  infer_instance

instance (outerAwait guess : Bool) [m.Free] : Runs D m (parameter? outerAwait guess) := by
  unfold parameter?
  dsimp only
  infer_instance

instance (outerAwait : Bool) [m.Free] : Runs D m (parameter outerAwait) := by
  unfold parameter
  infer_instance

instance (mode : SignatureMode) (guess : Bool) [m.Free] :
    Runs D m (parameterList? mode guess) := by
  unfold parameterList?
  infer_instance

instance (mode : SignatureMode) : Runs D m (parameters mode) := by
  unfold parameters
  infer_instance

instance (mode : SignatureMode) [m.Shows .openParenToken] : Steps D m (parameters mode) := by
  unfold parameters
  exact ⟨inferInstance⟩

end ScriptFrontend
