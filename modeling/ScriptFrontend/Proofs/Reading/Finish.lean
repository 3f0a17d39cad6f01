import ScriptFrontend.Proofs.Reading.Context

/-!
# Finishing nodes and expecting tokens

Finishing a node leaves the reading where it is. Expecting a token that stands there passes it.

The tests that lists and statements are decided by leave the reading where it is. Those that look at
several tokens end, because they go on only past tokens that are not the end.
-/

namespace ScriptFrontend

open Diagnostic (Fault)
open Parse

variable {D : Discipline} {α : Type} {m : World D} {Q : World D → α → Prop}

/-! ## Finishing -/

instance (kind : Kind) (pos stop : Nat) (form : Form) : Peeks D m (finishAt kind pos stop form) where
  holds _ _ stands := ⟨stands.same rfl rfl rfl,
    ⟨rfl, rfl, rfl, rfl, rfl, rfl, rfl, List.Subset.refl _, List.prefix_refl _, id⟩, Nat.le_refl _, id⟩

instance (kind : Kind) (pos : Nat) (form : Form) : Peeks D m (finish kind pos form) := by
  unfold finish
  infer_instance

instance (items : Array Node) (pos : Nat) : Peeks D m (listFrom items pos) := by
  unfold listFrom
  infer_instance

instance : Peeks D m missingList := by
  unfold missingList
  infer_instance

instance (kind : Kind) (atNodePos : Bool) (fault : Fault) (args : List String) :
    Peeks D m (missingNode kind atNodePos fault args) := by
  unfold missingNode
  infer_instance

theorem Parse.missingNode_kind (kind : Kind) (atNodePos : Bool) (fault : Fault) (args : List String)
    (g : Productions) (s : ParserState) : (missingNode kind atNodePos fault args g s).1.kind = kind := by
  cases atNodePos <;> rfl

/-! ## Expected tokens -/

instance : Runs D m tokenNode := by
  unfold tokenNode
  infer_instance

instance [m.Live] : Steps D m tokenNode := by
  unfold tokenNode
  exact ⟨inferInstance⟩

instance (kind : Kind) (fault : Option Fault) : Peeks D m (errorExpected kind fault) := by
  unfold errorExpected
  split <;> infer_instance

instance (kind : Kind) (fault : Option Fault) : Peeks D m (expectWith kind fault false) := by
  unfold expectWith
  simp only [Bool.false_eq_true, if_false]
  infer_instance

instance (kind : Kind) (fault : Option Fault) [Holds kind.isSolid] :
    Passes D m (expectWith kind fault true) := by
  unfold expectWith
  dsimp only
  exact ⟨inferInstance⟩

instance (kind : Kind) [Holds kind.isSolid] : Passes D m (expect kind) := by
  unfold expect
  infer_instance

instance (kind : Kind) : Runs D m (require kind) := by
  unfold require expect expectWith
  dsimp only
  infer_instance

/-- What follows a token that is expected is read whether it stands there or not. -/
theorem Reads.seq_require (kind : Kind) {f : Unit → Parse α} [Holds kind.isSolid]
    (found : ∀ w : Past m, Reads D Q w.world (f ())) (missing : Reads D Q m (f ())) :
    Reads D Q m (require kind >>= f) := by
  change Reads D Q m (expect kind >>= fun _ => f ())
  exact .seq_passes inferInstance found missing

instance (kind : Kind) [Holds kind.isSolid] [ready : m.Ready kind] : Frees D m (require kind) := by
  rcases ready.ready with free | found
  · have : m.Free := ⟨free⟩
    exact ⟨inferInstance⟩
  · have : m.Shows kind := ⟨found⟩
    unfold require expect expectWith
    dsimp only
    refine ⟨.seq (R := AtLiberty) ?_ fun w _ free => ⟨fun _ => .pure free⟩⟩
    exact .ask_token (fun w => inferInstance) fun other => absurd found other

/-- Changing the last diagnostic that a reading added leaves those before as they are. -/
theorem peeks_of_explaining {p : Parse Unit} (r : Peeks D m p) (test : Bool) {f : Diagnostic → Diagnostic}
    (same : ∀ d, (f d).start? = d.start?) : Peeks D m (explaining test f p) where
  holds {g} link s stands := by
    obtain ⟨after, follows⟩ := r.holds link stands
    have run : explaining test f p g s =
        if test && (p g s).2.diagnostics.size != s.diagnostics.size then
          ((), { (p g s).2 with diagnostics := ((p g s).2.diagnostics.modifyLast f).2 })
        else ((), (p g s).2) := by
      change (if _ then _ else _ : Parse Unit) g (p g s).2 = _
      split <;> rfl
    rw [run]
    split
    · rename_i added
      have more : (p g s).2.diagnostics.size ≠ s.diagnostics.size :=
        bne_iff_ne.mp (Bool.and_eq_true_iff.mp added).2
      exact ⟨after.same rfl rfl rfl, { follows with
        diagnostics := Diagnostic.Collection.modifyLast_prefix follows.diagnostics more f
        distinct := fun distinct => (follows.distinct distinct).modifyLast same }⟩
    · exact ⟨after, follows⟩

instance (opening closing : Kind) (wasOpened : Bool) (openPos : Nat) :
    Runs D m (requireMatching opening closing wasOpened openPos) := by
  unfold requireMatching
  have related : Peeks D m (explaining wasOpened
      (·.addRelated ⟨openPos, 1⟩ Fault.matchingTokenExpected.message [tokenName closing, tokenName opening])
      (errorHere .expected [tokenName closing])) :=
    peeks_of_explaining inferInstance _ fun _ => rfl
  infer_instance

instance (kind : Kind) [Holds kind.isSolid] : Passes D m (Parse.optional kind) := by
  unfold Parse.optional
  exact ⟨inferInstance⟩

instance (kind : Kind) (fault : Option Fault) [Holds kind.isSolid] [m.Shows kind] :
    Steps D m (expectWith kind fault true) := by
  unfold expectWith
  exact ⟨.ask_token (fun w => inferInstance) fun other => absurd World.Shows.token other⟩

instance (kind : Kind) [Holds kind.isSolid] [m.Shows kind] : Steps D m (expect kind) := by
  unfold expect
  infer_instance

instance (kind : Kind) [Holds kind.isSolid] [m.Shows kind] : Steps D m (require kind) := by
  unfold require
  exact ⟨inferInstance⟩

instance (kind : Kind) [Holds kind.isSolid] [m.Shows kind] : Steps D m (Parse.optional kind) := by
  unfold Parse.optional
  exact ⟨.ask_token (fun w => inferInstance) fun other => absurd World.Shows.token other⟩

instance (kind : Kind) [Holds kind.isSolid] : Advances D m (optionalToken? kind) := by
  unfold optionalToken?
  exact ⟨inferInstance⟩

instance (kind : Kind) (fault : Option Fault) : Runs D m (expectedToken kind fault) := by
  unfold expectedToken
  cases fault <;> infer_instance

instance (kind : Kind) (fault : Option Fault) [Holds kind.isSolid] [m.Shows kind] :
    Steps D m (expectedToken kind fault) := by
  unfold expectedToken
  exact ⟨.ask_token (fun w => inferInstance) fun other => absurd World.Shows.token other⟩

theorem Peeks.expectedToken {kind : Kind} (fault : Option Fault) (other : m.token ≠ kind) :
    Peeks D m (Parse.expectedToken kind fault) := by
  unfold Parse.expectedToken
  refine .ask_token (fun w => absurd w.token other) ?_
  rw [if_neg Bool.false_ne_true]
  cases fault <;> infer_instance

instance : Peeks D m canEndStatement := by
  unfold canEndStatement
  infer_instance

instance : Runs D m trySemicolon := by
  unfold trySemicolon
  infer_instance

instance : Runs D m semicolon := by
  unfold semicolon
  infer_instance

/-! ## Names -/

instance (flag : NodeFlags) : Peeks D m (noteFileFlag flag) where
  holds _ _ stands := ⟨stands.same rfl rfl rfl,
    ⟨rfl, rfl, rfl, rfl, rfl, rfl, rfl, List.Subset.refl _, List.prefix_refl _, id⟩, Nat.le_refl _, id⟩

instance : Peeks D m countIdentifier where
  holds _ _ stands := ⟨stands.same rfl rfl rfl,
    ⟨rfl, rfl, rfl, rfl, rfl, rfl, rfl, List.Subset.refl _, List.prefix_refl _, id⟩, Nat.le_refl _, id⟩

instance (torn : Bool) : Peeks D m (noteTorn torn) where
  holds _ _ stands := ⟨stands.same rfl rfl rfl,
    ⟨rfl, rfl, rfl, rfl, rfl, rfl, rfl, List.Subset.refl _, List.prefix_refl _, id⟩, Nat.le_refl _, id⟩

instance (text : String) : Peeks D m (noteIdentifier text) where
  holds _ _ stands := ⟨stands.same rfl rfl rfl,
    ⟨rfl, rfl, rfl, rfl, rfl, rfl, rfl, List.Subset.refl _, List.prefix_refl _, id⟩, Nat.le_refl _, id⟩

instance : Peeks D m isIdentifier := by
  unfold isIdentifier
  infer_instance

instance : Runs D m takeIdentifier := by
  unfold takeIdentifier
  infer_instance

instance [m.Live] : Steps D m takeIdentifier := by
  unfold takeIdentifier
  exact ⟨inferInstance⟩

instance (mayBe : Bool) (fault : Option Fault) : Runs D m (identifierIf mayBe fault) := by
  unfold identifierIf
  cases fault <;> dsimp only <;> infer_instance

instance : Runs D m identifier := by
  unfold identifier
  infer_instance

instance (fault : Fault) : Runs D m (identifierOr fault) := by
  unfold identifierOr
  infer_instance

instance : Peeks D m isAnyWord := by
  unfold isAnyWord
  infer_instance

instance : Runs D m identifierName := by
  unfold identifierName
  infer_instance

instance : Runs D m privateName := by
  unfold privateName
  infer_instance

instance : Runs D m nextIsIdentifierOrWordOnLine := by
  unfold nextIsIdentifierOrWordOnLine
  infer_instance

instance (allowWords allowPrivate : Bool) : Runs D m (nameAfterDot allowWords allowPrivate) := by
  unfold nameAfterDot
  dsimp only
  infer_instance

instance (allowWords : Bool) (fault : Option Fault) : Runs D m (entityName allowWords fault) := by
  unfold entityName
  dsimp only
  infer_instance

/-! ## Tests on what stands ahead -/

-- A production is one instance for each step that it takes.
set_option synthInstance.maxSize 4096

instance (k : Kind) : Runs D m (nextTokenIs k) := by
  unfold nextTokenIs
  infer_instance

instance : Runs D m nextIsIdentifier := by
  unfold nextIsIdentifier
  infer_instance

instance : Runs D m nextIsIdentifierOrWord := by
  unfold nextIsIdentifierOrWord
  infer_instance

instance : Runs D m nextIsIdentifierOrStringOnLine := by
  unfold nextIsIdentifierOrStringOnLine
  infer_instance

instance : Runs D m nextIsClassOnLine := by
  unfold nextIsClassOnLine
  infer_instance

instance : Runs D m nextIsFunctionOnLine := by
  unfold nextIsFunctionOnLine
  infer_instance

instance : Runs D m nextIsWordOrLiteralOnLine := by
  unfold nextIsWordOrLiteralOnLine
  infer_instance

instance : Peeks D m isLiteralPropertyName := by
  unfold isLiteralPropertyName
  infer_instance

instance : Runs D m nextIsNumber := by
  unfold nextIsNumber
  infer_instance

instance (kinds : List Kind) : Runs D m (nextIsIn kinds) := by
  unfold nextIsIn
  infer_instance

/-! ## Expressions -/

instance : Peeks D m isBindingIdentifier := by
  unfold isBindingIdentifier
  infer_instance

instance : Peeks D m isBindingStart := by
  unfold isBindingStart
  infer_instance

instance : Peeks D m isLeftHandSideStart := by
  unfold isLeftHandSideStart
  infer_instance

instance : Peeks D m isBinaryOperator := by
  unfold isBinaryOperator
  infer_instance

instance : Peeks D m isExpressionStart := by
  unfold isExpressionStart
  infer_instance

instance : Peeks D m isExpressionStatementStart := by
  unfold isExpressionStatementStart
  infer_instance

/-! ## Types and parameters -/

instance (amongParameters : Bool) : Peeks D m (isOpenTypeStart amongParameters) := by
  unfold isOpenTypeStart
  refine @Peeks.bind _ _ _ _ _ _ inferInstance fun k => ?_
  split
  · infer_instance
  · split <;> infer_instance

instance : Peeks D m isUntypedParameterStart := by
  unfold isUntypedParameterStart
  infer_instance

instance [alive : m.Live] : Runs D m afterParenIsTypeStart := by
  unfold afterParenIsTypeStart
  dsimp only
  refine .seq (R := Any) (.rounds (I := AtLife) alive fun w _ alive => ?_) fun w x _ => ?_
  · have : w.world.Live := alive
    infer_instance
  · split <;> infer_instance

instance (amongParameters : Bool) : Peeks D m (isTypeStart amongParameters) := by
  unfold isTypeStart
  infer_instance

instance (isDoc : Bool) : Peeks D m (isParameterStart isDoc) := by
  unfold isParameterStart
  infer_instance

/-! ## Modifiers and members -/

instance : Peeks D m canFollowModifier := by
  unfold canFollowModifier
  infer_instance

instance : Runs D m nextOnLineCanFollowModifier := by
  unfold nextOnLineCanFollowModifier
  infer_instance

instance : Peeks D m canFollowExport := by
  unfold canFollowExport
  infer_instance

instance : Runs D m nextCanFollowExport := by
  unfold nextCanFollowExport
  infer_instance

instance : Runs D m nextCanFollowDefault := by
  unfold nextCanFollowDefault
  refine @Reads.bind_scans _ _ _ _ _ _ inferInstance fun w => ?_
  split <;> infer_instance

instance : Runs D m nextCanFollowModifier := by
  unfold nextCanFollowModifier
  refine Reads.seq_token ?_
  split
  case h_2 =>
    refine @Reads.bind_scans _ _ _ _ _ _ inferInstance fun w => ?_
    split <;> infer_instance
  all_goals infer_instance

instance : Runs D m isTypeMemberStart := by
  unfold isTypeMemberStart
  dsimp only
  have loop : Runs D m (forIn rounds false fun _ named => do
      let k ← token
      if k.isModifier = true then do
          let named := true
          skipToken
          pure (.yield named)
        else pure (.done named)) := by
    refine .rounds fun w named => .seq_token (.choose (fun modifier => ?_) fun _ => ?_)
    · have : w.world.Live := .of_test modifier rfl
      infer_instance
    · infer_instance
  infer_instance

instance (name : Option Kind) : Peeks D m (isMemberAfter name) := by
  unfold isMemberAfter
  cases name <;> dsimp only <;> infer_instance

instance : Runs D m isClassMemberStart := by
  unfold isClassMemberStart
  dsimp only
  refine .seq_peeks inferInstance fun found => .choose (fun _ => inferInstance) fun _ => ?_
  refine .seq (Runs.rounds fun w x => ?_) fun w x _ => ?_
  · refine .seq_token (.choose (fun modifier => ?_) fun _ => ?_)
    · have : w.world.Live := .of_test modifier rfl
      infer_instance
    · infer_instance
  · split <;> infer_instance

instance : Runs D m isIndexSignatureBody := by
  unfold isIndexSignatureBody
  dsimp only
  infer_instance

instance : Peeks D m isIndexSignature := by
  unfold isIndexSignature
  infer_instance

/-! ## Declarations and statements -/

instance : Peeks D m isHeritageClause := by
  unfold isHeritageClause
  infer_instance

instance : Peeks D m isHeritageClauseWithExpression := by
  unfold isHeritageClauseWithExpression
  infer_instance

instance : Runs D m isHeritageObject := by
  unfold isHeritageObject
  infer_instance

instance (exceptOf : Bool) : Runs D m (nextIsBindingOnLine exceptOf) := by
  unfold nextIsBindingOnLine
  infer_instance

instance : Runs D m nextIsUsingOnLine := by
  unfold nextIsUsingOnLine
  infer_instance

instance : Peeks D m isUsingDeclaration := by
  unfold isUsingDeclaration
  infer_instance

instance : Peeks D m isAwaitUsingDeclaration := by
  unfold isAwaitUsingDeclaration
  infer_instance

instance : Peeks D m isLetDeclaration := by
  unfold isLetDeclaration
  infer_instance

instance : Runs D m isDeclarationAhead := by
  unfold isDeclarationAhead
  dsimp only
  refine .seq (Runs.rounds fun w x => ?_) fun w x _ => ?_
  · refine Reads.seq_token ?_
    split
    all_goals first
      | infer_instance
      | have : w.world.Live := .of_token ‹_›
        infer_instance
  · split <;> infer_instance

instance : Peeks D m isDeclarationStart := by
  unfold isDeclarationStart
  infer_instance

instance : Peeks D m isStatementStart := by
  unfold isStatementStart
  refine @Peeks.bind _ _ _ _ _ _ inferInstance fun k => ?_
  split
  · infer_instance
  · split <;> infer_instance

end ScriptFrontend
