import ScriptFrontend.Grammar.Expression
import ScriptFrontend.Proofs.Reading.Access

/-!
# Reading expressions

An operand is read where the expression begins, by a nonterminal of a lower rank; what follows an
operator is read behind it. An arrow function passes a parenthesis, a bracket, its word or its arrow
before it reads what any nonterminal may stand for.
-/

namespace ScriptFrontend

open Parse

set_option synthInstance.maxSize 4096

variable {D : Discipline} {m : World D}

/-! ## Arrow functions -/

instance : Advances D m asyncModifier? := by
  unfold asyncModifier?
  exact ⟨inferInstance⟩

instance [m.Shows .asyncKeyword] : Steps D m asyncModifier? := by
  unfold asyncModifier?
  exact ⟨.ask_token (fun w => inferInstance) fun other => absurd World.Shows.token other⟩

instance (mode : SignatureMode) (allowReturnType : Bool) [m.Free] :
    Runs D m (arrowBody mode allowReturnType) := by
  unfold arrowBody
  dsimp only
  infer_instance

instance (mode : SignatureMode) (allowReturnType : Bool) [m.Shows .openBraceToken] :
    Runs D m (arrowBody mode allowReturnType) := by
  unfold arrowBody
  exact .ask_token (fun w => inferInstance) fun other => absurd World.Shows.token other

section

variable (l : Lead) [D.Leads l]

instance (name : Node) (allowReturnType : Bool) [m.Free] :
    Runs D m (bareArrow l name allowReturnType) := by
  unfold bareArrow
  dsimp only
  infer_instance

instance (name : Node) (allowReturnType : Bool) [m.Shows .equalsGreaterThanToken] :
    Runs D m (bareArrow l name allowReturnType) := by
  unfold bareArrow
  dsimp only
  infer_instance

end

instance [m.Live] : Runs D m isBareAsyncArrow := by
  unfold isBareAsyncArrow
  infer_instance

instance (allowReturnType : Bool) : Runs D m (bareAsyncArrow? allowReturnType) := by
  unfold bareAsyncArrow?
  dsimp only
  infer_instance

instance (second : Kind) : Runs D m (guessAfterParen second) := by
  have named : Runs D m (do
      match ← nextToken with
      | .colonToken => return ArrowGuess.yes
      | .questionToken =>
        if ← nextIsIn [.colonToken, .commaToken, .equalsToken, .closeParenToken] then return .yes
        return .no
      | .commaToken | .equalsToken | .closeParenToken => return .unknown
      | _ => return .no) := by
    refine @Reads.bind_scans _ _ _ _ _ _ inferInstance fun w => ?_
    split <;> infer_instance
  unfold guessAfterParen
  split <;> infer_instance

instance : Runs D m isGenericArrow := by
  unfold isGenericArrow
  refine @Reads.bind _ _ _ _ _ _ _ inferInstance fun w const =>
    @Reads.bind_scans _ _ _ _ _ _ inferInstance fun v => ?_
  split <;> infer_instance

instance : Runs D m guessAfterAngle := by
  unfold guessAfterAngle
  infer_instance

instance : Runs D m guessArrowAhead := by
  unfold guessArrowAhead
  dsimp only
  infer_instance

instance : Peeks D m guessArrow := by
  unfold guessArrow
  refine @Peeks.bind _ _ _ _ _ _ inferInstance fun k => ?_
  split <;> infer_instance

theorem Parse.arrowParameters?_reads (mode : SignatureMode) (guess : Bool) :
    Reads D (fun w _ => w = m ∨ m.offset < w.offset) m (arrowParameters? mode guess) := by
  unfold arrowParameters?
  refine .seq_passes inferInstance (fun w => ?_) ?_
  · rw [if_pos rfl]
    refine .imp (inferInstance : Runs D w.world _) fun v _ before _ => ?_
    exact .inr (Nat.lt_of_lt_of_le w.past before.offset)
  · rw [if_neg Bool.false_ne_true]
    refine .choose (fun _ => .seq_peeks inferInstance fun _ => ?_) fun _ => ?_
    all_goals exact ⟨fun _ => .pure (.inl rfl)⟩

instance (mode : SignatureMode) (guess : Bool) : Runs D m (arrowParameters? mode guess) :=
  (arrowParameters?_reads mode guess).any

/-- Where nothing was passed before the arrow, the arrow itself stands there, or else a brace. -/
instance (guess allowReturnType : Bool) :
    Runs D m (parenthesizedArrow? guess allowReturnType) := by
  unfold parenthesizedArrow?
  dsimp only
  refine @Reads.bind_lead _ _ _ _ _ fun l => .seq_advances inferInstance
    (.seq_advances inferInstance (.seq (arrowParameters?_reads _ _) fun w parameters passed => ?_)
      fun w _ => inferInstance) fun w _ => inferInstance
  cases parameters with
  | none => infer_instance
  | some parameters =>
    rcases passed with same | past
    · rw [same]
      refine .seq_peeks inferInstance fun hasColon => .seq_advances inferInstance
        (.choose (fun _ => inferInstance) fun _ => .seq_token (.choose (fun _ => inferInstance)
          fun _ => ?_)) fun w _ => inferInstance
      by_cases arrow : m.token = .equalsGreaterThanToken
      · have : m.Shows .equalsGreaterThanToken := ⟨arrow⟩
        infer_instance
      · refine .seq_peeks (.expectedToken _ arrow) fun _ => .choose (fun last => ?_)
          fun _ => inferInstance
        have brace : m.token = .openBraceToken := by
          rw [beq_eq_false_iff_ne.mpr arrow, Bool.false_or] at last
          exact beq_iff_eq.mp last
        have : m.Shows .openBraceToken := ⟨brace⟩
        infer_instance
    · have : w.world.Free := Past.free ⟨w, past⟩
      infer_instance

instance (allowReturnType : Bool) : Runs D m (possibleArrow? allowReturnType) := by
  have note (w : World D) (start : Nat) :
      Peeks D w (modify fun s => { s with notArrows := start :: s.notArrows } : Parse Unit) :=
    ⟨fun _ _ stands => ⟨stands.same rfl rfl rfl,
      ⟨rfl, rfl, rfl, rfl, rfl, rfl, rfl, List.subset_cons_self _ _, List.prefix_refl _, id⟩, Nat.le_refl _, id⟩⟩
  unfold possibleArrow?
  dsimp only
  infer_instance

instance (allowReturnType : Bool) : Runs D m (arrow? allowReturnType) := by
  unfold arrow?
  refine .seq_peeks inferInstance fun guess => ?_
  split <;> infer_instance

/-! ## Operands -/

instance : Runs D m superExpression := by
  unfold superExpression
  infer_instance

instance [m.Allows .primary] : Runs D m memberExpression := by
  unfold memberExpression
  infer_instance

instance [m.Allows .primary] : Runs D m importExpression := by
  unfold importExpression
  infer_instance

instance [m.Allows .primary] : Runs D m leftHandSide := by
  unfold leftHandSide
  dsimp only
  infer_instance

instance [m.Allows .leftHandSide] : Runs D m decoratorExpression := by
  unfold decoratorExpression
  infer_instance

/-! ## Operators before and behind an operand -/

instance [m.Allows .leftHandSide] [m.Allows (.element { inExpression := true })] :
    Runs D m updateExpression := by
  unfold updateExpression
  dsimp only
  refine .seq_token (.choose (fun update => ?_) fun _ => .seq_peeks inferInstance fun elements =>
    .choose (fun less => ?_) fun _ => ?_)
  · have : m.Live := by
      rcases Bool.or_eq_true_iff.mp update with same | same <;> exact .of_token (beq_iff_eq.mp same)
    infer_instance
  · have : m.Shows .lessThanToken := ⟨beq_iff_eq.mp (Bool.and_eq_true_iff.mp less).1⟩
    infer_instance
  · simp only [pure_bind, Bool.false_eq_true, if_false]
    infer_instance

instance [m.Live] : Steps D m prefixedExpression := by
  unfold prefixedExpression
  infer_instance

instance (kind : Kind) [m.Live] : Runs D m (wordExpression kind) := by
  unfold wordExpression
  infer_instance

instance [m.Ready .lessThanToken] : Runs D m typeAssertion := by
  unfold typeAssertion
  infer_instance

instance : Peeks D m isAwaitExpression := by
  unfold isAwaitExpression
  infer_instance

instance [m.Allows .leftHandSide] [m.Allows (.element { inExpression := true })]
    [m.Allows (.element { inExpression := true, isOperand := true })] : Runs D m simpleUnary := by
  unfold simpleUnary
  refine .seq_token ?_
  split
  all_goals first
    | infer_instance
    | have : m.Live := .of_token ‹_›
      infer_instance
    | have : m.Shows _ := ⟨‹m.token = _›⟩
      infer_instance

instance : Peeks D m isUpdateStart := by
  unfold isUpdateStart
  refine @Peeks.bind _ _ _ _ _ _ inferInstance fun k => ?_
  split <;> infer_instance

/-! ## Operators between operands -/

theorem Parse.operatorLevel?_reads (floor : Precedence) :
    Reads D (fun w x => x.isSome = true → w.Live) m (operatorLevel? floor) := by
  unfold operatorLevel?
  refine @Reads.bind_scans _ _ _ _ _ _ inferInstance fun w => ?_
  split
  · exact ⟨fun _ => .pure fun found => Bool.noConfusion found⟩
  · rename_i level found
    have live : w.world.Live := ⟨fun same => by
      rw [same] at found
      cases found⟩
    have told (p : Parse (Option Precedence)) [h : Peeks D w.world p] :
        Reads D (fun v x => x.isSome = true → v.Live) w.world p :=
      (h.reads (R := fun _ => True) fun _ _ => trivial).imp fun _ _ _ held _ => held.1 ▸ live
    refine .choose (fun _ => .seq_token ?_) fun _ => told _
    dsimp only
    split <;> exact told _

instance (floor : Precedence) (left : Node) (pos : Nat) : Runs D m (binaryRest floor left pos) := by
  unfold binaryRest
  dsimp only
  refine @Reads.bind _ _ _ _ _ _ _ (Runs.rounds fun w left => ?_) fun w left => inferInstance
  refine .seq (operatorLevel?_reads floor) fun v level live => ?_
  cases level with
  | none => infer_instance
  | some level =>
    have : v.world.Live := live rfl
    infer_instance

instance [m.Allows .simpleUnary] [m.Allows .leftHandSide]
    [m.Allows (.element { inExpression := true })] : Runs D m unary := by
  unfold unary
  dsimp only
  infer_instance

instance (floor : Precedence) [m.Allows .unary] : Runs D m (binary floor) := by
  unfold binary
  infer_instance

/-! ## Assignments -/

instance (condition : Node) (pos : Nat) (allowReturnType : Bool) :
    Runs D m (conditionalRest condition pos allowReturnType) := by
  unfold conditionalRest
  infer_instance

instance [m.Live] : Runs D m yieldExpression := by
  unfold yieldExpression
  infer_instance

instance (priority := 1300) Reads.bind_isYieldExpression_ite {α : Type} {Q : World D → α → Prop}
    (p q : Parse α) [yes : ∀ w : Alive m, Reads D Q w.world p] [no : Reads D Q m q] :
    Reads D Q m (isYieldExpression >>= fun x => if x = true then p else q) := by
  have found (w : Shown m .yieldKeyword) : Reads D Q w.world p :=
    yes ⟨⟨m, .refl m⟩, .of_token w.token⟩
  unfold isYieldExpression
  infer_instance

instance (e : Node) (pos : Nat) (allowReturnType : Bool) :
    Runs D m (assignmentRest e pos allowReturnType) := by
  unfold assignmentRest
  refine .choose (fun _ => @Reads.bind_scans _ _ _ _ _ _ inferInstance fun w =>
    .choose (fun assigns => ?_) fun _ => inferInstance) fun _ => inferInstance
  have : w.world.Live := .of_test assigns rfl
  infer_instance

instance (allowReturnType : Bool) [m.Allows (.binary .comma)] :
    Runs D m (openAssignment allowReturnType) := by
  have operand (w : World D) (l : LeadIn D) (e : Node) : Runs D w (do
      if e.kind == .identifier && (← tokenIs .equalsGreaterThanToken) then
        return ← bareArrow l.lead e allowReturnType
      assignmentRest e l.lead.pos allowReturnType) := by
    refine .ask_token (fun v => inferInstance) fun _ => ?_
    rw [Bool.and_false, if_neg Bool.false_ne_true]
    infer_instance
  unfold openAssignment
  infer_instance

instance (allowReturnType : Bool) [m.Allows (.binary .comma)] :
    Runs D m (assignmentAtDepth allowReturnType) := by
  unfold assignmentAtDepth
  infer_instance

end ScriptFrontend
