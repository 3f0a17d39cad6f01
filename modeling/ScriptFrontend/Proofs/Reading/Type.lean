import ScriptFrontend.Grammar.Type
import ScriptFrontend.Proofs.Reading.Class

/-!
# Reading types

A type with an operator or a bracket of its own reads what is in it behind that. A function type
passes one of the tokens that tell it from other types before it reads its result.
-/

namespace ScriptFrontend

open Parse

set_option synthInstance.maxSize 4096

variable {D : Discipline} {m : World D}

/-! ## Function types -/

instance [m.Free] : Runs D m passParameterStart := by
  unfold passParameterStart
  dsimp only
  infer_instance

instance [m.Ready .openParenToken] [m.Live] : Runs D m isFunctionTypeBody := by
  unfold isFunctionTypeBody
  infer_instance

theorem Parse.isFunctionTypeStart_reads :
    Reads D (fun w x => w = m ∧ (x = true → m.token ∈ [Kind.lessThanToken, .newKeyword,
      .openParenToken, .abstractKeyword])) m isFunctionTypeStart := by
  have told (p : Parse Bool) [h : Peeks D m p] (starts : m.token ∈ [Kind.lessThanToken, .newKeyword,
      .openParenToken, .abstractKeyword]) : Reads D (fun w x => w = m ∧ (x = true →
        m.token ∈ [Kind.lessThanToken, .newKeyword, .openParenToken, .abstractKeyword])) m p :=
    h.reads fun _ _ _ => starts
  unfold isFunctionTypeStart
  refine .seq_token ?_
  split
  case h_5 => exact ⟨fun _ => .pure ⟨rfl, fun starts => Bool.noConfusion starts⟩⟩
  case h_3 paren =>
    have : m.Shows .openParenToken := ⟨paren⟩
    exact told _ (by simp [paren])
  all_goals exact told _ (by simp [*])

instance : Peeks D m isFunctionTypeStart := .of_same isFunctionTypeStart_reads

instance : Runs D m abstractModifier? := by
  unfold abstractModifier?
  infer_instance

instance : Advances D m abstractModifier? := by
  unfold abstractModifier?
  exact ⟨inferInstance⟩

instance : Advances D m typeParameters? := by
  unfold typeParameters?
  exact ⟨inferInstance⟩

instance [m.Shows .abstractKeyword] : Steps D m abstractModifier? := by
  unfold abstractModifier?
  exact ⟨.ask_token (fun w => inferInstance) fun other => absurd World.Shows.token other⟩

instance [m.Shows .lessThanToken] : Steps D m typeParameters? := by
  unfold typeParameters?
  exact ⟨.ask_token (fun w => inferInstance) fun other => absurd World.Shows.token other⟩

instance [m.Free] : Runs D m functionType := by
  unfold functionType
  infer_instance

/-- A function type passes the token that it starts with before its result is read. -/
theorem Parse.functionType_runs (starts : m.token ∈ [Kind.lessThanToken, .newKeyword,
    .openParenToken, .abstractKeyword]) : Runs D m functionType := by
  unfold functionType
  simp only [List.mem_cons, List.not_mem_nil, or_false] at starts
  rcases starts with less | new | paren | abstract
  · have : m.Shows .lessThanToken := ⟨less⟩
    infer_instance
  · have : m.Shows .newKeyword := ⟨new⟩
    infer_instance
  · have : m.Shows .openParenToken := ⟨paren⟩
    infer_instance
  · have : m.Shows .abstractKeyword := ⟨abstract⟩
    infer_instance

/-! ## Literals and names -/

instance (negative : Bool) : Runs D m (literalType negative) := by
  unfold literalType
  dsimp only
  infer_instance

instance : Runs D m wordWithoutDot? := by
  unfold wordWithoutDot?
  infer_instance

instance : Runs D m typeReference := by
  unfold typeReference
  infer_instance

instance : Runs D m typeQuery := by
  unfold typeQuery
  infer_instance

instance [m.Live] : Steps D m thisType := by
  unfold thisType
  infer_instance

instance : Runs D m thisType := by
  unfold thisType
  infer_instance

instance [m.Live] : Runs D m thisTypeOrPredicate := by
  unfold thisTypeOrPredicate
  infer_instance

instance : Runs D m assertsPredicate := by
  unfold assertsPredicate
  dsimp only
  infer_instance

/-! ## Imports and templates -/

instance [m.Free] : Runs D m importTypeAttributes := by
  unfold importTypeAttributes
  dsimp only
  infer_instance

instance [m.Ready .importKeyword] : Runs D m importType := by
  unfold importType
  dsimp only
  infer_instance

instance [m.Shows .typeOfKeyword] : Runs D m importType := by
  unfold importType
  dsimp only
  infer_instance

instance (isTagged : Bool) [m.Live] : Steps D m (templateHead isTagged) := by
  unfold templateHead
  exact ⟨inferInstance⟩

theorem Parse.templatePiece_reads (isTagged : Bool) :
    Reads D (fun w n => n.kind = .templateMiddle → m.offset < w.offset) m
      (templatePiece isTagged) := by
  unfold templatePiece
  refine .ask_token (fun w => ?_) fun _ => ?_
  · have past : Reads D (Behind m.offset) w.world (do
        let _ ← rescanTemplate isTagged
        literal) := by
      infer_instance
    exact past.imp fun _ _ _ past _ => past
  · have missing : Peeks D m (missingNode .templateTail false .expected ["\x7d"]) := inferInstance
    refine (missing.reads (R := (·.kind = .templateTail)) fun g s => missingNode_kind _ _ _ _ g s).imp ?_
    rintro _ n _ ⟨-, tail⟩ middle
    rw [tail] at middle
    cases middle

instance (kind : Kind) (part : Parse Node) (isTagged : Bool) [r : RunsOn D m part] :
    Runs D m (templateSpans kind part isTagged) := by
  unfold templateSpans
  dsimp only
  refine .seq_nodePos (@Reads.bind _ _ _ _ _ _ _ (Runs.rounds fun w spans => ?_)
    fun w spans => inferInstance)
  refine .seq_nodePos (.seq (r.runs w) fun v e _ => .seq (templatePiece_reads isTagged)
    fun u piece past => .seq_peeks inferInstance fun span => ?_)
  refine .choose (fun middle => ?_) fun _ => inferInstance
  have le := v.before.offset
  have lt := past (beq_iff_eq.mp middle)
  have : u.world.After w.world.offset := ⟨by omega⟩
  infer_instance

instance [m.Live] : Runs D m templateType := by
  unfold templateType
  infer_instance

/-! ## Types between brackets -/

instance : Runs D m isMappedTypeBody := by
  unfold isMappedTypeBody
  dsimp only
  infer_instance

instance [m.Free] : Runs D m mappedTypeParameter := by
  unfold mappedTypeParameter
  infer_instance

instance (kind : Kind) : Runs D m (signedToken? kind) := by
  unfold signedToken?
  infer_instance

instance [m.Ready .openBraceToken] : Runs D m mappedType := by
  unfold mappedType
  dsimp only
  infer_instance

instance : Runs D m typeLiteral := by
  unfold typeLiteral
  infer_instance

instance : Runs D m nextIsColonAfterName := by
  unfold nextIsColonAfterName
  infer_instance

instance : Runs D m isNamedTupleMember := by
  unfold isNamedTupleMember
  dsimp only
  infer_instance

instance [m.Free] : Runs D m tupleElementType := by
  unfold tupleElementType
  have shaped (w : World D) (t : Node) : Peeks D w (match t.kind, t.form with
      | .docNullableType, .wrappedType true inner =>
        if t.pos == inner.pos then finishAt .optionalType t.pos t.stop (.wrappedType false inner)
        else return t
      | _, _ => return t) := by
    split <;> infer_instance
  infer_instance

instance [m.Free] : Runs D m tupleElement := by
  unfold tupleElement
  infer_instance

instance : Runs D m tupleType := by
  unfold tupleType
  infer_instance

instance [m.Ready .openParenToken] : Runs D m parenthesizedType := by
  unfold parenthesizedType
  infer_instance

/-! ## Types of documentation comments -/

instance [m.Live] : Runs D m docUnknownOrNullableType := by
  unfold docUnknownOrNullableType
  infer_instance

instance [m.Live] : Runs D m docFunctionType := by
  unfold docFunctionType
  infer_instance

/-! ## Simple types, marks behind them and operators before them -/

instance : Runs D m simpleType := by
  unfold simpleType
  refine .seq_token ?_
  split
  all_goals first
    | infer_instance
    | have : m.Shows _ := ⟨‹m.token = _›⟩
      infer_instance

instance : Runs D m markedType := by
  unfold markedType
  dsimp only
  have marks (w : World D) (pos : Nat) (t : Node) : Runs D w (do
      return t) := inferInstance
  refine .seq_nodePos (@Reads.bind _ _ _ _ _ _ _ inferInstance fun w t =>
    @Reads.bind _ _ _ _ _ _ _ (Runs.rounds fun v t => ?_) fun w t => inferInstance)
  refine .seq_peeks inferInstance fun broken => .choose (fun _ => inferInstance) fun _ => .seq_token ?_
  split
  all_goals first
    | infer_instance
    | have : v.world.Shows _ := ⟨‹v.world.token = _›⟩
      infer_instance

instance : Runs D m inferredBound? := by
  unfold inferredBound?
  infer_instance

instance : Runs D m inferType := by
  unfold inferType
  infer_instance

instance : Runs D m operatorType := by
  unfold operatorType
  refine .seq_token ?_
  split
  all_goals first
    | infer_instance
    | have : m.Shows _ := ⟨‹m.token = _›⟩
      infer_instance

/-! ## Unions, intersections and conditional types -/

instance (inUnion : Bool) (read : Parse Node) [m.Free] [r : RunsOn D m read] :
    Runs D m (typeAmong inUnion read) := by
  have here := r.here
  unfold typeAmong
  infer_instance

instance (operator kind : Kind) (read : Parse Node) [Holds operator.isSolid] [r : RunsOn D m read] :
    Runs D m (typesJoinedBy operator kind read) := by
  have here := r.here
  unfold typesJoinedBy
  dsimp only
  infer_instance

instance : Runs D m unionType := by
  unfold unionType
  infer_instance

instance : Runs D m conditionalOrUnionType := by
  unfold conditionalOrUnionType
  infer_instance

instance : Runs D m wholeType := by
  unfold wholeType
  refine @Reads.outside _ _ _ _ _ _ (.seq isFunctionTypeStart_reads fun w x ⟨same, starts⟩ => ?_)
  rw [same]
  exact .choose (fun found => functionType_runs (starts found)) fun _ => inferInstance

end ScriptFrontend
