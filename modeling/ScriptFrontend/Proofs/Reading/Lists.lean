import ScriptFrontend.Proofs.Motion.Grammar
import ScriptFrontend.Proofs.Reading.Finish

/-!
# Lists

A list comes to its end: each round reads an element and moves on behind the offset where it began,
or skips a token that no open list wants. An element that reads nothing has a token skipped for it.
-/

namespace ScriptFrontend

open Diagnostic (Fault)
open Parse

set_option synthInstance.maxSize 4096

variable {D : Discipline} {α : Type} {m : World D}

/-! ## Elements -/

theorem Node.checkErrors_stop (n : Node) : n.checkErrors.2.stop = n.stop := by
  cases n
  rw [checkErrors]
  split
  · rfl
  · split <;> rfl

theorem Parse.oldElement?_reads (context : ListContext) :
    Reads D (fun w x => w = m ∧ ∀ n ∈ x, m.offset < n.stop ∧ n.stop ≤ D.size) m
      (oldElement? context) where
  holds {g} _ s stands := by
    have follows {t : ParserState} (h : t = s ∨ ∃ c, t = { s with cursor := some c }) :
        s.Follows t := by
      rcases h with rfl | ⟨c, rfl⟩
      · exact .refl _
      · exact ⟨⟨rfl, rfl, rfl, rfl, rfl, rfl, rfl, List.Subset.refl _, List.prefix_refl _, id⟩, Nat.le_refl _, id⟩
    rcases oldElement?_run context g s with same | ⟨c, held, state, found⟩
    · rw [same]
      exact ⟨m, .refl m, stands, .refl _, rfl, fun _ mem => nomatch mem⟩
    · obtain ⟨kept, sound⟩ := D.found s.scanner.fullStart (stands.cursor c held)
      rw [state]
      refine ⟨m, .refl m, ⟨⟨stands.placed, stands.text, ?_, stands.going⟩, stands.offset,
        stands.token⟩, follows (.inr ⟨_, rfl⟩), rfl, fun n mem => ?_⟩
      · intro c' same
        cases same
        exact kept
      · obtain ⟨o, answer, present, untouched, rfl⟩ := found n mem
        rw [Node.checkErrors_stop, ← stands.offset]
        exact sound o answer present untouched

instance (context : ListContext) : Peeks D m (oldElement? context) :=
  .of_same (oldElement?_reads context)

theorem Parse.takeOver_runs {n : Node} (past : m.offset < n.stop) (inside : n.stop ≤ D.size) :
    Runs D m (takeOver n) where
  holds {g} link s stands := by
    have inside' : n.stop ≤ s.scanner.text.utf8ByteSize := by
      rw [show s.scanner.text = D.text from stands.text]
      exact inside
    have rests : D.Rests (modifyScanner (·.moveTo n.stop) g s).2 :=
      ⟨Scanner.moveTo_rests stands.placed inside', stands.text, stands.cursor, stands.going⟩
    have above : D.Covers n.stop 0 := m.above.mono (Nat.le_of_lt past)
    obtain ⟨w, offset, after, follows⟩ := rests.skipToken_lands link above
    have offset : w.offset = n.stop := offset
    have before : m.Before w :=
      ⟨by omega, fun same => absurd same (by omega)⟩
    have moved : s.Follows (modifyScanner (·.moveTo n.stop) g s).2 :=
      ⟨⟨rfl, rfl, rfl, rfl, rfl, rfl, rfl, List.Subset.refl _, List.prefix_refl _, id⟩, Nat.le_refl _,
        Scanner.IsWhole.moveTo⟩
    exact ⟨w, before, after.same rfl rfl rfl, { moved.trans follows with }, trivial⟩

theorem Parse.element?_runs (context : ListContext) {read : Parse (Option Node)} (h : Runs D m read) :
    Runs D m (element? context read) := by
  unfold element?
  refine .seq (oldElement?_reads context) fun w x found => ?_
  obtain ⟨same, found⟩ := found
  cases x with
  | some n =>
    have taken : Runs D w.world (takeOver n) := by
      rw [same]
      exact takeOver_runs (found n rfl).1 (found n rfl).2
    infer_instance
  | none =>
    have read_on : Runs D w.world read := by
      rw [same]
      exact h
    have count : Peeks D w.world (modify fun s => { s with
        counts := { s.counts with reparsed := s.counts.reparsed + 1 } } : Parse Unit) :=
      ⟨fun _ _ stands => ⟨stands.same rfl rfl rfl,
        ⟨rfl, rfl, rfl, rfl, rfl, rfl, rfl, List.Subset.refl _, List.prefix_refl _, id⟩, Nat.le_refl _, id⟩⟩
    unfold readElement
    dsimp only
    infer_instance

instance (context : ListContext) (test : Parse Bool) [Peeks D m test] :
    Peeks D m (startsElement context test) := by
  unfold startsElement
  infer_instance

/-! ## Where lists go on and where they end -/

instance (context : ListContext) (recovering : Bool) :
    Peeks D m (isElementToken context recovering) := by
  unfold isElementToken
  cases context <;> dsimp only <;> infer_instance

instance (context : ListContext) (recovering : Bool) :
    Peeks D m (isElementStart context recovering) := by
  unfold isElementStart
  infer_instance

instance (context : ListContext) : Peeks D m (isTerminator context) := by
  unfold isTerminator
  cases context <;> dsimp only <;> infer_instance

instance : Peeks D m isWantedByOpenList := by
  unfold isWantedByOpenList
  dsimp only
  refine @Peeks.bind _ _ _ _ _ _ inferInstance fun s => ?_
  refine @Peeks.bind _ _ _ _ _ _ inferInstance fun x => ?_
  split <;> infer_instance

instance (context : ListContext) : Peeks D m (errorInList context) := by
  unfold errorInList
  cases context <;> dsimp only <;> infer_instance

theorem Parse.isTerminator_reads (context : ListContext) :
    Reads D (fun w x => w = m ∧ (x = false → m.Live)) m (isTerminator context) := by
  have rest (p : Parse Bool) [h : Peeks D m p] (alive : m.Live) :
      Reads D (fun w x => w = m ∧ (x = false → m.Live)) m p :=
    h.reads fun _ _ _ => alive
  unfold isTerminator
  refine .ask_token (fun _ => ⟨fun _ => .pure ⟨rfl, fun h => nomatch h⟩⟩) fun other => ?_
  cases context <;> dsimp only <;> exact rest _ ⟨other⟩

theorem Parse.endsAtStrayToken_reads (context : ListContext) [alive : m.Live] :
    Reads D (fun w x => x = false → m.offset < w.offset) m (endsAtStrayToken context) := by
  unfold endsAtStrayToken
  refine .seq_peeks inferInstance fun _ => .seq_peeks inferInstance fun x => .choose (fun _ => ?_)
    fun _ => ?_
  · exact ⟨fun _ => .pure fun h => nomatch h⟩
  · exact .seq_steps inferInstance fun w _ => ⟨fun _ => .pure fun _ => w.past⟩

/-! ## The lists -/

theorem Parse.listElement_reads {J : World D → Array Node → Prop} (context : ListContext)
    {read : Parse Node} (items : Array Node) [alive : m.Live] (r : Runs D m read) :
    Reads D (Round Any J m.offset) m (do
      let start ← nodePos
      let found ← element? context (some <$> read)
      let stop ← nodePos
      let atEnd ← tokenIs .endOfFileToken
      if (start == stop && !atEnd) = true then do
          skipToken
          pure (.yield (pushSome items found))
        else pure (.yield (pushSome items found))) := by
  refine .seq_nodePos (.seq (element?_runs context inferInstance) fun w found _ => ?_)
  refine .seq_nodePos (.seq_tokenIs _ ?_)
  by_cases moved : m.offset < w.world.offset
  · have : w.world.After m.offset := ⟨moved⟩
    infer_instance
  · have same : w.world.offset = m.offset := by
      have := w.before.offset
      omega
    have live : w.world.token ≠ .endOfFileToken := w.before.live same alive.token
    have : w.world.Live := ⟨live⟩
    have : w.world.From m.offset := ⟨same.ge⟩
    rw [same, beq_eq_false_iff_ne.mpr live]
    simp only [BEq.rfl, Bool.not_false, Bool.and_self, if_true]
    infer_instance

theorem Parse.strayToken_reads {J : World D → α → Prop} (context : ListContext) (items : α)
    [alive : m.Live] (ended : ∀ w : Later m, J w.world items) :
    Reads D (Round Any J m.offset) m (do
      let ends ← endsAtStrayToken context
      if ends = true then pure (.done items) else pure (.yield items)) := by
  refine .seq (endsAtStrayToken_reads context) fun w ends past => .choose (fun _ => ?_)
    fun goes_on => ?_
  · exact ⟨fun _ => .pure (.done (ended w))⟩
  · have : w.world.After m.offset := ⟨past (Bool.eq_false_iff.mpr goes_on)⟩
    infer_instance

instance (context : ListContext) (read : Parse Node) [r : RunsOn D m read] :
    Runs D m (listOf context read) := by
  unfold listOf
  dsimp only
  refine .seq_nodePos (@Reads.bind _ _ _ _ _ _ _ ?_ fun w x => inferInstance)
  refine @Reads.withOpenList _ _ _ _ context _ ?_
  refine @Reads.bind _ _ _ _ _ _ _ (Runs.rounds fun w items => ?_) fun w items => inferInstance
  refine .seq (isTerminator_reads context) fun v ends ⟨same, live⟩ => .choose (fun _ => inferInstance)
    fun goes_on => ?_
  have alive : w.world.Live := live (Bool.eq_false_iff.mpr goes_on)
  rw [same]
  refine .seq_peeks inferInstance fun starts => .choose (fun _ => ?_) fun _ => ?_
  · exact listElement_reads context items (r.runs w)
  · exact strayToken_reads context items fun _ => trivial

/-! ## Lists with commas -/

instance (context : ListContext) (allowSemicolons : Bool) :
    Runs D m (expectComma context allowSemicolons) := by
  unfold expectComma
  dsimp only
  infer_instance

/-- Behind an element a list goes on after a comma, or else behind the place where the element began;
a token is skipped where neither was passed. -/
theorem Parse.afterElement_reads {J : World D → CommaItems → Prop} (context : ListContext)
    (allowSemicolons : Bool) (items : Bool → CommaItems) (w : Later m)
    (terminator : Reads D (fun v x => (v = w.world ∧ (x = false → w.world.Live)) ∧
      (x = true → ∀ l, J v l)) w.world (isTerminator context)) :
    Reads D (Round Any J m.offset) w.world (do
      let comma ← Parse.optional .commaToken
      if comma = true then pure (.yield (items comma))
      else do
        let ends ← isTerminator context
        if ends = true then pure (.done (items comma))
        else do
          expectComma context allowSemicolons
          let stop ← nodePos
          if (m.offset == stop) = true then do
              skipToken
              pure (.yield (items comma))
            else pure (.yield (items comma))) := by
  refine .seq_passes inferInstance (fun v => ?_) ?_
  · rw [if_pos rfl]
    infer_instance
  · rw [if_neg Bool.false_ne_true]
    refine .seq terminator fun v ends ⟨⟨same, live⟩, ended⟩ =>
      .choose (fun ends => ⟨fun _ => .pure (.done (ended ends _))⟩) fun goes_on => ?_
    have alive : w.world.Live := live (Bool.eq_false_iff.mpr goes_on)
    rw [same]
    refine .seq (R := Any) inferInstance fun u _ _ => .seq_nodePos (.choose (fun stays => ?_) fun moves => ?_)
    · have le := w.before.offset
      have le' := u.before.offset
      have stays : m.offset = u.world.offset := beq_iff_eq.mp stays
      have : u.world.Live := ⟨u.before.live (by omega) alive.token⟩
      infer_instance
    · have le := w.before.offset
      have le' := u.before.offset
      have moves : m.offset ≠ u.world.offset := fun same => moves (beq_iff_eq.mpr same)
      have : u.world.After m.offset := ⟨by omega⟩
      infer_instance

instance (context : ListContext) (read : Parse (Option Node)) (allowSemicolons : Bool)
    [r : RunsOn D m read] : Runs D m (commaItems context read allowSemicolons) := by
  unfold commaItems
  dsimp only
  refine @Reads.bind _ _ _ _ _ _ _ (Runs.rounds fun w l => ?_) fun w l => inferInstance
  refine .seq_peeks inferInstance fun starts => .choose (fun _ => ?_) fun _ => ?_
  · refine .seq_nodePos (.seq (element?_runs context (r.runs w)) fun v x _ => ?_)
    cases x with
    | none => infer_instance
    | some n =>
      exact afterElement_reads context allowSemicolons
        (fun comma => { l with items := l.items.push n, endsInComma := comma }) v
        ((isTerminator_reads context).imp fun _ _ _ told => ⟨told, fun _ _ => trivial⟩)
  · refine .seq (isTerminator_reads context) fun v ends ⟨same, live⟩ =>
      .choose (fun _ => inferInstance) fun goes_on => ?_
    have alive : w.world.Live := live (Bool.eq_false_iff.mpr goes_on)
    rw [same]
    exact strayToken_reads context l fun _ => trivial

instance (context : ListContext) (read : Parse (Option Node)) (allowSemicolons : Bool)
    [r : RunsOn D m read] : Runs D m (commaListOf? context read allowSemicolons) := by
  unfold commaListOf?
  infer_instance

instance (context : ListContext) (read : Parse Node) (allowSemicolons : Bool)
    [r : RunsOn D m read] : Runs D m (commaListOf context read allowSemicolons) := by
  have runs (w : Later m) : Runs D w.world read := r.runs w
  unfold commaListOf
  refine .seq_option inferInstance (fun w => ?_) fun w l => ?_ <;> dsimp only <;> infer_instance

instance (context : ListContext) (read : Parse Node) (opening closing : Kind)
    [Holds opening.isSolid] [r : ∀ w : Past m, RunsOn D w.world read] :
    Runs D m (bracketedList context read opening closing) := by
  unfold bracketedList
  infer_instance

instance (context : ListContext) (read : Parse Node) (opening closing : Kind)
    [Holds opening.isSolid] [m.Shows opening] [r : ∀ w : Past m, RunsOn D w.world read] :
    Steps D m (bracketedList context read opening closing) := by
  unfold bracketedList
  exact ⟨inferInstance⟩

end ScriptFrontend
