import ScriptFrontend.Proofs.Reading.Production
import ScriptFrontend.Proofs.Reading.Repeat
import ScriptFrontend.Source.File

/-!
# Reading files

The statements of a file go on up to the end of the text: at the top nothing but the list itself is
open, so a token that begins no statement is skipped. The values of a JSON text go on up to its end
too, because each of them passes a token. The root covers the whole text.
-/

namespace ScriptFrontend

open Parse

set_option synthInstance.maxSize 4096

variable {D : Discipline} {m : World D} {g : Productions} {α β : Type}

/-! ## Readings from some states only -/

class Discipline.IsFresh (D : Discipline) : Prop where
  fresh : ∀ c, ¬ D.holds c

theorem Discipline.Stands.fresh [fresh : D.IsFresh] {s : ParserState} (h : D.Stands s) :
    s.cursor = none :=
  Option.eq_none_iff_forall_not_mem.mpr fun c mem => fresh.fresh c (h.cursor c mem)

/-- Some lists are open, and the text is read as a whole. -/
structure ParserState.Opens (lists : List ListContext) (s : ParserState) : Prop where
  lists : s.openLists = lists
  whole : s.scanner.IsWhole

theorem ParserState.Opens.later {lists : List ListContext} {s t : ParserState}
    (h : s.Opens lists) (follows : s.Follows t) : t.Opens lists :=
  ⟨follows.openLists.trans h.lists, follows.whole h.whole⟩

section

variable {lists : List ListContext} {p : Parse α} {f : α → Parse β} {Q : World D → β → Prop}
  {R : World D → α → Prop}

theorem Reads.from (h : Reads D R m p) (link : Linked D g) : ReadsFrom g (·.Opens lists) R m p :=
  fun _ stands _ => h.holds link stands

theorem ReadsFrom.seq (first : ReadsFrom g (·.Opens lists) R m p)
    (rest : ∀ (w : Later m) (x : α), R w.world x → ReadsFrom g (·.Opens lists) Q w.world (f x)) :
    ReadsFrom g (·.Opens lists) Q m (p >>= f) := by
  intro s stands opens
  obtain ⟨w, before, stands, follows, holds⟩ := first stands opens
  obtain ⟨v, before', stands, follows', holds⟩ :=
    rest ⟨w, before⟩ _ holds stands (opens.later follows)
  exact ⟨v, before.trans before', stands, follows.trans follows', holds⟩

theorem ReadsFrom.seq_peeks (first : Peeks D m p) (link : Linked D g)
    (rest : ∀ x : α, ReadsFrom g (·.Opens lists) Q m (f x)) :
    ReadsFrom g (·.Opens lists) Q m (p >>= f) := by
  intro s stands opens
  obtain ⟨stands, follows⟩ := first.holds link stands
  obtain ⟨v, before, stands, follows', holds⟩ := rest _ stands (opens.later follows)
  exact ⟨v, before, stands, follows.trans follows', holds⟩

theorem ReadsFrom.seq_look {x : α} (look : ∀ (g : Productions) ⦃s : ParserState⦄, m.At s → p g s = (x, s))
    (rest : ReadsFrom g (·.Opens lists) Q m (f x)) :
    ReadsFrom g (·.Opens lists) Q m (p >>= f) := by
  intro s stands opens
  rw [bind_run, look g stands]
  exact rest stands opens

theorem ReadsFrom.withOpenList (context : ListContext)
    (inner : ReadsFrom g (·.Opens (context :: lists)) R m p) :
    ReadsFrom g (·.Opens lists) R m (withOpenList context p) := by
  intro s stands opens
  obtain ⟨w, before, after, follows, holds⟩ :=
    inner (s := { s with openLists := context :: s.openLists }) (stands.same rfl rfl rfl)
      ⟨congrArg _ opens.lists, opens.whole⟩
  exact ⟨w, before, after.same rfl rfl rfl, { follows with openLists := rfl }, holds⟩

end

theorem Reads.resume {p : Parse α} {Q : World D → α → Prop} {s t : ParserState}
    (h : Reads D Q m p) (link : Linked D g) (stands : m.At t) (follows : s.Follows t) :
    ∃ w : World D, m.Before w ∧ w.At (p g t).2 ∧ s.Follows (p g t).2 ∧ Q w (p g t).1 :=
  have ⟨w, before, after, follows', holds⟩ := h.holds link stands
  ⟨w, before, after, follows.trans follows', holds⟩

/-! ## The statements of a file -/

/-- Without an old tree the tokens tell whether an element begins, and asking leaves the reading where
it is. -/
theorem Parse.isElementStart_asks [D.IsFresh] (context : ListContext) [steady : context.Steady]
    (link : Linked D g) {s : ParserState} (stands : m.At s) :
    isElementStart context false g s = isElementToken context false g s ∧
      m.At (isElementToken context false g s).2 ∧ s.Follows (isElementToken context false g s).2 ∧
      s.Alike (isElementToken context false g s).2 := by
  have test : Peeks D m (isElementToken context false) := inferInstance
  obtain ⟨after, follows⟩ := test.holds link stands
  exact ⟨isElementStart_run stands.fresh, after, follows, (steady.element false).stays g s⟩

abbrev Parse.strayRound (context : ListContext) (items : α) : Parse (ForInStep α) := do
  if ← endsAtStrayToken context then return .done items else return .yield items

/-- A list that alone is open goes on behind a token that it refused. What it asked before is known
from the states that it asked in, which are like the one where the token is skipped. -/
theorem Parse.strayRound_alone [D.IsFresh] {context : ListContext} [context.Steady]
    {J : World D → α → Prop} (items : α) (link : Linked D g) {r s s' t : ParserState}
    (start : (isElementToken context false g s).1 = false)
    (ends : (isTerminator context g s').1 = false) (alike : s.Alike t) (alike' : s'.Alike t)
    (stands : m.At t) (alone : t.openLists = [context]) (live : m.Live) (follows : r.Follows t) :
    ∃ w : World D, m.Before w ∧ w.At (strayRound context items g t).2 ∧
      r.Follows (strayRound context items g t).2 ∧
      Round Any J m.offset w (strayRound context items g t).1 := by
  have report : Peeks D m (errorInList context) := inferInstance
  obtain ⟨reported, kept⟩ := report.holds link stands
  have goes_on := endsAtStrayToken_alone start ends alike alike' (kept.openLists.trans alone)
    reported.toStands.fresh
  obtain ⟨w, before, after, follows', past⟩ := (endsAtStrayToken_reads context).holds link stands
  unfold strayRound
  rw [bind_run, goes_on]
  exact ⟨w, before, after, follows.trans follows', .yield trivial (past goes_on)⟩

theorem Parse.statements_read [D.IsWhole] [D.IsFresh] (link : Linked D g) :
    ReadsFrom g (·.Opens [])
      (fun w l => w.token = .endOfFileToken ∧ l.pos = m.offset ∧ l.stop = w.offset) m
      (listOf .sourceElements (call .statement)) := by
  unfold listOf
  dsimp only
  refine .seq_look (x := m.offset) (fun _ s stands => congrArg (·, s) stands.offset) <| .seq
    (R := fun v _ => v.token = .endOfFileToken) (.withOpenList _ (.seq (.rounds (I := Any)
      (J := fun v _ => v.token = .endOfFileToken) ParserState.Opens.later trivial fun v items _ => ?_)
        fun v items last => Reads.from ⟨fun _ => .pure last⟩ link)) fun v items last => ?_
  · intro s stands opens
    have ends : isTerminator .sourceElements g s = (s.scanner.token == .endOfFileToken, s) := by
      change (if _ then pure true else pure false : Parse Bool) g s = _
      cases s.scanner.token == .endOfFileToken <;> rfl
    rw [bind_run, ends]
    by_cases last : v.world.token = .endOfFileToken
    · rw [beq_iff_eq.mpr (stands.token.trans last), if_pos rfl]
      exact ⟨v.world, .refl _, stands, .refl _, .done last⟩
    · have token : (s.scanner.token == .endOfFileToken) = false :=
        beq_eq_false_iff_ne.mpr (stands.token ▸ last)
      have alive : v.world.Live := ⟨last⟩
      obtain ⟨run, after, follows, alike⟩ := isElementStart_asks .sourceElements link stands
      rw [token, if_neg Bool.false_ne_true, bind_run, run]
      cases start : (isElementToken .sourceElements false g s).1 with
      | true =>
        rw [if_pos rfl]
        have statement : Runs D v.world (call .statement) := inferInstance
        exact (listElement_reads .sourceElements items statement).resume link after follows
      | false =>
        rw [if_neg Bool.false_ne_true]
        exact strayRound_alone items link start ((congrArg Prod.fst ends).trans token) alike alike
          after (opens.later follows).lists alive follows
  · intro s stands _
    exact ⟨v.world, .refl _, stands, .refl _, last, rfl, stands.offset⟩

/-! ## The values of a JSON text -/

def BehindOrAtBrace (i : Nat) : World D → α → Prop :=
  fun w _ => i < w.offset ∨ w.token = .closeBraceToken

/-- Where the members of an object end, the reading has moved on or stands before a brace. -/
theorem Later.behindOrAtBrace [live : m.Live] (w : Later m) {x : α}
    (ends : w.world.token = .endOfFileToken ∨ w.world.token = .closeBraceToken) :
    BehindOrAtBrace m.offset w.world x := by
  rcases ends with last | brace
  · refine .inl (Nat.lt_of_le_of_ne w.before.offset fun same => ?_)
    exact w.before.live same.symm live.token last
  · exact .inr brace

namespace Parse

theorem membersEnd_reads :
    Reads D (fun v x => (v = m ∧ (x = false → m.Live)) ∧
      (x = true → m.token = .endOfFileToken ∨ m.token = .closeBraceToken)) m
      (isTerminator .objectLiteralMembers) := by
  unfold isTerminator
  refine .ask_token (fun w => ⟨fun _ => .pure ⟨⟨rfl, fun h => nomatch h⟩, fun _ => .inl w.token⟩⟩)
    fun other => ?_
  dsimp only
  refine ⟨fun _ s stands => ⟨m, .refl m, stands, .refl _, ⟨rfl, fun _ => ⟨other⟩⟩, fun found => ?_⟩⟩
  exact .inr (stands.token ▸ beq_iff_eq.mp found)

/-- An element of a list is always read or taken over. -/
theorem element?_found (context : ListContext) {read : Parse Node} (h : Runs D m read) :
    Reads D (fun _ x => x.isSome = true) m (element? context (some <$> read)) where
  holds {g} link s stands := by
    have found : (element? context (some <$> read) g s).1.isSome = true := by
      unfold element?
      rw [bind_run]
      cases (oldElement? context g s).1 with
      | some n => rfl
      | none =>
        unfold readElement
        dsimp only
        rw [bind_run]
        split <;> rfl
    have runs : Runs D m (some <$> read) := inferInstance
    obtain ⟨w, before, after, follows, _⟩ := (element?_runs context runs).holds link stands
    exact ⟨w, before, after, follows, found⟩

theorem objectMembers_read [D.IsWhole] [D.IsFresh] (link : Linked D g) [live : m.Live] :
    ReadsFrom g (·.Opens [.objectLiteralMembers]) (BehindOrAtBrace m.offset) m
      (commaItems .objectLiteralMembers (some <$> objectMember) true) := by
  unfold commaItems
  dsimp only
  refine .seq (.rounds (I := Any) (J := BehindOrAtBrace m.offset) ParserState.Opens.later trivial
    fun w l _ => ?_) fun v items last => Reads.from ⟨fun _ => .pure last⟩ link
  intro s stands opens
  obtain ⟨run, after, follows, alike⟩ := isElementStart_asks .objectLiteralMembers link stands
  rw [bind_run, run]
  cases start : (isElementToken .objectLiteralMembers false g s).1 with
  | true =>
    rw [if_pos rfl]
    -- The list may end behind the member. The end of the text is then not where the list began, for
    -- something else stood there.
    refine Reads.resume (.seq_nodePos ?_) link after follows
    have member : Runs D w.world objectMember := inferInstance
    refine .seq (element?_found .objectLiteralMembers member) fun v x found => ?_
    obtain ⟨n, rfl⟩ := Option.isSome_iff_exists.mp found
    exact afterElement_reads .objectLiteralMembers true
      (fun comma => { l with items := l.items.push n, endsInComma := comma }) v
      (membersEnd_reads.imp fun u _ _ ⟨told, ends⟩ =>
        ⟨told, fun last _ => told.1 ▸ (w.trans v).behindOrAtBrace (ends last)⟩)
  | false =>
    rw [if_neg Bool.false_ne_true, bind_run]
    obtain ⟨_, _, after', follows', ⟨rfl, live'⟩, ends⟩ := membersEnd_reads.holds link after
    have terminator : Asks (isTerminator .objectLiteralMembers) := ListContext.Steady.terminator
    cases last : (isTerminator .objectLiteralMembers g
      (isElementToken .objectLiteralMembers false g s).2).1 with
    | true =>
      rw [if_pos rfl]
      exact ⟨w.world, .refl _, after', follows.trans follows',
        .done (w.behindOrAtBrace (ends last))⟩
    | false =>
      rw [if_neg Bool.false_ne_true]
      have follows := follows.trans follows'
      exact strayRound_alone l link start last (alike.trans (terminator.stays g _))
        (terminator.stays g _) after' (opens.later follows).lists (live' last) follows

theorem objectList_read [D.IsWhole] [D.IsFresh] (link : Linked D g) [live : m.Live] :
    ReadsFrom g (·.Opens []) (BehindOrAtBrace m.offset) m
      (commaListOf .objectLiteralMembers objectMember true) := by
  have kept {β : Type} (w : Later m) (p : Parse β) (h : Peeks D w.world p)
      (reached : ∀ x : β, BehindOrAtBrace m.offset w.world x) :
      ReadsFrom g (·.Opens []) (BehindOrAtBrace m.offset) w.world p := by
    intro s stands _
    obtain ⟨after, follows⟩ := h.holds link stands
    exact ⟨w.world, .refl _, after, follows, reached _⟩
  unfold commaListOf commaListOf?
  refine .seq (R := BehindOrAtBrace m.offset) (.seq_peeks inferInstance link fun pos => .seq
    (.withOpenList _ (objectMembers_read link)) fun w l reached => ?_) fun w l reached => ?_
  · exact kept w _ inferInstance fun _ => reached
  · cases l <;> exact kept w _ inferInstance fun _ => reached

theorem closingBrace_reads {i : Nat} (wasOpened : Bool) (openPos : Nat) (le : i ≤ m.offset) {x : α}
    (reached : BehindOrAtBrace i m x) :
    Reads D (Behind i) m (requireMatching .openBraceToken .closeBraceToken wasOpened openPos) := by
  rcases reached with past | brace
  · have : m.After i := ⟨past⟩
    infer_instance
  · have : m.From i := ⟨le⟩
    unfold requireMatching
    exact .ask_token (fun w => inferInstance) fun other => absurd brace other

/-- What is read as an object passes a token, whether a brace stands before it or not. -/
theorem objectLiteral_passes [D.IsWhole] [D.IsFresh] (link : Linked D g) [live : m.Live] :
    ReadsFrom g (·.Opens []) (Behind m.offset) m objectLiteral := by
  unfold objectLiteral spanning
  refine .seq_peeks inferInstance link fun pos => .seq (R := Behind m.offset)
    (.seq_peeks inferInstance link fun openPos => .seq (R := Passed m)
      (Reads.from Passes.reads link) fun w opened passed => ?_) fun w form past => ?_
  · rcases passed with ⟨rfl, past⟩ | ⟨rfl, same⟩
    · have : w.world.After m.offset := ⟨past⟩
      exact Reads.from inferInstance link
    · rw [same]
      refine .seq_peeks inferInstance link fun multiLine => .seq (objectList_read link)
        fun v l reached => .seq (R := Behind m.offset)
          (Reads.from (closingBrace_reads _ _ v.before.offset reached) link) fun u _ past => ?_
      have : u.world.After m.offset := ⟨past⟩
      exact Reads.from inferInstance link
  · have : w.world.After m.offset := ⟨past⟩
    exact Reads.from inferInstance link

theorem jsonValue_passes [D.IsWhole] [D.IsFresh] (link : Linked D g) [live : m.Live] :
    ReadsFrom g (·.Opens []) (Behind m.offset) m jsonValue := by
  have passes {p : Parse Node} (h : Steps D m p) :
      ReadsFrom g (·.Opens []) (Behind m.offset) m p := Reads.from h.reads link
  have either {test : Parse Bool} {p : Parse Node} (look : Peeks D m test) (h : Steps D m p) :
      ReadsFrom g (·.Opens []) (Behind m.offset) m (do if ← test then p else objectLiteral) := by
    refine .seq_peeks look link fun x => ?_
    split
    · exact passes h
    · exact objectLiteral_passes link
  have negative : Peeks D m isNegativeNumber := by
    unfold isNegativeNumber
    infer_instance
  have alone : Peeks D m isJsonLiteral := by
    unfold isJsonLiteral
    infer_instance
  unfold jsonValue
  refine .seq_look (x := m.token) (fun _ s stands => congrArg (·, s) stands.token) ?_
  split
  case h_1 bracket =>
    have : m.Shows .openBracketToken := ⟨bracket⟩
    exact passes inferInstance
  case h_2 | h_3 | h_4 => exact passes inferInstance
  case h_5 => exact either negative inferInstance
  case h_6 | h_7 => exact either alone inferInstance
  case h_8 => exact objectLiteral_passes link

theorem jsonValues_read [D.IsWhole] [D.IsFresh] (link : Linked D g) :
    ReadsFrom g (·.Opens []) (fun w _ => w.token = .endOfFileToken) m jsonValues := by
  unfold jsonValues
  dsimp only
  refine .seq (.rounds (I := Any) (J := fun w _ => w.token = .endOfFileToken)
    ParserState.Opens.later trivial fun w values _ => ?_) fun w values last =>
      Reads.from ⟨fun _ => .pure last⟩ link
  refine .seq_look (x := w.world.token == .endOfFileToken)
    (fun _ s stands => congrArg (· == Kind.endOfFileToken, s) stands.token) ?_
  by_cases last : w.world.token = .endOfFileToken
  · rw [beq_iff_eq.mpr last, if_pos rfl]
    exact Reads.from ⟨fun _ => .pure (.done last)⟩ link
  · rw [beq_eq_false_iff_ne.mpr last, if_neg Bool.false_ne_true]
    have : w.world.Live := ⟨last⟩
    refine .seq (jsonValue_passes link) fun v value past => ?_
    have : v.world.After w.world.offset := ⟨past⟩
    exact Reads.from inferInstance link

end Parse

/-! ## Roots -/

namespace Node

structure EndsText (n : Node) (start : Nat) (text : String) : Prop where
  kind : n.kind = .endOfFileToken
  pos : n.pos = start
  stop : n.stop = text.utf8ByteSize

/-- The root of a tree covers the text. Its statements end where the token at the end begins. -/
structure SpansText (n : Node) (text : String) : Prop where
  kind : n.kind = .sourceFile
  pos : n.pos = 0
  stop : n.stop = text.utf8ByteSize
  parts : ∃ (statements : NodeList) (endOfFile : Node),
    n.form = .sourceFile statements endOfFile ∧ statements.pos = 0 ∧
      endOfFile.EndsText statements.stop text

theorem EndsText.same {n k : Node} {start : Nat} {text : String} (h : n.EndsText start text)
    (head : k.head = n.head) : k.EndsText start text where
  kind := (congrArg Head.kind head).trans h.kind
  pos := (congrArg Head.pos head).trans h.pos
  stop := (congrArg Head.stop head).trans h.stop

theorem SpansText.addFlags {n : Node} {text : String} (h : n.SpansText text) (flags : NodeFlags) :
    (n.addFlags flags).SpansText text := by
  cases n
  exact ⟨h.kind, h.pos, h.stop, h.parts⟩

end Node

namespace Parse

theorem endOfFile_read {lists : List ListContext} (link : Linked D g)
    (last : m.token = .endOfFileToken) :
    ReadsFrom g (·.Opens lists) (fun _ n => n.EndsText m.offset D.text) m tokenNode := by
  intro s stands opens
  have runs : Runs D m tokenNode := inferInstance
  obtain ⟨w, before, after, follows, _⟩ := runs.holds link stands
  have rests : D.Rests s := ⟨stands.placed.rests, stands.text, stands.cursor, stands.going⟩
  have above : D.Covers s.scanner.pos 0 :=
    m.above.mono (stands.offset ▸ stands.placed.fullStart_le_pos)
  obtain ⟨v, offset, landed, _⟩ := rests.skipToken_lands link above
  have token : s.scanner.token = .endOfFileToken := stands.token.trans last
  have size : s.scanner.pos = s.scanner.text.utf8ByteSize :=
    Nat.le_antisymm stands.placed.inside (opens.whole.last token)
  have stop : (tokenNode g s).1.stop = s.scanner.pos := landed.offset.trans offset
  refine ⟨w, before, after, follows, token, stands.offset, stop.trans (size.trans ?_)⟩
  rw [show s.scanner.text = D.text from stands.text]

theorem expectedEnd_read {lists : List ListContext} (link : Linked D g)
    (last : m.token = .endOfFileToken) (fault : Option Diagnostic.Fault) :
    ReadsFrom g (·.Opens lists) (fun _ n => n.EndsText m.offset D.text) m
      (expectedToken .endOfFileToken fault) := by
  unfold expectedToken
  refine .seq_look (x := true) (fun _ s stands => ?_) (endOfFile_read link last)
  exact congrArg (· == Kind.endOfFileToken, s) (stands.token.trans last)

/-- Documentation comments that hang on a node do not change its head. -/
theorem withDocs_head (hasDoc : Bool) (n : Node) (s : ParserState) :
    (withDocs hasDoc n g s).1.head = n.head := by
  unfold withDocs
  split
  · rfl
  · rw [bind_run]
    split
    · rw [bind_run]
      generalize n.docComments _ = comments
      cases comments with
      | nil => rfl
      | cons c rest =>
        cases n
        rfl
    · rfl

theorem withDocs_reads {n : Node} {i : Nat} (hasDoc : Bool) (ends : n.EndsText i D.text)
    (above : D.Covers i 0) :
    Reads D (fun _ d => d.EndsText i D.text) m (withDocs hasDoc n) where
  holds {g} link s stands := by
    have peeks : Peeks D m (withDocs hasDoc n) := withDocs_peeks (ends.pos ▸ above)
    obtain ⟨after, follows⟩ := peeks.holds link stands
    exact ⟨m, .refl m, after, follows, ends.same (withDocs_head hasDoc n s)⟩

theorem rootNode_reads {statements : NodeList} {endOfFile : Node} (pos : statements.pos = 0)
    (ends : endOfFile.EndsText statements.stop D.text) :
    Reads D (fun _ n => n.SpansText D.text) m (rootNode statements endOfFile) := by
  unfold rootNode
  refine .seq_sourceText ⟨fun link s stands => ?_⟩
  have finished : Peeks D m (finishAt .sourceFile 0 D.text.utf8ByteSize
    (.sourceFile statements endOfFile)) := inferInstance
  obtain ⟨after, follows⟩ := finished.holds link stands
  exact ⟨m, .refl m, after, follows, rfl, rfl, rfl, statements, endOfFile, rfl, pos, ends⟩

theorem script_read [D.IsWhole] [D.IsFresh] (link : Linked D g) (start : m.offset = 0) :
    ReadsFrom g (·.Opens []) (fun _ n => n.SpansText D.text) m (do
      let statements ← listOf .sourceElements (call .statement)
      let hasDoc := (← get).scanner.hasFlag TokenFlags.precedingDoc
      let endOfFile ← withDocs hasDoc (← tokenNode)
      let root ← rootNode statements endOfFile
      return root.addFlags (← get).fileFlags) := by
  refine .seq (statements_read link) fun w l ⟨last, pos, stop⟩ => .seq_peeks inferInstance link
    fun s => .seq (endOfFile_read link last) fun v n ends =>
      Reads.from (.seq (withDocs_reads _ ends w.world.above) fun u d ends => ?_) link
  refine .seq (rootNode_reads (pos.trans start) (stop ▸ ends)) fun x root spans => ?_
  exact .seq_peeks inferInstance fun s => ⟨fun _ => .pure (spans.addFlags _)⟩

theorem json_read [D.IsWhole] [D.IsFresh] (link : Linked D g) (start : m.offset = 0) :
    ReadsFrom g (·.Opens []) (fun _ n => n.SpansText D.text) m (do
      let pos ← nodePos
      if ← tokenIs .endOfFileToken then
        return ← rootNode (.ofItems [] pos pos) (← tokenNode)
      let values ← jsonValues
      let e ←
        match values.toList with
        | [value] => pure value
        | _ => finish .arrayLiteralExpression pos (.list false (← listFrom values pos))
      let statement ← finish .expressionStatement pos (.wrapped e)
      let statements ← listFrom #[statement] pos
      rootNode statements (← expectedToken .endOfFileToken (some .unexpectedToken))) := by
  refine .seq_look (x := m.offset) (fun _ s stands => congrArg (·, s) stands.offset) ?_
  refine .seq_look (x := m.token == .endOfFileToken)
    (fun _ s stands => congrArg (· == Kind.endOfFileToken, s) stands.token) ?_
  by_cases last : m.token = .endOfFileToken
  · rw [beq_iff_eq.mpr last, if_pos rfl]
    exact .seq (endOfFile_read link last) fun w n ends =>
      Reads.from (rootNode_reads start ends) link
  · rw [beq_eq_false_iff_ne.mpr last, if_neg Bool.false_ne_true]
    refine .seq (jsonValues_read link) fun w values last => ?_
    have rest (e : Node) : ReadsFrom g (·.Opens []) (fun _ n => n.SpansText D.text) w.world (do
        let statement ← finish .expressionStatement m.offset (.wrapped e)
        let statements ← listFrom #[statement] m.offset
        rootNode statements (← expectedToken .endOfFileToken (some .unexpectedToken))) := by
      refine .seq_peeks inferInstance link fun statement => ?_
      refine .seq_look (x := NodeList.ofItems [statement] m.offset w.world.offset)
        (fun _ s stands => congrArg (NodeList.ofItems [statement] m.offset ·, s) stands.offset) ?_
      exact .seq (expectedEnd_read link last _) fun v n ends =>
        Reads.from (rootNode_reads start ends) link
    dsimp only
    split
    · exact rest _
    · exact .seq_peeks inferInstance link fun l => .seq_peeks inferInstance link rest

end Parse

/-! ## Files -/

def Discipline.ofText (text : String) (stalled : Bool) : Discipline where
  text := text
  holds _ := False
  found _ h := h.elim
  stalled := stalled
  floor := 0
  rank := 8

namespace Discipline

variable {text : String} {stalled : Bool}

instance : (ofText text stalled).IsWhole := ⟨rfl, rfl⟩

instance : (ofText text stalled).IsFresh := ⟨fun _ => id⟩

end Discipline

namespace ParserState

/-- A state before the first token of a text. -/
structure Begins (text : String) (s : ParserState) : Prop where
  same : s.text = text
  whole : s.scanner.stop = s.scanner.text.utf8ByteSize
  start : s.scanner.pos = 0
  skips : s.scanner.skipsTrivia = true
  token : s.scanner.token = .unknown
  openLists : s.openLists = []
  cursor : s.cursor = none

theorem initial_begins (fileName text : String) (target : ScriptTarget) (kind : ScriptKind) :
    (initial fileName text target kind none 0).Begins text :=
  ⟨rfl, rfl, rfl, rfl, rfl, rfl, rfl⟩

variable {s : ParserState} {text : String}

theorem Begins.inContext (h : s.Begins text) (flags : NodeFlags) :
    Begins text { s with contextFlags := flags } :=
  ⟨h.same, h.whole, h.start, h.skips, h.token, h.openLists, h.cursor⟩

/-- A reading of a whole text moves to the first token and goes on from there. It is not cut short,
and if one was cut short before then that is not forgotten. -/
theorem Begins.follows (h : s.Begins text) {p : Parse α} {V : α → Prop}
    (read : ∀ {m : World (.ofText text s.stalled)} {g : Productions},
      Linked (.ofText text s.stalled) g → m.offset = 0 →
        ReadsFrom g (·.Opens []) (fun _ x => V x) m p) :
    s.Follows ((do skipToken; p : Parse α).run s).2 ∧
      (Discipline.ofText text s.stalled).Stands ((do skipToken; p : Parse α).run s).2 ∧
      V ((do skipToken; p : Parse α).run s).1 := by
  have link : Linked (.ofText text s.stalled) (.upTo (Productions.depthFor s.text)) := by
    rw [h.same]
    exact Discipline.linked_of_whole
  have rests : (Discipline.ofText text s.stalled).Rests s :=
    ⟨⟨h.whole.le, h.skips, h.start ▸ Nat.zero_le _⟩, h.same, h.cursor ▸ fun c mem => (nomatch mem),
      rfl⟩
  have above : (Discipline.ofText text s.stalled).Covers s.scanner.pos 0 :=
    .inr ⟨h.start.symm, Nat.succ_pos 7⟩
  obtain ⟨m, offset, stands, follows⟩ := rests.skipToken_lands link above
  have whole : s.scanner.IsWhole := ⟨h.whole.ge, fun last => nomatch h.token.symm.trans last⟩
  obtain ⟨w, _, after, follows', holds⟩ := read link (offset.trans h.start) stands
    ⟨follows.openLists.trans h.openLists, follows.whole whole⟩
  exact ⟨follows.trans follows', after.toStands, holds⟩

theorem Begins.read (h : s.Begins text) {p : Parse α} {V : α → Prop}
    (read : ∀ {m : World (.ofText text s.stalled)} {g : Productions},
      Linked (.ofText text s.stalled) g → m.offset = 0 →
        ReadsFrom g (·.Opens []) (fun _ x => V x) m p) :
    ((do skipToken; p : Parse α).run s).2.stalled = s.stalled ∧
      V ((do skipToken; p : Parse α).run s).1 := by
  obtain ⟨-, stands, holds⟩ := h.follows read
  exact ⟨stands.going, holds⟩

theorem Begins.script (h : s.Begins text) :
    (Parse.script.run s).2.stalled = s.stalled ∧ (Parse.script.run s).1.SpansText text :=
  h.read Parse.script_read

theorem Begins.json (h : s.Begins text) :
    (Parse.json.run s).2.stalled = s.stalled ∧ (Parse.json.run s).1.SpansText text :=
  h.read Parse.json_read

structure Ends (text : String) (s t : ParserState) : Prop where
  fileName : t.fileName = s.fileName
  text : t.text = text
  distinct : s.diagnostics.IsDistinct → t.diagnostics.IsDistinct

theorem Begins.ends_script (h : s.Begins text) : s.Ends text (Parse.script.run s).2 := by
  obtain ⟨follows, stands, -⟩ := h.follows Parse.script_read
  exact ⟨follows.fileName, stands.text, follows.distinct⟩

theorem Begins.ends_json (h : s.Begins text) : s.Ends text (Parse.json.run s).2 := by
  obtain ⟨follows, stands, -⟩ := h.follows Parse.json_read
  exact ⟨follows.fileName, stands.text, follows.distinct⟩

end ParserState

namespace SourceFile

variable {s : ParserState} {text : String}

theorem withPragmas_stalled (f : SourceFile) : f.withPragmas.stalled = f.stalled := by
  unfold withPragmas
  dsimp only

theorem withPragmas_root (f : SourceFile) : f.withPragmas.root = f.root := by
  unfold withPragmas
  dsimp only

theorem ofScript_spans (h : s.Begins text) (setParents : Bool) :
    (ofScript s setParents).stalled = s.stalled ∧ (ofScript s setParents).root.SpansText text := by
  have read := (h.inContext (s.contextFlags |||
    if isDeclarationName s.fileName then NodeFlags.ambient else .empty)).script
  unfold ofScript
  dsimp only
  rw [withPragmas_stalled, withPragmas_root]
  revert read
  generalize Parse.script.run _ = r
  exact id

/-- Whatever is read of a text goes on up to its end, and the root covers the text. -/
theorem parse_goes_on_and_spans_text (fileName text : String) (target : ScriptTarget) (kind : ScriptKind)
    (setParents : Bool) :
    (parse fileName text target kind setParents).stalled = false ∧
      (parse fileName text target kind setParents).root.SpansText text := by
  have begins := ParserState.initial_begins fileName text target (kind.resolve fileName)
  unfold parse
  dsimp only
  split
  · have read := begins.json
    revert read
    generalize Parse.json.run _ = r
    exact id
  · exact ofScript_spans begins setParents

/-- Reading comes to an end, whatever the text and the kind of file. Each round of a loop moves on to a later
token or is the last one, and calls are nested nowhere deeper than there are levels, for else the file would
have stalled. Unless a part of the text was asked for that begins or ends inside of a character, the text is
read as a file, whose statements end where the token at the end of the text begins and whose root covers the
text. -/
theorem read_goes_on_unless_torn (fileName text : String) (target : ScriptTarget) (kind : ScriptKind)
    (setParents : Bool) :
    let f := parse fileName text target kind setParents
    f.stalled = false ∧
      (f.torn = false → read? fileName text target kind setParents = some f ∧ f.root.SpansText text) ∧
      (f.torn = true → read? fileName text target kind setParents = none) := by
  intro f
  obtain ⟨going, spans⟩ := parse_goes_on_and_spans_text fileName text target kind setParents
  refine ⟨going, fun whole => ⟨?_, spans⟩, fun torn => ?_⟩
  · rw [read?, if_neg (Bool.eq_false_iff.mp whole)]
  · rw [read?, if_pos torn]

/-- The text of a comment that is not closed ends two bytes before the comment does, and that may be inside of
a character. -/
theorem read_of_open_comment : read? "a.js" "/** €" .esNext .js false = none := by decide +kernel

/-! ## What is reported -/

def pragmaDiagnostics (fileName text : String) : List Diagnostic :=
  (Directives.ofPragmas text ((Pragma.groups (Pragma.ofText text)).flatMap (·.2))).2.map fun p =>
    Diagnostic.located fileName p.2.toSpan p.1.message []

theorem withPragmas_diagnostics (f : SourceFile) :
    f.withPragmas.diagnostics = f.diagnostics ++ pragmaDiagnostics f.fileName f.text := rfl

theorem ofScript_diagnostics (h : s.Begins text) (fresh : s.diagnostics.IsDistinct) (setParents : Bool) :
    ∃ found : List Diagnostic, (found.filterMap Diagnostic.start?).Nodup ∧
      (ofScript s setParents).diagnostics = found ++ pragmaDiagnostics s.fileName text := by
  have ends := (h.inContext (s.contextFlags |||
    if isDeclarationName s.fileName then NodeFlags.ambient else .empty)).ends_script
  unfold ofScript
  dsimp only
  rw [withPragmas_diagnostics]
  revert ends
  generalize Parse.script.run _ = r
  intro ends
  refine ⟨r.2.diagnostics.items.toList, (ends.distinct fresh).nodup, ?_⟩
  change _ ++ pragmaDiagnostics r.2.fileName r.2.text = _
  rw [ends.fileName, ends.text]
  rfl

/-- No two faults that are found while a text is read start at one offset, whatever was tried and taken back.
Those of its pragmas stand behind them, wherever they start. -/
theorem parse_diagnostics (fileName text : String) (target : ScriptTarget) (kind : ScriptKind)
    (setParents : Bool) :
    ∃ found : List Diagnostic, (found.filterMap Diagnostic.start?).Nodup ∧
      (parse fileName text target kind setParents).diagnostics =
        found ++ if kind.resolve fileName = .json then [] else pragmaDiagnostics fileName text := by
  have begins := ParserState.initial_begins fileName text target (kind.resolve fileName)
  have fresh : Diagnostic.Collection.empty.IsDistinct := Diagnostic.Collection.empty_isDistinct
  unfold parse
  dsimp only
  split
  · exact ⟨_, (begins.ends_json.distinct fresh).nodup, (List.append_nil _).symm⟩
  · exact ofScript_diagnostics begins fresh setParents

end SourceFile

end ScriptFrontend
