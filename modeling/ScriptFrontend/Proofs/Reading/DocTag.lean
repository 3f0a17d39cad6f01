import ScriptFrontend.Grammar.DocTag
import ScriptFrontend.Grammar.DocToken
import ScriptFrontend.Proofs.Reading.Expression
import ScriptFrontend.Proofs.Reading.Name

/-!
# Reading documentation comments

Blanks are skipped one by one, and the text behind a tag goes on up to the end. A tag passes its at sign
before it reads anything else. The tags that belong to another one are read as long as one is found, and
a tag that is found was passed.
-/

namespace ScriptFrontend

open Diagnostic (Fault)
open Parse

set_option synthInstance.maxSize 4096

variable {D : Discipline} {m : World D}

instance : Runs D m skipDocToken := by
  unfold skipDocToken
  infer_instance

instance [m.Live] : Steps D m skipDocToken := by
  unfold skipDocToken
  exact ⟨inferInstance⟩

/-! ## Blanks -/

instance : Peeks D m isBlankToken := by
  unfold isBlankToken
  infer_instance

instance (priority := 1300) Reads.bind_isBlankToken_ite {α : Type} {Q : World D → α → Prop}
    (p q : Parse α) [yes : ∀ w : Alive m, Reads D Q w.world p] [no : Reads D Q m q] :
    Reads D Q m (isBlankToken >>= fun x => if x = true then p else q) := by
  unfold isBlankToken
  exact .ask_tokenIn rfl yes no

instance [alive : m.Live] : Runs D m isOnlyBlanks := by
  unfold isOnlyBlanks
  dsimp only
  refine .seq (R := Any) (.rounds (I := AtLife) alive fun w _ alive => ?_) fun w x _ => ?_
  · have : w.world.Live := alive
    refine @Reads.bind_skips _ _ _ _ _ _ inferInstance fun v => ?_
    split
    case h_2 | h_3 =>
      have : v.world.Live := .of_token ‹_›
      infer_instance
    all_goals infer_instance
  · split <;> infer_instance

instance : Peeks D m isAtLastBlanks := by
  unfold isAtLastBlanks isBlankToken
  exact .and_tokenIn rfl fun alive => inferInstance

instance : Runs D m skipBlanks := by
  unfold skipBlanks
  infer_instance

instance : Runs D m skipBlanksAndAsterisks := by
  unfold skipBlanksAndAsterisks
  dsimp only
  refine .seq_peeks inferInstance fun atLast => .choose (fun _ => inferInstance) fun _ => ?_
  refine .seq_peeks inferInstance fun afterBreak => .seq_peeks inferInstance fun start => ?_
  refine .seq (Runs.rounds fun w l => .seq_token ?_) fun w l _ => inferInstance
  split
  case h_4 => infer_instance
  all_goals
    have : w.world.Live := .of_token ‹_›
    infer_instance

/-! ## Tokens and names -/

instance (kind : Kind) [Holds kind.isSolid] : Passes D m (optionalDoc kind) := by
  unfold optionalDoc
  exact ⟨inferInstance⟩

instance (kind : Kind) [Holds kind.isSolid] : Runs D m (requireDoc kind) := by
  unfold requireDoc
  infer_instance

instance (fault : Option Fault) : Runs D m (docNameOr fault) := by
  unfold docNameOr
  infer_instance

instance : Runs D m docName := by
  unfold docName
  infer_instance

instance : Runs D m skipEmptyBrackets := by
  unfold skipEmptyBrackets
  infer_instance

instance : Runs D m docEntityName := by
  unfold docEntityName
  dsimp only
  infer_instance

instance : Runs D m docDeclaredName? := by
  unfold docDeclaredName?
  dsimp only
  infer_instance

/-! ## Types between braces -/

instance (bracesOptional : Bool) [m.Free] : Runs D m (docTypeExpression bracesOptional) := by
  unfold docTypeExpression
  dsimp only
  infer_instance

instance [m.Free] : Runs D m docTypeExpression? := by
  unfold docTypeExpression?
  infer_instance

/-! ## Text behind a tag -/

instance (state : DocState) (afterBlank : Bool) : Peeks D m (isAtSignText state afterBlank) := by
  unfold isAtSignText
  infer_instance

instance (indent : Nat) (margin : Option String) : Runs D m (tagText? indent margin) := by
  unfold tagText?
  dsimp only
  refine .seq (Runs.rounds fun w l => .seq_token (.seq_peeks inferInstance fun text => ?_))
    fun w l _ => inferInstance
  refine .choose (fun _ => inferInstance) fun goes_on => ?_
  have : w.world.Live := ⟨fun same => goes_on (beq_iff_eq.mpr same)⟩
  infer_instance

instance (start stop indent : Nat) (indentText : String) :
    Runs D m (trailingText? start stop indent indentText) := by
  unfold trailingText?
  infer_instance

/-! ## Tags with one part -/

instance (h : TagHead) (kind : Kind) (parts : Form.DocTag) : Runs D m (finishTag h kind parts) := by
  unfold finishTag
  infer_instance

instance (h : TagHead) (kind : Kind) : Runs D m (plainTag h kind) := by
  unfold plainTag
  infer_instance

instance (h : TagHead) (kind : Kind) (bracesOptional : Bool) [m.Free] :
    Runs D m (typeTag h kind bracesOptional) := by
  unfold typeTag
  infer_instance

instance (h : TagHead) (kind : Kind) [m.Free] : Runs D m (optionalTypeTag h kind) := by
  unfold optionalTypeTag
  infer_instance

instance (h : TagHead) (earlier : List Node) (kind : Kind) :
    Peeks D m (errorIfRepeated h earlier kind) := by
  unfold errorIfRepeated
  infer_instance

instance : Runs D m baseName := by
  unfold baseName
  infer_instance

instance (h : TagHead) (kind : Kind) : Runs D m (heritageTag h kind) := by
  unfold heritageTag
  infer_instance

instance : Runs D m isLinkNext := by
  unfold isLinkNext
  infer_instance

instance : Runs D m nameReference := by
  unfold nameReference
  infer_instance

instance (h : TagHead) : Runs D m (seeTag h) := by
  unfold seeTag
  infer_instance

/-! ## Template tags -/

instance : Runs D m tagTypeParameter? := by
  unfold tagTypeParameter?
  infer_instance

instance (h : TagHead) [m.Free] : Runs D m (templateTag h) := by
  unfold templateTag
  dsimp only
  infer_instance

/-! ## Tags that belong to the tag before them -/

instance (targets : DocTargets) (indent : Nat) (parent : Option Node)
    [m.Allows (.docChild targets indent parent)] :
    Advances D m (docChild? targets indent parent) := by
  unfold docChild?
  infer_instance

instance (targets : DocTargets) (indent : Nat) (parent : Option Node) [m.Free] :
    Runs D m (docChildren targets indent parent) := by
  unfold docChildren
  infer_instance

instance (type : Option Node) (name : Node) (targets : DocTargets) (indent : Nat) [m.Free] :
    Runs D m (nestedShape? type name targets indent) := by
  unfold nestedShape?
  cases type <;> dsimp only <;> infer_instance

instance [m.Free] : Runs D m bracketedName := by
  have ending (w : World D) [w.Free] (name : Node) (bracketed : Bool) : Runs D w (do
      if bracketed then
        skipBlanks
        if (← optionalToken? .equalsToken).isSome then
          let _ ← expressionSequence
        require .closeBracketToken
      return (name, bracketed)) := inferInstance
  unfold bracketedName
  dsimp only
  infer_instance

instance (start : Nat) (tagName : Node) (targets : DocTargets) (indent : Nat) [m.Free] :
    Runs D m (namedTag start tagName targets indent) := by
  unfold namedTag
  infer_instance

instance (targets : DocTargets) (indent : Nat) [m.Shows .atToken] :
    Reads D (BehindIfSome m.offset) m (ownTag? targets indent) := by
  unfold ownTag?
  dsimp only
  infer_instance

theorem Parse.goToTag_reads : Reads D (fun w x => x = true → w.token = .atToken) m goToTag := by
  unfold goToTag
  dsimp only
  refine .seq (R := fun w x => x.1 = some true → w.token = .atToken)
    (.rounds (I := Any) trivial fun w x _ => .seq_token ?_) fun w x stopped => ?_
  · split
    case h_1 sign =>
      have : w.world.Live := .of_token sign
      exact .choose (fun _ => ⟨fun _ => .pure (.done fun _ => sign)⟩) fun _ => inferInstance
    case h_5 => exact ⟨fun _ => .pure (.done fun found => absurd (Option.some.inj found) Bool.false_ne_true)⟩
    case h_6 goes_on =>
      have : w.world.Live := ⟨goes_on⟩
      infer_instance
    all_goals
      have : w.world.Live := .of_token ‹_›
      infer_instance
  · split
    case h_1 answer => exact ⟨fun _ => .pure fun found => stopped (answer.trans (congrArg _ found))⟩
    case h_2 => exact ⟨fun _ => .pure fun found => absurd found Bool.false_ne_true⟩

instance (targets : DocTargets) (indent : Nat) (parent : Option Node) :
    Reads D (BehindIfSome m.offset) m (docChild targets indent parent) := by
  unfold docChild
  refine .seq goToTag_reads fun w found sign => .choose (fun there => ?_) fun _ => inferInstance
  have : w.world.Shows .atToken := ⟨sign there⟩
  have own : Reads D (BehindIfSome w.world.offset) w.world (ownTag? targets indent) := inferInstance
  refine .seq own fun v child past => ⟨fun _ => .pure fun found => ?_⟩
  exact Nat.lt_of_le_of_lt w.before.offset (past (Option.isSome_of_isSome_filter _ _ found))

/-! ## Declarations in comments -/

instance (indent : Nat) [m.Free] : Runs D m (definitionTags indent) := by
  unfold definitionTags
  infer_instance

instance (start indent : Nat) (type : Option Node) [m.Free] :
    Runs D m (definedType? start indent type) := by
  unfold definedType?
  dsimp only
  refine .choose (fun _ => .seq (R := Any) inferInstance fun w tags _ => .choose (fun _ => inferInstance)
    fun _ => ?_) fun _ => inferInstance
  split <;> infer_instance

instance (h : TagHead) [m.Free] : Runs D m (typedefTag h) := by
  unfold typedefTag
  dsimp only
  infer_instance

instance (indent : Nat) [m.Free] : Runs D m (returnTag? indent) := by
  unfold returnTag?
  infer_instance

instance (start indent : Nat) [m.Free] : Runs D m (docSignature start indent) := by
  unfold docSignature
  infer_instance

instance (h : TagHead) [m.Free] : Runs D m (callbackTag h) := by
  unfold callbackTag
  dsimp only
  infer_instance

/-! ## Tags and comments -/

instance (earlier : List Node) (indent : Nat) [m.Shows .atToken] :
    Steps D m (docTag earlier indent) := by
  unfold docTag
  dsimp only
  refine ⟨.seq_peeks inferInstance fun start => .seq_steps inferInstance fun w _ => ?_⟩
  have (v : Later w.world) (p : Parse Node) [Runs D v.world p] :
      Reads D (Behind m.offset) v.world p := inferInstance
  refine .seq (R := Any) inferInstance fun v name _ => .seq (R := Any) inferInstance fun u margin _ => ?_
  split <;> infer_instance

instance (start stop : Nat) (d : DocText) [m.Free] : Runs D m (commentText start stop d) := by
  unfold commentText
  dsimp only
  refine .seq (R := Any) (Runs.rounds fun w x => .seq_token (.choose (fun _ => inferInstance)
    fun goes_on => .choose (fun begins => ?_) fun _ => ?_)) fun w x _ => inferInstance
  · simp only [Bool.and_eq_true, beq_iff_eq] at begins
    have : w.world.Shows .atToken := ⟨begins.1.1⟩
    infer_instance
  · have : w.world.Live := ⟨fun same => goes_on (beq_iff_eq.mpr same)⟩
    infer_instance

/-- The text of a comment begins where no token stands. -/
theorem Discipline.Rests.skipFirstLine_lands {g : Productions} {s : ParserState} (h : D.Rests s)
    (link : Linked D g) (above : D.floor < s.scanner.pos) (d : DocText) :
    ∃ w : World D, w.Free ∧ w.At (skipFirstLine d g s).2 ∧ s.Follows (skipFirstLine d g s).2 := by
  obtain ⟨w, offset, stands, follows⟩ := h.skipDocToken_lands link (.inl above)
  have : w.Free := ⟨.inl (offset ▸ above)⟩
  have line : Runs D w (do
      for _ in rounds do
        unless ← tokenIs .whitespaceTrivia do break
        skipDocToken
      if ← tokenIs .newLineTrivia then
        skipDocToken
        return { d with state := .lineStart, indent := 0 }
      return d) := by
    infer_instance
  obtain ⟨v, before, after, follows', _⟩ := line.holds link stands
  exact ⟨v, .later ⟨v, before⟩, after, follows.trans follows'⟩

theorem Parse.commentAt_stands {start stop : Nat} {g : Productions} (link : Linked D g)
    (floor : D.floor ≤ start) (stop_le : stop ≤ D.size) ⦃s : ParserState⦄ (stands : D.Stands s) :
    D.Stands (commentAt start stop g s).2 ∧ s.Keeps (commentAt start stop g s).2 := by
  have text : s.text = D.text := stands.text
  let d : DocText := { indent := commentIndent s.text start, state := .afterAsterisk }
  let last := max (stop - 2) (start + 3)
  let torn := start + 3 < last && !Text.isBoundary s.text last
  have run : commentAt start stop g s =
      (if Text.startsAt s.text start "/**" then do
        noteTorn torn
        modifyScanner (·.restrict (start + 3) last)
        some <$> commentText start stop (← skipFirstLine d)
      else pure none : Parse (Option Node)) g s := rfl
  rw [run]
  by_cases opens : Text.startsAt s.text start "/**" = true
  case neg =>
    rw [if_neg opens]
    exact ⟨stands, .refl s⟩
  case pos =>
    rw [if_pos opens]
    have inside : start + 3 ≤ s.text.utf8ByteSize := Text.startsAt_le opens (by decide)
    have stop_le : last ≤ s.text.utf8ByteSize := by
      rw [text] at inside ⊢
      unfold Discipline.size at stop_le
      omega
    let entry := (noteTorn torn >>= fun _ => modifyScanner (·.restrict (start + 3) last) : Parse Unit)
    have rests : D.Rests (entry g s).2 :=
      ⟨Scanner.restrict_rests stands.placed inside stop_le, text, stands.cursor, stands.going⟩
    have entered : s.Keeps (entry g s).2 :=
      ⟨rfl, rfl, rfl, rfl, rfl, rfl, rfl, List.Subset.refl _, List.prefix_refl _, id⟩
    obtain ⟨w, free, after, follows⟩ := rests.skipFirstLine_lands link
      (show D.floor < start + 3 by omega) d
    have behind (d : DocText) : Runs D w (some <$> commentText start stop d) := inferInstance
    obtain ⟨v, -, after, follows', -⟩ := (behind _).holds link after
    rw [bind_run, bind_run, bind_run]
    exact ⟨after.toStands, entered.trans (follows.toKeeps.trans follows'.toKeeps)⟩

end ScriptFrontend
