import ScriptFrontend.Proofs.Doc.Line
import ScriptFrontend.Proofs.Reading.Repeat
import ScriptFrontend.Source.File
import Mathlib.Data.List.DropRight

/-!
# The description that a documentation comment is read with

The loop that reads a comment takes its tokens in one after the other up to the end of the comment. So the
text that it makes of a comment without tags is told by the lines of the comment.
-/

namespace ScriptFrontend

open Token
open Parse
open Text (isAsciiBlank)

namespace ParserState

/-- The scanner stands on the token of a comment at an offset. -/
structure AtDoc (w : Window) (i : Nat) (s : ParserState) : Prop where
  window : s.scanner.window = w
  fullStart : s.scanner.fullStart = i
  tokenStart : s.scanner.tokenStart = i
  pos : s.scanner.pos = (Scanner.docToken w i).stop
  token : s.scanner.token = (Scanner.docToken w i).kind

/-- Between two states no reading was cut short and no character cut through. -/
structure Steady (s t : ParserState) : Prop where
  torn : t.torn = s.torn
  stalled : t.stalled = s.stalled

theorem Steady.refl (s : ParserState) : s.Steady s := ⟨rfl, rfl⟩

theorem Steady.trans {s t u : ParserState} (h : s.Steady t) (h' : t.Steady u) : s.Steady u :=
  ⟨h'.torn.trans h.torn, h'.stalled.trans h.stalled⟩

end ParserState

variable {w : Window} {i j : Nat} {d d' : DocText} {g : Productions} {s : ParserState}

theorem Scanner.scanDoc_place (s : Scanner) :
    s.scanDoc.window = s.window ∧ s.scanDoc.fullStart = s.pos ∧ s.scanDoc.tokenStart = s.pos ∧
      s.scanDoc.pos = (docToken s.window s.pos).stop ∧
      s.scanDoc.token = (docToken s.window s.pos).kind := by
  unfold scanDoc land report
  dsimp only
  split <;> exact ⟨rfl, rfl, rfl, rfl, rfl⟩

theorem Parse.drainErrors_steady (g : Productions) (s : ParserState) : s.Steady (drainErrors g s).2 := by
  have loop (errors : List ScanError) (s : ParserState) :
      s.Steady ((do for e in errors do errorAtSpan e.pos e.length e.fault e.arg.toList : Parse Unit) g s).2 := by
    induction errors generalizing s with
    | nil => exact .refl s
    | cons e rest ih =>
      rw [List.forIn_cons]
      exact .trans (t := (errorAtSpan e.pos e.length e.fault e.arg.toList g s).2) ⟨rfl, rfl⟩ (ih _)
  have run : drainErrors g s = (if s.scanner.errors.toList.isEmpty = true then pure () else do
      modifyScanner Scanner.forgetErrors
      for e in s.scanner.errors.toList do errorAtSpan e.pos e.length e.fault e.arg.toList : Parse Unit) g s := rfl
  rw [run]
  split
  · exact .refl s
  · exact .trans (t := (modifyScanner Scanner.forgetErrors g s).2) ⟨rfl, rfl⟩ (loop _ _)

theorem Parse.skipDocToken_atDoc (g : Productions) (s : ParserState) :
    (skipDocToken g s).2.AtDoc s.scanner.window s.scanner.pos ∧ s.Steady (skipDocToken g s).2 := by
  have run : skipDocToken g s = ((), (drainErrors g { s with scanner := s.scanner.scanDoc }).2) := rfl
  have alike := Stays.stays (p := drainErrors) g { s with scanner := s.scanner.scanDoc }
  have steady := drainErrors_steady g { s with scanner := s.scanner.scanDoc }
  obtain ⟨window, fullStart, tokenStart, pos, token⟩ := s.scanner.scanDoc_place
  have place := alike.scanner.place
  rw [run]
  refine ⟨⟨?_, ?_, ?_, ?_, ?_⟩, steady.torn, steady.stalled⟩
  · rw [← alike.scanner.toBeside.window, window]
  · rw [← place, fullStart]
  · rw [← place, tokenStart]
  · rw [← place, pos]
  · rw [← place, token]

theorem ParserState.AtDoc.skip (h : s.AtDoc w i) :
    (skipDocToken g s).2.AtDoc w (Scanner.docToken w i).stop ∧ s.Steady (skipDocToken g s).2 := by
  have next := skipDocToken_atDoc g s
  rwa [h.window, h.pos] at next

theorem Scanner.lt_stop_of_docToken (h : (docToken w i).kind ≠ .endOfFileToken) : i < w.stop := by
  by_contra past
  apply h
  rw [docToken, Window.char?, if_neg past]

/-- A loop that takes in one token of a comment in each round reads up to the end. -/
theorem Parse.Rounds.run_turns {β : Type} {f : β → Parse (ForInStep β)} (mk : DocText → β)
    (ends : ∀ {i : Nat} {d : DocText} {s : ParserState}, s.AtDoc w i →
      (Scanner.docToken w i).kind = .endOfFileToken → f (mk d) g s = (.done (mk d), s))
    (moves : ∀ {i : Nat} {d : DocText} {s : ParserState}, s.AtDoc w i →
      (Scanner.docToken w i).kind ≠ .endOfFileToken → (Scanner.docToken w i).kind ≠ .atToken →
      f (mk d) g s = (.yield (mk (d.step (Scanner.docToken w i).kind
        (w.slice i (Scanner.docToken w i).stop))), (skipDocToken g s).2))
    (turns : d.Turns w i j d') (last : (Scanner.docToken w j).kind = .endOfFileToken)
    (stands : s.AtDoc w i) {left : Nat} (enough : w.stop - i < left) :
    ∃ t, Rounds.run f left (mk d) g s = (mk d', t) ∧ s.Steady t := by
  induction turns generalizing s left with
  | refl =>
    obtain ⟨left, rfl⟩ := Nat.exists_eq_add_of_lt enough
    rw [run_succ, ends stands last]
    exact ⟨s, rfl, .refl s⟩
  | @step i _ _ _ goes_on no_tag on _ ih =>
    obtain ⟨left, rfl⟩ := Nat.exists_eq_add_of_lt enough
    obtain ⟨next, steady⟩ := stands.skip (g := g)
    have inside := Scanner.lt_stop_of_docToken goes_on
    obtain ⟨t, run, steady'⟩ := ih last next
      (show w.stop - (Scanner.docToken w i).stop < w.stop - i + left by omega)
    rw [run_succ, moves stands goes_on no_tag]
    dsimp only
    rw [if_neg (by rw [next.fullStart, stands.fullStart]; omega), run]
    exact ⟨t, rfl, steady.trans steady'⟩

theorem Parse.forIn_rounds {β : Type} (f : Unit → β → Parse (ForInStep β)) (x : β) :
    (forIn rounds x f : Parse β) g s = Rounds.run (f ()) (s.scanner.text.utf8ByteSize + 2) x g s := rfl

theorem ParserState.AtDoc.text_eq (h : s.AtDoc w i) : s.scanner.text = w.text := by
  rw [← h.window]
  rfl

theorem Parse.commentText_turns (start stop : Nat) (turns : d.Turns w i j d')
    (last : (Scanner.docToken w j).kind = .endOfFileToken) (stands : s.AtDoc w i)
    (fits : w.stop ≤ w.text.utf8ByteSize) :
    ∃ id flags t, commentText start stop d g s =
        (.ofForm ⟨.doc, id, start, stop, flags, false⟩ (.doc d'.dropTrailingBlanks.finish none), t) ∧
      t.torn = (s.torn || d'.torn) ∧ t.stalled = s.stalled := by
  unfold commentText
  rw [bind_run, forIn_rounds]
  generalize loop : Rounds.run _ _ _ g s = r
  obtain ⟨t, rfl, steady⟩ : ∃ t, r = ((d', #[], none), t) ∧ s.Steady t := by
    rw [← loop]
    refine Rounds.run_turns (fun d => (d, #[], none)) (fun stands last => ?_)
      (fun stands goes_on no_tag => ?_) turns last stands ?_
    · rw [bind_run, show token g _ = (_, _) from rfl, stands.token, last]
      rfl
    · rw [bind_run, show token g _ = (_, _) from rfl, stands.token]
      dsimp only
      rw [if_neg (by simpa using goes_on), if_neg (by simp [no_tag]), bind_run]
      rw [show tokenText g _ = (Text.slice _ _ _, _) from rfl, stands.text_eq, stands.tokenStart, stands.pos]
      rfl
    · rw [stands.text_eq]
      omega
  exact ⟨_, _, _, rfl, by rw [← steady.torn], steady.stalled⟩

/-- A loop over blanks comes to the line break behind them. -/
theorem Parse.Rounds.run_blanks {f : Unit → Parse (ForInStep Unit)} {left : Nat} {blanks lineBreak rest : List Char}
    (ends : ∀ {s : ParserState}, s.scanner.token ≠ .whitespaceTrivia → f () g s = (.done (), s))
    (moves : ∀ {s : ParserState}, s.scanner.token = .whitespaceTrivia →
      f () g s = (.yield (), (skipDocToken g s).2))
    (blank : ∀ c ∈ blanks, isAsciiBlank c = true) (isBreak : Scanner.IsBreak lineBreak rest)
    (stands : s.AtDoc w i) (h : w.Shows i (blanks ++ (lineBreak ++ rest))) :
    ∃ t, Rounds.run f (left + 2) () g s = ((), t) ∧ t.AtDoc w (i + String.utf8Len blanks) ∧ s.Steady t := by
  obtain ⟨-, kind⟩ := Scanner.docToken_break h.append isBreak
  by_cases none : blanks = []
  · subst none
    rw [run_succ, ends (by rw [stands.token]; simp_all)]
    exact ⟨s, rfl, stands, .refl s⟩
  · have head : (lineBreak ++ rest).head?.all (!Text.isBlank ·) = true := by
      rcases isBreak with rfl | rfl | ⟨rfl, -⟩ <;> rfl
    have token := Scanner.docToken_blanks h none blank head
    have wide : 0 < String.utf8Len blanks := Nat.pos_of_ne_zero fun zero => none (String.utf8Len_eq_zero.mp zero)
    obtain ⟨next, steady⟩ := stands.skip (g := g)
    rw [token] at next
    rw [run_succ, moves (by rw [stands.token, token])]
    dsimp only
    rw [if_neg (by rw [next.fullStart, stands.fullStart]; dsimp only; omega), run_succ,
      ends (by rw [next.token, kind]; decide)]
    exact ⟨_, rfl, next, steady⟩

theorem Parse.skipFirstLine_lands {blanks lineBreak rest : List Char} (blank : ∀ c ∈ blanks, isAsciiBlank c = true)
    (isBreak : Scanner.IsBreak lineBreak rest) (window : s.scanner.window = w) (pos : s.scanner.pos = i)
    (h : w.Shows i (blanks ++ (lineBreak ++ rest))) :
    ∃ t, skipFirstLine d g s = ({ d with state := .lineStart, indent := 0 }, t) ∧
      t.AtDoc w (i + String.utf8Len blanks + String.utf8Len lineBreak) ∧ s.Steady t := by
  obtain ⟨stands, steady⟩ := skipDocToken_atDoc g s
  rw [window, pos] at stands
  obtain ⟨stop, kind⟩ := Scanner.docToken_break h.append isBreak
  unfold skipFirstLine
  rw [bind_run, bind_run, forIn_rounds]
  generalize (skipDocToken g s).2 = t at *
  generalize loop : Rounds.run _ _ _ g t = r
  obtain ⟨u, rfl, stands', steady'⟩ : ∃ u, r = ((), u) ∧ u.AtDoc w (i + String.utf8Len blanks) ∧ t.Steady u := by
    rw [← loop]
    refine Rounds.run_blanks (fun other => ?_) (fun same => ?_) blank isBreak stands h
    · rw [bind_run, show tokenIs .whitespaceTrivia g _ = (_, _) from rfl, beq_eq_false_iff_ne.mpr other]
      rfl
    · rw [bind_run, show tokenIs .whitespaceTrivia g _ = (_, _) from rfl, same]
      rfl
  rw [bind_run, show tokenIs .newLineTrivia g u = (_, _) from rfl, stands'.token, kind]
  obtain ⟨next, steady''⟩ := stands'.skip (g := g)
  rw [stop] at next
  exact ⟨_, rfl, next, steady.trans (steady'.trans steady'')⟩

theorem Text.startsAt_of_split {text word : String} {front rest : List Char}
    (same : text.toList = front ++ (word.toList ++ rest)) : startsAt text (String.utf8Len front) word = true := by
  have size := size_of_split same
  rw [String.utf8Len_append, String.utf8Len_toList] at size
  refine startsAt_of_byteAt fun k inside => ⟨by omega, ?_⟩
  have inside' : k < word.toList.utf8Encode.size := by rwa [size_utf8Encode, String.utf8Len_toList]
  have within : k < (word.toList ++ rest).utf8Encode.size := by
    rw [List.utf8Encode_append, ByteArray.size_append]
    omega
  have own : byteAt word (String.utf8Len [] + k) = word.toList.utf8Encode[k] :=
    byteAt_of_split (List.nil_append word.toList).symm inside'
  rw [String.utf8Len_nil, Nat.zero_add] at own
  rw [own, byteAt_of_split same within]
  simp only [List.utf8Encode_append]
  exact ByteArray.getElem_append_left inside'

namespace DocText

/-- Some characters without the blanks at their end, if any are left. -/
def trimmed? (cs : List Char) : Option String :=
  let kept := cs.rdropWhile Text.isUnicodeBlank
  if kept.isEmpty then none else some (.ofList kept)

theorem rdropWhile_append_of_all {p : Char → Bool} {cs blanks : List Char} (all : ∀ c ∈ blanks, p c = true) :
    (cs ++ blanks).rdropWhile p = cs.rdropWhile p := by
  rw [List.rdropWhile, List.reverse_append, List.dropWhile_append_of_pos, List.rdropWhile]
  exact fun c mem => all c (List.mem_reverse.mp mem)

/-- The text of a comment is what was read, without the blanks at its end. -/
theorem finish_eq_trimmed? (d : DocText) : d.dropTrailingBlanks.finish = trimmed? d.chars := by
  have dropped : d.dropTrailingBlanks.chars.rdropWhile Text.isUnicodeBlank =
      d.chars.rdropWhile Text.isUnicodeBlank := by
    unfold dropTrailingBlanks chars
    dsimp only
    induction d.parts with
    | nil => rfl
    | cons part parts ih =>
      rw [List.dropWhile_cons]
      split
      next blank =>
        rw [ih, List.reverse_cons, List.flatMap_append, List.flatMap_singleton, rdropWhile_append_of_all]
        simpa [isBlankText] using blank
      next => rfl
  rw [trimmed?, ← dropped, finish, String.toList_join]
  rw [List.rdropWhile, chars, List.isEmpty_reverse]

end DocText

namespace Parse

theorem commentAt_describes {front content behind : List Char} (plain : DocLine.IsDescription content)
    (same : s.text.toList = front ++ ("/**".toList ++ (content ++ ("*/".toList ++ behind)))) :
    let start := String.utf8Len front
    let stop := start + String.utf8Len content + 5
    ∃ id flags t, commentAt start stop g s =
        (some (.ofForm ⟨.doc, id, start, stop, flags, false⟩
          (.doc (DocText.trimmed? (DocLine.description content)) none)), t) ∧
      s.Steady t := by
  intro start stop
  let last := max (stop - 2) (start + 3)
  let d : DocText := { indent := commentIndent s.text start, state := .afterAsterisk }
  have at_last : last = start + 3 + String.utf8Len content := by omega
  have run : commentAt start stop g s =
      (if Text.startsAt s.text start "/**" then do
        noteTorn (start + 3 < last && !Text.isBoundary s.text last)
        modifyScanner (·.restrict (start + 3) last)
        some <$> commentText start stop (← skipFirstLine d)
      else pure none : Parse (Option Node)) g s := rfl
  have opening : String.utf8Len "/**".toList = 3 := rfl
  have same' : s.text.toList = (front ++ "/**".toList ++ content) ++ ("*/".toList ++ behind) := by
    simpa only [List.append_assoc] using same
  have ends := Text.boundary_of_split same'
  simp only [String.utf8Len_append, opening] at ends
  have whole : Text.isBoundary s.text last = true := by
    rw [Text.isBoundary_iff, at_last]
    exact ends
  rw [run, if_pos (Text.startsAt_of_split same), whole, Bool.not_true, Bool.and_false, bind_run, bind_run, bind_run]
  generalize entered : (modifyScanner (·.restrict (start + 3) last) g (noteTorn false g s).2).2 = t
  have scanner : t.scanner = s.scanner.restrict (start + 3) last := by rw [← entered]; rfl
  have steady : s.Steady t := by
    rw [← entered]
    exact ⟨Bool.or_false _, rfl⟩
  have shown : t.scanner.window.Shows (start + 3) content := by
    refine ⟨front ++ "/**".toList, "*/".toList ++ behind, ?_, ?_, ?_⟩
    · rw [scanner, List.append_assoc]
      exact same
    · rw [String.utf8Len_append, opening]
    · rw [scanner, ← at_last]
      rfl
  obtain ⟨blanks, lineBreak, rest, line, others, rfl, blank, isBreak, lines, no_tag, begins, description⟩ :=
    plain.parts
  obtain ⟨u, skipped, stands, steady'⟩ := skipFirstLine_lands (d := d) (g := g) blank isBreak rfl
    (by rw [scanner]; rfl) shown
  have below := shown.append.append
  obtain ⟨d', turns, torn, chars⟩ := DocText.turns_lines (d := { d with state := .lineStart, indent := 0 }) lines
    no_tag begins rfl rfl below
  have last_token : (Scanner.docToken t.scanner.window t.scanner.window.stop).kind = .endOfFileToken := by
    rw [Scanner.docToken_end shown.at_stop]
  obtain ⟨id, flags, v, text, torn', stalled⟩ := commentText_turns start stop (g := g)
    turns last_token stands shown.even.fits
  have kept : d'.chars = DocLine.description (blanks ++ (lineBreak ++ rest)) := by
    rw [chars, description]
    rfl
  refine ⟨id, flags, v, ?_, steady.trans (steady'.trans ⟨?_, stalled⟩)⟩
  · rw [skipped, ← kept, ← DocText.finish_eq_trimmed?]
    exact congrArg (fun r => (some r.1, r.2)) text
  · rw [torn', torn]
    exact Bool.or_false _

def IsDocNode (start stop : Nat) (text : Option String) (n : Node) : Prop :=
  n.kind = .doc ∧ n.pos = start ∧ n.stop = stop ∧ n.form = .doc text none

variable {content front behind : List Char}

theorem docComment_production_describes (plain : DocLine.IsDescription content) (depth : Nat)
    (same : s.text.toList = front ++ ("/**".toList ++ (content ++ ("*/".toList ++ behind)))) :
    let start := String.utf8Len front
    let stop := start + String.utf8Len content + 5
    ∃ n t, call? (.docComment start stop) (.upTo (depth + 1)) s = (some n, t) ∧
      IsDocNode start stop (DocText.trimmed? (DocLine.description content)) n ∧ s.Steady t := by
  obtain ⟨id, flags, t, run, steady⟩ := commentAt_describes (g := .upTo depth) plain same
  exact ⟨_, t, run, ⟨rfl, rfl, rfl, rfl⟩, steady⟩

theorem ofDocComment?_run (text : String) (start stop : Nat) :
    ∃ entered left : ParserState, entered.text = text ∧ entered.torn = false ∧
      left.torn = (call? (.docComment start stop) (.upTo (Productions.depthFor text)) entered).2.torn ∧
      Node.ofDocComment? text start stop =
        (call? (.docComment start stop) (.upTo (Productions.depthFor text)) entered).1.map (.ofState left) := by
  let first : ParserState := .initial "file.js" text .esNext .js none 0
  let added := FlagSet.without NodeFlags.doc first.contextFlags
  unfold Node.ofDocComment? Parse.run
  rw [show (ParserState.initial "file.js" text .esNext .js none 0).text = text from rfl]
  generalize Productions.upTo (Productions.depthFor text) = g
  let entered := (setContext true added g first).2
  exact ⟨entered, (setContext false added g (call? (.docComment start stop) g entered).2).2, rfl, rfl, rfl, rfl⟩

theorem ofDocComment?_describes {text : String} (plain : DocLine.IsDescription content)
    (same : text.toList = front ++ ("/**".toList ++ (content ++ ("*/".toList ++ behind)))) :
    let start := String.utf8Len front
    let stop := start + String.utf8Len content + 5
    ∃ r, Node.ofDocComment? text start stop = some r ∧
      IsDocNode start stop (DocText.trimmed? (DocLine.description content)) r.node ∧ r.torn = false := by
  intro start stop
  obtain ⟨depth, deep⟩ : ∃ depth, Productions.depthFor text = depth + 1 := by
    refine ⟨64 * text.utf8ByteSize + 4095, ?_⟩
    unfold Productions.depthFor
    omega
  obtain ⟨entered, left, own, whole, torn, run'⟩ := ofDocComment?_run text start stop
  obtain ⟨n, t, run, known, steady⟩ := docComment_production_describes plain depth (s := entered)
    (by rw [own, same])
  rw [deep, run] at torn run'
  exact ⟨_, run', known, torn.trans (steady.torn.trans whole)⟩

/-- Documentation comments without tags are read as dedented text, in files and on their own. -/
theorem docComment_is_dedented (front behind : List Char) (plain : DocLine.IsDescription content) :
    let text := String.ofList (front ++ ("/**".toList ++ (content ++ ("*/".toList ++ behind))))
    let start := String.utf8Len front
    let stop := start + String.utf8Len content + 5
    let described := IsDocNode start stop (DocText.trimmed? (DocLine.description content))
    (∀ (depth : Nat) (c : Comment) (s : ParserState), c.pos = start → c.stop = stop → s.text = text →
      ∃ n, (docComment c (.upTo (depth + 1)) s).1 = some n ∧ described n ∧
        s.Steady (docComment c (.upTo (depth + 1)) s).2) ∧
    ∃ r, Node.ofDocComment? text start stop = some r ∧ described r.node ∧ r.torn = false := by
  intro text start stop described
  have chars : text.toList = front ++ ("/**".toList ++ (content ++ ("*/".toList ++ behind))) :=
    String.toList_ofList
  refine ⟨fun depth c s pos at_stop same => ?_, ofDocComment?_describes plain chars⟩
  obtain ⟨n, t, run, known, steady⟩ := docComment_production_describes plain depth
    (s := { s with contextFlags := s.contextFlags ||| NodeFlags.doc, cursor := none })
    ((congrArg String.toList same).trans chars)
  change call? (.docComment start stop) _ _ = _ at run
  rw [← pos, ← at_stop] at run
  refine ⟨n, congrArg Prod.fst run, known, ?_, ?_⟩
  · exact (congrArg (·.2.torn) run).trans steady.torn
  · exact (congrArg (·.2.stalled) run).trans steady.stalled

theorem docComment_of_two_lines :
    DocLine.IsDescription "\n * a\n *   b\n ".toList ∧
      (∃ n, (docComment ⟨0, 19, true, false⟩ (.upTo 1)
          (.initial "a.js" "/**\n * a\n *   b\n */" .esNext .js none 0)).1 = some n ∧
        n.form = .doc (some "a\n  b") none) ∧
      ∃ r, Node.ofDocComment? "/**\n * a\n *   b\n */" 0 19 = some r ∧
        r.node.form = .doc (some "a\n  b") none ∧ r.torn = false := by
  have plain : DocLine.IsDescription "\n * a\n *   b\n ".toList :=
    ⟨by decide, List.forall_mem_nil _, by decide, by decide +kernel⟩
  have text : DocText.trimmed? (DocLine.description "\n * a\n *   b\n ".toList) = some "a\n  b" := by
    decide +kernel
  obtain ⟨inFile, r, run, ⟨-, -, -, form⟩, whole⟩ := docComment_is_dedented [] [] plain
  obtain ⟨n, run', ⟨-, -, -, form'⟩, -⟩ := inFile 0 ⟨0, 19, true, false⟩
    (.initial "a.js" "/**\n * a\n *   b\n */" .esNext .js none 0) rfl rfl rfl
  rw [text] at form form'
  exact ⟨plain, ⟨n, run', form'⟩, r, run, form, whole⟩

end Parse

/-- The text of a comment in which each line, the empty ones as well, kept of the blanks directly before its
text those beyond the column of the first text, and no others. -/
def DocLine.directDescription (content : List Char) : List Char :=
  let lines := (split content).2.map fun l => (l.1, ofChars l.2)
  let margin := ((lines.find? (!·.2.text.isEmpty)).map (·.2.column)).getD 0
  let kept (l : DocLine) :=
    let blanks := if l.starred then l.blanks else l.indent
    blanks.drop (blanks.length - (l.column - margin)) ++ l.text
  match lines with
  | [] => []
  | (_, l) :: rest => kept l ++ rest.flatMap fun (lineBreak, l) => lineBreak ++ kept l

/-- Blanks before an asterisk are kept too where they lie beyond the margin, and empty lines before the first
text keep none. -/
theorem Parse.docComment_keeps_blanks_before_asterisk :
    (DocLine.IsDescription "\na\n    * b\n".toList ∧
      DocText.trimmed? (DocLine.directDescription "\na\n    * b\n".toList) = some "a\n b" ∧
      ∃ r, Node.ofDocComment? "/**\na\n    * b\n*/" 0 16 = some r ∧
        r.node.form = .doc (some "a\n     b") none) ∧
    DocLine.IsDescription "\n    \n  a\n".toList ∧
      DocText.trimmed? (DocLine.directDescription "\n    \n  a\n".toList) = some "  \na" ∧
      ∃ r, Node.ofDocComment? "/**\n    \n  a\n*/" 0 15 = some r ∧ r.node.form = .doc (some "\na") none := by
  have starred : DocLine.IsDescription "\na\n    * b\n".toList :=
    ⟨by decide, List.forall_mem_nil _, by decide, by decide +kernel⟩
  have empty : DocLine.IsDescription "\n    \n  a\n".toList :=
    ⟨by decide, List.forall_mem_nil _, by decide, by decide +kernel⟩
  obtain ⟨r, run, ⟨-, -, -, form⟩, -⟩ := ofDocComment?_describes starred
    (show "/**\na\n    * b\n*/".toList = [] ++ ("/**".toList ++ (_ ++ ("*/".toList ++ []))) by decide)
  obtain ⟨r', run', ⟨-, -, -, form'⟩, -⟩ := ofDocComment?_describes empty
    (show "/**\n    \n  a\n*/".toList = [] ++ ("/**".toList ++ (_ ++ ("*/".toList ++ []))) by decide)
  exact ⟨⟨starred, by decide +kernel, r, run, form.trans (congrArg (Form.doc · none) (by decide +kernel))⟩,
    empty, by decide +kernel, r', run', form'.trans (congrArg (Form.doc · none) (by decide +kernel))⟩

end ScriptFrontend
