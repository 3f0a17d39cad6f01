import ScriptFrontend.Proofs.Token.Boundary
import ScriptFrontend.Proofs.Token.Standing

/-!
# A scanner stands between characters

The trivia before a token, the token and its end lie in order, and none of them cuts a character of
the text. Each way to go on keeps that, and so does each way to read the token again. Some of those
start behind the first byte of the token, so what is kept also says that a token that is read so
begins with a character of one byte.
-/

namespace ScriptFrontend

namespace Token.Window

/-- What is read at an offset goes forward and ends at a boundary, and may be split where its mark
can be. -/
structure Lies (w : Window) (start : Nat) (l : Lexeme) : Prop where
  le : start ≤ l.stop
  cut : w.Cut l.stop
  split : l.kind.splits = true → start < l.stop ∧ w.Cut (start + 1)

variable {w : Window} {i : Nat} {c : Char}

theorem Lies.of_whole {l : Lexeme} (le : i ≤ l.stop) (cut : w.Cut l.stop)
    (whole : l.kind.splits = false) : w.Lies i l :=
  ⟨le, cut, fun split => absurd (whole.symm.trans split) Bool.false_ne_true⟩

theorem marksAt_front_ascii (w : Window) (c : Char) (pos : Nat) :
    ∀ m ∈ w.marksAt c pos, Text.byteAt m.1 0 < 0x80 := by
  unfold marksAt
  split
  all_goals first | decide | (split <;> decide)

theorem mark?_lies {l : Lexeme} (found : w.mark? c i = some l) : w.Lies i l := by
  have past := (mark?_solid found).1.le
  refine ⟨Nat.le_of_succ_le past, mark?_cut found, fun _ => ⟨past, ?_⟩⟩
  obtain ⟨m, mem, -⟩ := Option.map_eq_some_iff.mp found
  have listed := List.mem_of_find?_eq_some mem
  have stands := List.find?_some mem
  rw [startsAt, Bool.and_eq_true] at stands
  obtain ⟨inside, first⟩ := Text.startsAt_byteAt stands.2 (marksAt_solid w c i m listed).1
  exact (Text.boundary_of_ascii inside (first ▸ marksAt_front_ascii w c i m listed)).2

theorem token_lies (even : w.Even) (h : w.Cut i) : w.Lies i (w.token i) := by
  have le := (token_stands even.fits h.le_size).reaches.le
  have cut := token_cut even h
  revert le cut
  apply token_cases (P := fun l => i ≤ l.stop → w.Cut l.stop → w.Lies i l)
  case mark => exact fun c l _ marked _ _ => mark?_lies marked
  case last => exact fun _ le cut => .of_whole le cut rfl
  case name => exact fun c _ le cut => .of_whole le cut (Kind.splits_of_isPlain (nameKind_isPlain _ _))
  case digits => exact fun c _ _ le cut => .of_whole le cut (Kind.splits_of_isPlain (number_kind i))
  case string => exact fun c _ _ le cut => .of_whole le cut rfl
  case piece => exact fun _ le cut => .of_whole le cut (Kind.splits_of_isPlain (template_kind w i true))
  case escape => exact fun _ le cut => .of_whole le cut (Kind.splits_of_isPlain (escapedName_kind i))
  case own => exact fun _ le cut => .of_whole le cut (Kind.splits_of_isPlain (privateName_kind i))
  case stray => exact fun c _ le cut => .of_whole le cut rfl

/-! ## Trivia goes forward -/

theorem lineEnd_past (before : i < w.stop) (solid : w.breakAt i = false) : i < w.lineEnd i := by
  obtain ⟨fuel, more⟩ := Nat.exists_eq_succ_of_ne_zero (Nat.sub_ne_zero_of_lt before)
  rw [lineEnd, more, lineEnd.go, solid]
  exact (lineEnd_go_le fuel (i + 1)).1

theorem conflictEnd_past (before : i < w.stop) : i < w.conflictEnd i := by
  rw [conflictEnd]
  split
  · rename_i mark
    rw [Bool.or_eq_true, beq_iff_eq, beq_iff_eq] at mark
    refine lineEnd_past before ?_
    rcases mark with mark | mark <;> rw [breakAt, mark] <;> rfl
  · obtain ⟨fuel, more⟩ := Nat.exists_eq_succ_of_ne_zero (Nat.sub_ne_zero_of_lt before)
    rw [more, conflictEnd.go]
    simp only [bne_self_eq_false, Bool.and_false, Bool.false_and, Bool.false_eq_true, if_false]
    exact (conflictEnd_go_le (w.byte i) fuel (i + 1)).1

theorem blockComment_past (before : i < w.stop) : i < (w.blockComment i).stop := by
  rw [blockComment]
  cases found : w.find? "*/" (i + 2) with
  | none => exact before
  | some close =>
    have := find?_go_le (by decide) _ _ found
    dsimp only
    omega

theorem trivia?_past {l : Lexeme} (h : w.Cut i) (found : w.trivia? i = some l) : i < l.stop := by
  have whole (c : Char) : i < i + c.utf8Size := Nat.lt_add_of_pos_right c.utf8Size_pos
  apply trivia?_cases (P := fun l => i < l.stop) found
  case sign =>
    intro char _
    refine lineEnd_past (char?_lt_stop char) ?_
    rw [breakAt, h.byte_eq char rfl]
    rfl
  case line =>
    intro _ _
    have := (lineEnd_go_le (w := w) (w.stop - (i + 2)) (i + 2)).1
    exact Nat.lt_of_lt_of_le (Nat.lt_add_of_pos_right Nat.two_pos) this
  case block => exact fun char _ => blockComment_past (char?_lt_stop char)
  case conflict => exact fun c char => conflictEnd_past (char?_lt_stop char)
  case feed =>
    rintro c _ _ _ (⟨rfl, _⟩ | ⟨rfl, _, _⟩)
    · exact whole c
    · exact Nat.lt_add_of_pos_right Nat.two_pos
  case blank =>
    intro c char _
    exact Nat.lt_of_lt_of_le (whole c) (skipChars_reaches Text.isBlank (char?_size_le char)).le

theorem trivia?_before {l : Lexeme} (found : w.trivia? i = some l) : i < w.stop := by
  rw [trivia?] at found
  split at found
  · cases found
  · exact char?_lt_stop ‹_›

theorem trivia?_stands (even : w.Even) {l : Lexeme} (h : w.Cut i) (found : w.trivia? i = some l) :
    w.Stands i l := by
  refine .of_reaches (trivia?_before found)
    ⟨trivia?_past h found, (trivia?_reaches even.fits found).inside⟩ ?_
  intro same
  have := trivia?_kind found
  rw [same] at this
  cases this

theorem trivia?_lies (even : w.Even) {l : Lexeme} (h : w.Cut i) (found : w.trivia? i = some l) :
    w.Lies i l :=
  .of_whole (trivia?_past h found).le (trivia?_cut even h found)
    (Kind.splits_of_isTrivia (trivia?_kind found))

end Token.Window

/-! ## What a scanner stands on -/

/-- The trivia before a token, the token and its end lie in a text in order, each at a boundary. -/
structure TokenState.LiesIn (text : String) (s : TokenState) : Prop where
  full_cut : Text.Boundary text s.fullStart
  start_cut : Text.Boundary text s.tokenStart
  end_cut : Text.Boundary text s.pos
  full_le : s.fullStart ≤ s.tokenStart
  start_le : s.tokenStart ≤ s.pos

/-- What lies in a text, and can be read again from its second byte on where that is done. -/
structure TokenState.Aligned (text : String) (s : TokenState) : Prop extends s.LiesIn text where
  split : s.token.splits = true → s.tokenStart < s.pos ∧ Text.Boundary text (s.tokenStart + 1)

namespace Scanner

open Token Token.Window

/-- The scanner reads a text from its start to its end. -/
structure Reads (text : String) (s : Scanner) : Prop where
  text_eq : s.text = text
  stop_eq : s.stop = text.utf8ByteSize

/-- The scanner may go on: it ends at a boundary. -/
structure Ready (text : String) (s : Scanner) : Prop extends s.Reads text where
  cut : Text.Boundary text s.pos

/-- Between two tokens of a text: trivia may have been read. -/
structure Between (text : String) (s : Scanner) : Prop extends s.Ready text where
  full_cut : Text.Boundary text s.fullStart
  full_le : s.fullStart ≤ s.pos

/-- The scanner stands between the characters of a text. -/
structure Aligned (text : String) (s : Scanner) : Prop extends s.Reads text where
  state : s.toTokenState.Aligned text

variable {text : String} {s t : Scanner}

theorem Reads.even (h : s.Reads text) : s.window.Even := by
  obtain ⟨rfl, stop⟩ := h
  change Text.Boundary s.text s.stop
  rw [stop]
  exact Text.boundary_size s.text

theorem Ready.window_cut (h : s.Ready text) : s.window.Cut s.pos := by
  obtain ⟨⟨rfl, -⟩, cut⟩ := h
  exact cut

theorem Ready.fresh (h : s.Ready text) : s.fresh.Between text :=
  ⟨⟨⟨h.text_eq, h.stop_eq⟩, h.cut⟩, h.cut, Nat.le_refl _⟩

theorem Aligned.ready (h : s.Aligned text) : s.Ready text := ⟨h.toReads, h.state.end_cut⟩

theorem Aligned.back (h : s.Aligned text) :
    Ready text { s with pos := s.fullStart, tokenStart := s.fullStart } :=
  ⟨⟨h.text_eq, h.stop_eq⟩, h.state.full_cut⟩

theorem Between.land {l : Lexeme} (h : s.Between text) (lies : s.window.Lies s.pos l) :
    (s.land s.pos l).Aligned text := by
  obtain ⟨⟨⟨rfl, stop⟩, cut⟩, full_cut, full_le⟩ := h
  refine ⟨⟨land_text _ _, (land_stop _ _).trans stop⟩, ?_⟩
  rw [Scanner.land, report_toTokenState]
  exact ⟨⟨full_cut, cut, lies.cut, full_le, lies.le⟩, lies.split⟩

/-- The token is read another way, from its start on. -/
theorem Aligned.reread (h : s.Aligned text) (same_text : t.text = s.text)
    (same_stop : t.stop = s.stop) (full : t.fullStart = s.fullStart)
    (start : t.tokenStart = s.tokenStart) (whole : t.token.splits = false)
    (le : s.tokenStart ≤ t.pos) (cut : s.window.Cut t.pos) : t.Aligned text := by
  obtain ⟨⟨rfl, stop⟩, lies, -⟩ := h
  refine ⟨⟨same_text, same_stop.trans stop⟩, ⟨?_, ?_, cut, ?_, ?_⟩, fun split => ?_⟩
  · exact full ▸ lies.full_cut
  · exact start ▸ lies.start_cut
  · exact full ▸ start ▸ lies.full_le
  · exact start ▸ le
  · exact absurd (whole.symm.trans split) Bool.false_ne_true

/-! ## Going on to a token -/

/-- What a scanner finds that goes on: it stands on a token with a width, or at the end. Where trivia
is not left out, nothing stands before the token. -/
structure Finds (text : String) (s t : Scanner) : Prop extends t.Aligned text where
  fullStart_eq : t.fullStart = s.fullStart
  skips_eq : t.skipsTrivia = s.skipsTrivia
  bare : s.skipsTrivia = false → t.tokenStart = s.pos
  wide : t.token ≠ .endOfFileToken → t.tokenStart < t.pos
  last : t.token = .endOfFileToken → t.tokenStart = t.pos ∧ t.pos = text.utf8ByteSize

theorem Between.finds {l : Lexeme} (h : s.Between text) (lies : s.window.Lies s.pos l)
    (stands : s.window.Stands s.pos l) : Finds text s (s.land s.pos l) where
  toAligned := h.land lies
  fullStart_eq := land_fullStart _ _
  skips_eq := by simp [Scanner.land]
  bare := fun _ => by simp [Scanner.land]
  wide := by simpa [Scanner.land] using fun live => (stands.solid live).2
  last := by
    rw [land_token, land_tokenStart, land_pos]
    intro ended
    have stop : s.stop ≤ s.pos := stands.last ended
    have le := stands.reaches.le
    have inside : l.stop ≤ s.text.utf8ByteSize := stands.reaches.inside
    rw [h.stop_eq] at stop
    rw [h.text_eq] at inside
    omega

theorem Between.finds_token (h : s.Between text) :
    Finds text s (s.land s.pos (s.window.token s.pos)) :=
  h.finds (token_lies h.even h.window_cut) (token_stands h.even.fits h.window_cut.le_size)

theorem Between.finds_trivia {l : Lexeme} (h : s.Between text)
    (found : s.window.trivia? s.pos = some l) : Finds text s (s.land s.pos l) :=
  h.finds (trivia?_lies h.even h.window_cut found) (trivia?_stands h.even h.window_cut found)

def pass (s : Scanner) (l : Lexeme) : Scanner :=
  { s with pos := l.stop, flags := s.flags ||| l.flags }.report l.errors

theorem Between.pass {l : Lexeme} (h : s.Between text)
    (found : s.window.trivia? s.pos = some l) : (s.pass l).Between text := by
  have lies := trivia?_lies h.even h.window_cut found
  obtain ⟨⟨⟨rfl, stop⟩, cut⟩, full_cut, full_le⟩ := h
  have state : (s.pass l).toTokenState = { s with pos := l.stop, flags := s.flags ||| l.flags } :=
    report_toTokenState _
  refine ⟨⟨⟨report_text _, (report_stop _).trans stop⟩, ?_⟩, ?_, ?_⟩
  · rw [state]
    exact lies.cut
  · rw [state]
    exact full_cut
  · rw [state]
    exact Nat.le_trans full_le lies.le

theorem scan_go_finds (fuel : Nat) (h : s.Between text) : Finds text s (scan.go fuel s) := by
  induction fuel generalizing s with
  | zero => exact h.finds_token
  | succ fuel ih =>
    rw [scan.go]
    split
    · rename_i l found
      split
      · rename_i skipping
        obtain ⟨aligned, full, skips, -, wide, last⟩ := ih (h.pass found)
        exact ⟨aligned, full.trans (by simp [Scanner.pass]), skips.trans (by simp [Scanner.pass]),
          fun bare => absurd (bare.symm.trans skipping) Bool.false_ne_true, wide, last⟩
      · exact h.finds_trivia found
    · exact h.finds_token

theorem Ready.scan (h : s.Ready text) : Finds text s.fresh s.scan := scan_go_finds _ h.fresh

/-- Going on ends with a token where no trivia stands, or with a piece of trivia that is not left out. -/
structure Ends (text : String) (s u : Scanner) (l : Lexeme) : Prop where
  between : u.Between text
  window_eq : u.window = s.window
  stands : u.window.trivia? u.pos = some l ∨
    u.window.trivia? u.pos = none ∧ l = u.window.token u.pos

theorem scan_go_ends (fuel : Nat) (h : s.Between text) (enough : s.stop < s.pos + fuel) :
    ∃ u l, Ends text s u l ∧ scan.go fuel s = u.land u.pos l := by
  induction fuel generalizing s with
  | zero =>
    have inside : s.pos ≤ s.stop := h.stop_eq ▸ h.cut.le_size
    omega
  | succ fuel ih =>
    rw [scan.go]
    cases found : s.window.trivia? s.pos with
    | none => exact ⟨s, _, ⟨h, rfl, .inr ⟨found, rfl⟩⟩, rfl⟩
    | some l =>
      dsimp only
      split
      · have past := trivia?_past h.window_cut found
        obtain ⟨u, l', ⟨between, window, stands⟩, lands⟩ :=
          ih (h.pass found) (by simp [Scanner.pass]; omega)
        exact ⟨u, l', ⟨between, window.trans (report_window _), stands⟩, lands⟩
      · exact ⟨s, l, ⟨h, rfl, .inl found⟩, rfl⟩

theorem Ready.scan_ends (h : s.Ready text) : ∃ u l, Ends text s u l ∧ s.scan = u.land u.pos l := by
  have enough : s.stop < s.pos + (s.stop + 1 - s.pos) := by omega
  obtain ⟨u, l, ⟨between, window, stands⟩, lands⟩ := scan_go_ends _ h.fresh enough
  exact ⟨u, l, ⟨between, window, stands⟩, lands⟩

theorem Ready.scan_fullStart (h : s.Ready text) : s.scan.fullStart = s.pos := h.scan.fullStart_eq

theorem docToken_splits (w : Window) (pos : Nat) : (docToken w pos).kind.splits = false := by
  have plain (c : Char) (kind : Kind) (mark : docMark? c = some kind) : kind.splits = false := by
    unfold docMark? at mark
    split at mark <;> cases mark <;> rfl
  rw [docToken]
  split
  · rfl
  · split
    · rfl
    · split
      · rfl
      · split
        · exact plain _ _ ‹_›
        · split
          · exact Kind.splits_of_isPlain (nameKind_isPlain (w.slice pos _) .empty)
          · rfl

theorem docToken_lies {w : Window} {pos : Nat} (even : w.Even) (h : w.Cut pos) :
    w.Lies pos (docToken w pos) := by
  refine .of_whole (docToken_stands even.fits pos h.le_size).reaches.le ?_ (docToken_splits w pos)
  rw [docToken]
  split
  · exact h
  · rename_i c found
    have next := h.past_char found
    split
    · exact skipChars_cut _ next
    · split
      · dsimp only
        split
        · rename_i feed
          rw [Bool.and_eq_true] at feed
          exact (cut_of_byte_eq feed.2 (by decide)).2
        · exact next
      · split
        · exact next
        · split
          · exact skipChars_cut _ next
          · exact next

theorem Ready.scanDoc (h : s.Ready text) : s.scanDoc.Aligned text :=
  h.fresh.land (docToken_lies h.fresh.even h.fresh.window_cut)

/-! ## Reading a token another way -/

theorem Aligned.rescanGreater (h : s.Aligned text) : s.rescanGreater.Aligned text := by
  have solid : ∀ m ∈ greaterMarks, 0 < m.1.utf8ByteSize ∧
      Text.byteAt m.1 (m.1.utf8ByteSize - 1) < 0x80 ∧ m.2.splits = false := by decide
  rw [Scanner.rescanGreater]
  split
  · split
    · rename_i m found
      obtain ⟨size, ascii, whole⟩ := solid m (List.mem_of_find?_eq_some found)
      have stands := List.find?_some found
      exact h.reread rfl rfl rfl rfl whole (Nat.le_add_right_of_le h.state.start_le)
        (startsAt_past stands size ascii)
    · exact h
  · exact h

theorem Aligned.rescanLess (h : s.Aligned text) : s.rescanLess.Aligned text := by
  rw [Scanner.rescanLess]
  split
  · rename_i less
    have cut := (h.state.split (by rw [beq_iff_eq.mp less]; rfl)).2
    rw [← h.text_eq] at cut
    exact h.reread rfl rfl rfl rfl rfl (Nat.le_succ _) cut
  · exact h

theorem regexEnd_go_cut {w : Window} (fuel k : Nat) (escaped inClass : Bool) (h : w.Cut k) :
    w.Cut (regexEnd.go w fuel k escaped inClass).1 := by
  induction fuel generalizing k escaped inClass with
  | zero => exact h
  | succ fuel ih =>
    rw [regexEnd.go]
    split
    · exact h
    · rename_i c found
      have next := h.past_char found
      split
      · exact h
      · repeat' split
        all_goals first | exact ih _ _ _ next | exact next

theorem Aligned.rescanSlash (h : s.Aligned text) : s.rescanSlash.Aligned text := by
  rw [Scanner.rescanSlash]
  split
  · rename_i slash
    have cut : s.window.Cut (s.tokenStart + 1) := by
      have split : s.token.splits = true := by
        rw [Bool.or_eq_true, beq_iff_eq, beq_iff_eq] at slash
        rcases slash with same | same <;> rw [same] <;> rfl
      have := (h.state.split split).2
      rwa [← h.text_eq] at this
    have body : s.window.Cut (regexEnd s.window (s.tokenStart + 1)).1 :=
      regexEnd_go_cut _ _ _ _ cut
    have body_le : s.tokenStart + 1 ≤ (regexEnd s.window (s.tokenStart + 1)).1 :=
      (regexEnd_go_reaches _ _ _ _ cut.le_size).le
    have whole := skipChars_cut Text.isIdentifierPart body
    have le := (skipChars_reaches Text.isIdentifierPart body.le_size).le
    dsimp only
    split
    · exact h.reread rfl rfl rfl rfl rfl (Nat.le_of_succ_le (Nat.le_trans body_le le)) whole
    · exact h.reread (by simp) (by simp) (by simp) (by simp) (by simp; rfl)
        (by simpa using Nat.le_of_succ_le (Nat.le_trans body_le le)) (by simpa using whole)
  · exact h

/-- The token begins as a template piece does: after a backquote, or after the brace that closes a
substitution. -/
def startsPiece (s : Scanner) : Bool :=
  Text.byteIs s.text s.tokenStart 0x60 || Text.byteIs s.text s.tokenStart 0x7D

theorem Aligned.rescanTemplate (h : s.Aligned text) (starts : s.startsPiece = true)
    (report : Bool) : (s.rescanTemplate report).Aligned text := by
  have ascii : s.tokenStart < s.text.utf8ByteSize ∧ Text.byteAt s.text s.tokenStart < 0x80 := by
    rw [startsPiece, Text.byteIs, Text.byteIs, Bool.or_eq_true, Bool.and_eq_true, Bool.and_eq_true,
      decide_eq_true_eq, beq_iff_eq, beq_iff_eq] at starts
    rcases starts with ⟨inside, same⟩ | ⟨inside, same⟩ <;> exact ⟨inside, by rw [same]; decide⟩
  have cut : s.window.Cut (s.tokenStart + 1) := (Text.boundary_of_ascii ascii.1 ascii.2).2
  have reaches := template_reaches (w := s.window) h.even.fits report ascii.1
  refine h.reread (land_text _ _) (land_stop _ _) (land_fullStart _ _)
    (by simp [Scanner.rescanTemplate, Scanner.land])
    (Kind.splits_of_isPlain (rescanTemplate_kind s report)) ?_ ?_
  · rw [Scanner.rescanTemplate, land_pos]
    exact Nat.le_of_succ_le reaches.le
  · rw [Scanner.rescanTemplate, land_pos]
    exact template_cut h.even report cut

/-! ## Content and names of elements -/

theorem elementText_go_cut {w : Window} (start : Nat) (overLines : Bool) (fuel pos : Nat)
    (mark : Int) (errors : List ScanError) (h : w.Cut pos) :
    w.Cut (elementText.go w start overLines fuel pos mark errors).stop := by
  induction fuel generalizing pos mark errors with
  | zero => exact h
  | succ fuel ih =>
    rw [elementText.go]
    split
    · exact h
    · rename_i c found
      have next := h.past_char found
      split
      · exact h
      · extract_lets errors
        repeat' split
        all_goals first | exact h | exact ih _ _ _ next

theorem Ready.scanElementContent (h : s.Ready text) (overLines : Bool) :
    (s.scanElementContent overLines).Aligned text := by
  have even := h.fresh.even
  have cut := h.fresh.window_cut
  rw [Scanner.scanElementContent]
  refine h.fresh.land ?_
  split
  · exact .of_whole (Nat.le_refl _) cut rfl
  · rename_i c found
    split
    · rename_i opened
      exact .of_whole (Nat.le_add_right _ _) (startsAt_past opened (by decide) (by decide)) rfl
    · split
      · rename_i tag
        have past := cut.past_char found
        cases beq_iff_eq.mp tag
        exact .of_whole (Nat.le_add_right _ _) past rfl
      · split
        · rename_i brace
          have past := cut.past_char found
          cases beq_iff_eq.mp brace
          exact .of_whole (Nat.le_add_right _ _) past rfl
        · exact .of_whole (elementText_go_reaches _ _ _ _ _ _ cut.le_size).le
            (elementText_go_cut _ _ _ _ _ _ cut)
            (Kind.splits_of_isPlain (elementText_go_kind _ _ _ _ _ _))

theorem Aligned.rescanElementContent (h : s.Aligned text) (overLines : Bool) :
    (s.rescanElementContent overLines).Aligned text :=
  h.back.scanElementContent overLines

theorem scanElementName_go_cut (fits : s.window.Fits) (fuel : Nat) (r : Reading)
    (h : s.window.Cut r.stop) : s.window.Cut (scanElementName.go s fuel r).stop := by
  induction fuel generalizing r with
  | zero => exact h
  | succ fuel ih =>
    rw [scanElementName.go]
    split
    · rename_i hyphen
      exact ih _ (cut_of_byte_eq hyphen (by decide)).2
    · dsimp only
      split
      · exact h
      · exact ih _ (nameParts_cut fits r.stop h)

theorem Aligned.scanElementName (h : s.Aligned text) : s.scanElementName.Aligned text := by
  have cut := h.ready.window_cut
  rw [Scanner.scanElementName]
  split
  · have reaches := scanElementName_go_reaches h.even.fits (s.stop + 1 - s.pos)
      { stop := s.pos, value := s.value, flags := s.flags } cut.le_size
    exact h.reread rfl rfl rfl rfl (Kind.splits_of_isPlain (nameKind_isPlain _ _))
      (Nat.le_trans h.state.start_le reaches.le) (scanElementName_go_cut h.even.fits _ _ cut)
  · exact h

theorem Ready.scanAttributeValue (h : s.Ready text) : s.scanAttributeValue.Aligned text := by
  have cut := h.window_cut
  rw [Scanner.scanAttributeValue]
  dsimp only
  split
  · rename_i quote
    have solid : s.window.byte s.pos ≠ 0 ∧ s.window.byte s.pos < 0x80 := by
      change (s.window.byte s.pos == 0x22 || s.window.byte s.pos == 0x27) = true at quote
      rw [Bool.or_eq_true, beq_iff_eq, beq_iff_eq] at quote
      rcases quote with same | same <;> rw [same] <;> decide
    have before : Between text { s with fullStart := s.pos, flags := .empty } :=
      ⟨⟨⟨h.text_eq, h.stop_eq⟩, h.cut⟩, h.cut, Nat.le_refl _⟩
    refine before.land (.of_whole ?_ (quoted_cut h.even true solid) rfl)
    exact Nat.le_of_succ_le (quoted_reaches h.even.fits true (lt_size_of_byte solid.1)).le
  · have ready : Ready text { s with fullStart := s.pos } := ⟨⟨h.text_eq, h.stop_eq⟩, h.cut⟩
    exact ready.scan.toAligned

theorem Aligned.rescanAttributeValue (h : s.Aligned text) :
    s.rescanAttributeValue.Aligned text := h.back.scanAttributeValue

/-! ## Going elsewhere -/

theorem Reads.moveTo {pos : Nat} (h : s.Reads text) (cut : Text.Boundary text pos) :
    (s.moveTo pos).Aligned text :=
  ⟨⟨h.text_eq, h.stop_eq⟩, ⟨cut, cut, cut, Nat.le_refl _, Nat.le_refl _⟩, fun split => nomatch split⟩

theorem Reads.restore {saved : TokenState × Nat} (h : s.Reads text)
    (state : saved.1.Aligned text) : (s.restore saved).Aligned text :=
  ⟨⟨h.text_eq, h.stop_eq⟩, state⟩

end Scanner

end ScriptFrontend
