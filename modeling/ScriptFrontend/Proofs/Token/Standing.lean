import ScriptFrontend.Proofs.Token.Reach
import ScriptFrontend.Token.Scanner

/-!
# Where a scanner stands

A scanner stands in its text: the trivia before its token, the token and the end of the token lie in
order and inside of it. Each way of moving on keeps that and never goes back before the trivia of the
token that it leaves.
-/

namespace ScriptFrontend

namespace Scanner

open Token Token.Window

/-- The scanner stands in its text. Its token has a width and starts before the end of the window,
unless it is the end. -/
structure Placed (s : Scanner) : Prop where
  fits : s.stop ≤ s.text.utf8ByteSize
  skips : s.skipsTrivia = true
  start_le : s.fullStart ≤ s.tokenStart
  end_le : s.tokenStart ≤ s.pos
  inside : s.pos ≤ s.text.utf8ByteSize
  live : s.token ≠ .endOfFileToken → s.fullStart < s.stop ∧ s.tokenStart < s.pos

/-- The scanner reads its whole text, and its token is the end only there. -/
structure IsWhole (s : Scanner) : Prop where
  stop : s.text.utf8ByteSize ≤ s.stop
  last : s.token = .endOfFileToken → s.text.utf8ByteSize ≤ s.pos

/-- One scanner comes from another one by going on in its text. It does not come to an end where it
stands. -/
structure MovesTo (s t : Scanner) : Prop where
  placed : t.Placed
  text : t.text = s.text
  stop : t.stop = s.stop
  forward : s.fullStart ≤ t.fullStart
  live : t.fullStart = s.fullStart → s.token ≠ .endOfFileToken → t.token ≠ .endOfFileToken
  whole : s.IsWhole → t.IsWhole

/-- Going on past a token other than the end leads away from it. -/
structure Passes (s t : Scanner) : Prop extends s.MovesTo t where
  past : s.token ≠ .endOfFileToken → s.fullStart < t.fullStart

variable {s : Scanner}

theorem Placed.window_fits (h : s.Placed) : s.window.Fits := h.fits

theorem Placed.fullStart_le (h : s.Placed) : s.fullStart ≤ s.text.utf8ByteSize :=
  Nat.le_trans h.start_le (Nat.le_trans h.end_le h.inside)

theorem Placed.fullStart_le_pos (h : s.Placed) : s.fullStart ≤ s.pos :=
  Nat.le_trans h.start_le h.end_le

theorem Placed.movesTo (h : s.Placed) : s.MovesTo s :=
  ⟨h, rfl, rfl, Nat.le_refl _, fun _ token => token, fun whole => whole⟩

theorem Placed.same {t : Scanner} (h : s.Placed) (place : t.toTokenState = s.toTokenState)
    (text : t.text = s.text) (stop : t.stop = s.stop) (skips : t.skipsTrivia = s.skipsTrivia) :
    t.Placed where
  fits := by
    rw [stop, text]
    exact h.fits
  skips := skips.trans h.skips
  start_le := place ▸ h.start_le
  end_le := place ▸ h.end_le
  inside := by
    rw [place, text]
    exact h.inside
  live := by
    rw [place, stop]
    exact h.live

theorem IsWhole.same {t : Scanner} (h : s.IsWhole) (place : t.toTokenState = s.toTokenState)
    (text : t.text = s.text) (stop : t.stop = s.stop) : t.IsWhole where
  stop := by
    rw [text, stop]
    exact h.stop
  last := by
    rw [place, text]
    exact h.last

/-- A scanner whose token is the end only at the end of its window. -/
theorem IsWhole.of_last {t : Scanner} (text : t.text = s.text) (stop : t.stop = s.stop)
    (last : t.token = .endOfFileToken → t.stop ≤ t.pos) (whole : s.text.utf8ByteSize ≤ s.stop) :
    t.IsWhole := by
  rw [← text, ← stop] at whole
  exact ⟨whole, fun token => Nat.le_trans whole (last token)⟩

theorem Placed.passes {t : Scanner} (h : s.Placed) (placed : t.Placed) (text : t.text = s.text)
    (stop : t.stop = s.stop) (start : t.fullStart = s.pos)
    (last : t.token = .endOfFileToken → t.stop ≤ t.pos) : s.Passes t where
  placed := placed
  text := text
  stop := stop
  forward := start ▸ h.fullStart_le_pos
  live same token := by
    have := (h.live token).2
    have := h.start_le
    omega
  whole whole := .of_last text stop last whole.stop
  past token := by
    have := (h.live token).2
    have := h.start_le
    omega

/-- A scanner whose token was read another way stands at the same place. -/
theorem MovesTo.of_reread {t : Scanner} (placed : t.Placed) (text : t.text = s.text)
    (stop : t.stop = s.stop) (start : t.fullStart = s.fullStart)
    (token : s.token ≠ .endOfFileToken → t.token ≠ .endOfFileToken)
    (last : t.token = .endOfFileToken → t.stop ≤ t.pos) : s.MovesTo t :=
  ⟨placed, text, stop, start.ge, fun _ => token, fun whole => .of_last text stop last whole.stop⟩

@[simp] theorem report_toTokenState (errors : List ScanError) :
    (s.report errors).toTokenState = s.toTokenState := by
  rw [report]
  split <;> rfl

@[simp] theorem report_text (errors : List ScanError) : (s.report errors).text = s.text := by
  rw [report]
  split <;> rfl

@[simp] theorem report_skipsTrivia (errors : List ScanError) :
    (s.report errors).skipsTrivia = s.skipsTrivia := by
  rw [report]
  split <;> rfl

@[simp] theorem report_stop (errors : List ScanError) : (s.report errors).stop = s.stop := by
  rw [report]
  split <;> rfl

@[simp] theorem report_window (errors : List ScanError) : (s.report errors).window = s.window := by
  rw [report]
  split <;> rfl

def reported (s : Scanner) : Array ScanError := s.heard.getD s.errors

theorem report_reported (errors : List ScanError) :
    (s.report errors).reported = s.reported ++ errors.toArray := by
  rw [report]
  split <;> simp [reported, *]

theorem land_placed {l : Lexeme} {start : Nat} (fits : s.stop ≤ s.text.utf8ByteSize)
    (skips : s.skipsTrivia = true) (start_le : s.fullStart ≤ start) (h : s.window.Stands start l) :
    (s.land start l).Placed := by
  rw [land]
  constructor
  · simpa using fits
  · simpa using skips
  · simpa using start_le
  · simpa using h.reaches.le
  · simpa [window] using h.reaches.inside
  · simp only [report_toTokenState, report_stop]
    intro token
    obtain ⟨before, wide⟩ := h.solid token
    exact ⟨Nat.lt_of_le_of_lt start_le before, wide⟩

@[simp] theorem land_text (start : Nat) (l : Lexeme) : (s.land start l).text = s.text := by
  simp [land]

@[simp] theorem land_stop (start : Nat) (l : Lexeme) : (s.land start l).stop = s.stop := by
  simp [land]

@[simp] theorem land_window (start : Nat) (l : Lexeme) : (s.land start l).window = s.window := by
  rw [land, report_window]
  rfl

@[simp] theorem land_value (start : Nat) (l : Lexeme) : (s.land start l).value = l.value := by
  rw [land, report_toTokenState]

@[simp] theorem land_flags (start : Nat) (l : Lexeme) :
    (s.land start l).flags = s.flags ||| l.flags := by
  rw [land, report_toTokenState]

@[simp] theorem fresh_window : s.fresh.window = s.window := rfl

@[simp] theorem fresh_reported : s.fresh.reported = s.reported := rfl

theorem land_reported (start : Nat) (l : Lexeme) :
    (s.land start l).reported = s.reported ++ l.errors.toArray := by
  rw [land, report_reported]
  rfl

@[simp] theorem land_token (start : Nat) (l : Lexeme) : (s.land start l).token = l.kind := by
  simp [land]

@[simp] theorem land_pos (start : Nat) (l : Lexeme) : (s.land start l).pos = l.stop := by
  simp [land]

@[simp] theorem land_tokenStart (start : Nat) (l : Lexeme) :
    (s.land start l).tokenStart = start := by
  simp [land]

@[simp] theorem land_fullStart (start : Nat) (l : Lexeme) :
    (s.land start l).fullStart = s.fullStart := by
  simp [land]

/-! ## Moving on to a token -/

/-- Between two tokens: trivia may have been read. -/
structure AtTrivia (s : Scanner) : Prop where
  fits : s.window.Fits
  skips : s.skipsTrivia = true
  start_le : s.fullStart ≤ s.pos
  inside : s.pos ≤ s.text.utf8ByteSize

structure Lands (s : Scanner) (start : Nat) (t : Scanner) : Prop where
  placed : t.Placed
  text : t.text = s.text
  stop : t.stop = s.stop
  fullStart : t.fullStart = start
  last : t.token = .endOfFileToken → t.stop ≤ t.pos

theorem AtTrivia.land {l : Lexeme} (h : s.AtTrivia) (stands : s.window.Stands s.pos l) :
    s.Lands s.fullStart (s.land s.pos l) where
  placed := land_placed h.fits h.skips h.start_le stands
  text := land_text _ _
  stop := land_stop _ _
  fullStart := land_fullStart _ _
  last := by
    rw [land_token, land_stop, land_pos]
    exact fun ended => Nat.le_trans (stands.last ended) stands.reaches.le

theorem scan_go_lands (fuel : Nat) (s : Scanner) (h : s.AtTrivia) :
    s.Lands s.fullStart (scan.go fuel s) := by
  have lands : s.Lands s.fullStart (s.land s.pos (s.window.token s.pos)) :=
    h.land (token_stands h.fits h.inside)
  induction fuel generalizing s with
  | zero => exact lands
  | succ fuel ih =>
    rw [scan.go]
    split
    · rename_i l trivia
      have reaches := trivia?_reaches h.fits trivia
      rw [if_pos h.skips]
      have next : ({ s with pos := l.stop, flags := s.flags ||| l.flags }.report
          l.errors).AtTrivia := by
        constructor
        · simpa [Fits, window] using h.fits
        · simpa using h.skips
        · simpa using Nat.le_trans h.start_le reaches.le
        · simpa [window] using reaches.inside
      obtain ⟨placed, text, stop, start, last⟩ :=
        ih _ next (next.land (token_stands next.fits next.inside))
      exact ⟨placed, by simpa using text, by simpa using stop, by simpa using start, last⟩
    · exact lands

/-- A scanner may go on to a token from any place in its text. -/
structure Rests (s : Scanner) : Prop where
  fits : s.stop ≤ s.text.utf8ByteSize
  skips : s.skipsTrivia = true
  inside : s.pos ≤ s.text.utf8ByteSize

theorem Placed.rests (h : s.Placed) : s.Rests := ⟨h.fits, h.skips, h.inside⟩

/-- Before the next token its trivia starts where the last token ends. -/
theorem Rests.fresh (h : s.Rests) : s.fresh.AtTrivia :=
  ⟨h.fits, h.skips, Nat.le_refl _, h.inside⟩

theorem Lands.of_fresh {t : Scanner} (h : s.fresh.Lands s.pos t) : s.Lands s.pos t :=
  ⟨h.placed, h.text, h.stop, h.fullStart, h.last⟩

theorem Lands.passes {t : Scanner} (h : s.Lands s.pos t) (placed : s.Placed) : s.Passes t :=
  placed.passes h.placed h.text h.stop h.fullStart h.last

theorem Rests.scan (h : s.Rests) : s.Lands s.pos s.scan :=
  (scan_go_lands (s.stop + 1 - s.pos) s.fresh h.fresh).of_fresh

theorem scan_passes (h : s.Placed) : s.Passes s.scan := h.rests.scan.passes h

/-- The only token of a documentation comment without a width is its end. -/
theorem docMark?_ne_end {c : Char} {kind : Kind} (h : docMark? c = some kind) :
    kind ≠ .endOfFileToken := by
  rintro rfl
  unfold docMark? at h
  split at h <;> cases h

theorem docToken_stands {w : Window} (fits : w.Fits) (pos : Nat) (h : pos ≤ w.text.utf8ByteSize) :
    w.Stands pos (docToken w pos) := by
  rw [docToken]
  split
  · exact .of_end fits h ‹_› rfl rfl
  · rename_i c found
    have before := char?_lt_stop found
    have next : w.Reaches (pos + 1) (pos + c.utf8Size) :=
      ⟨Nat.add_le_add_left c.utf8Size_pos pos, char?_size_le found⟩
    split
    · exact .of_reaches before (next.trans (skipChars_reaches _ next.inside))
        (show Kind.whitespaceTrivia ≠ _ by decide)
    · split
      · refine .of_reaches before ?_ (show Kind.newLineTrivia ≠ _ by decide)
        dsimp only
        split
        · rename_i feed
          rw [Bool.and_eq_true] at feed
          exact ⟨Nat.le_succ_of_le next.le, lt_size_of_byte_eq feed.2 (by decide)⟩
        · exact next
      · split
        · exact .of_reaches before next (docMark?_ne_end ‹_›)
        · split
          · exact .of_reaches before (next.trans (skipChars_reaches _ next.inside))
              (Kind.ne_end_of_isPlain (nameKind_isPlain (w.slice pos _) .empty))
          · exact .of_reaches before next (show Kind.unknown ≠ _ by decide)

theorem Rests.scanDoc (h : s.Rests) : s.Lands s.pos s.scanDoc :=
  (h.fresh.land (docToken_stands h.fresh.fits _ h.inside)).of_fresh

theorem scanDoc_passes (h : s.Placed) : s.Passes s.scanDoc := h.rests.scanDoc.passes h

/-! ## Reading a token another way -/

/-- A token other than the end is read as another one with a width, from the same place on. -/
theorem reread_moves {t : Scanner} (h : s.Placed) (before : s.fullStart < s.stop)
    (text : t.text = s.text) (stop : t.stop = s.stop) (skips : t.skipsTrivia = s.skipsTrivia)
    (full : t.fullStart = s.fullStart) (start : t.tokenStart = s.tokenStart)
    (token : t.token ≠ .endOfFileToken) (reaches : s.window.Reaches (s.tokenStart + 1) t.pos) :
    s.MovesTo t := by
  refine .of_reread ⟨?_, skips.trans h.skips, ?_, ?_, ?_, fun _ => ⟨?_, ?_⟩⟩ text stop full
    (fun _ => token) fun same => absurd same token
  · rw [stop, text]
    exact h.fits
  · rw [full, start]
    exact h.start_le
  · rw [start]
    exact Nat.le_of_succ_le reaches.le
  · rw [text]
    exact reaches.inside
  · rw [full, stop]
    exact before
  · rw [start]
    exact reaches.le

theorem rescanGreater_moves (h : s.Placed) : s.MovesTo s.rescanGreater := by
  have positive : ∀ m ∈ greaterMarks, 0 < m.1.utf8ByteSize ∧ m.2 ≠ .endOfFileToken := by decide
  rw [rescanGreater]
  split
  · rename_i greater
    split
    · rename_i m found
      have stands := List.find?_some found
      obtain ⟨size, kind⟩ := positive m (List.mem_of_find?_eq_some found)
      have le := startsAt_le stands size
      have live := h.live (by rw [beq_iff_eq.mp greater]; decide)
      exact reread_moves h live.1 rfl rfl rfl rfl rfl kind
        ⟨Nat.le_add_right_of_le live.2, le⟩
    · exact h.movesTo
  · exact h.movesTo

theorem rescanLess_moves (h : s.Placed) : s.MovesTo s.rescanLess := by
  rw [rescanLess]
  split
  · rename_i less
    have live := h.live (by rw [beq_iff_eq.mp less]; decide)
    exact reread_moves h live.1 rfl rfl rfl rfl rfl (Kind.ne_end_of_isPlain rfl)
      ⟨Nat.le_refl _, Nat.le_trans live.2 h.inside⟩
  · exact h.movesTo

theorem regexEnd_go_reaches {w : Window} (fuel k : Nat) (escaped inClass : Bool)
    (h : k ≤ w.text.utf8ByteSize) : w.Reaches k (regexEnd.go w fuel k escaped inClass).1 := by
  induction fuel generalizing k escaped inClass with
  | zero => exact .here h
  | succ fuel ih =>
    rw [regexEnd.go]
    split
    · exact .here h
    · rename_i c found
      have next : w.Reaches k (k + c.utf8Size) := ⟨Nat.le_add_right _ _, char?_size_le found⟩
      have rest (escaped inClass : Bool) :
          w.Reaches k (regexEnd.go w fuel (k + c.utf8Size) escaped inClass).1 :=
        next.trans (ih _ escaped inClass next.inside)
      split
      · exact .here h
      · repeat' split
        all_goals first | exact rest _ _ | exact next

theorem rescanSlash_moves (h : s.Placed) : s.MovesTo s.rescanSlash := by
  rw [rescanSlash]
  split
  · rename_i slash
    have live : s.fullStart < s.stop ∧ s.tokenStart < s.pos := by
      apply h.live
      rw [Bool.or_eq_true] at slash
      rcases slash with same | same <;> rw [beq_iff_eq.mp same] <;> decide
    have body : s.window.Reaches (s.tokenStart + 1) (regexEnd s.window (s.tokenStart + 1)).1 :=
      regexEnd_go_reaches _ _ _ _ (Nat.le_trans live.2 h.inside)
    have whole := body.trans (skipChars_reaches Text.isIdentifierPart body.inside)
    dsimp only
    split
    · exact reread_moves h live.1 rfl rfl rfl rfl rfl (Kind.ne_end_of_isPlain rfl) whole
    · exact reread_moves h live.1 (by simp) (by simp) (by simp) (by simp) (by simp) (by simp)
        (by simpa using whole)
  · exact h.movesTo

theorem rescanTemplate_kind (s : Scanner) (report : Bool) :
    (s.rescanTemplate report).token.isPlain = true := by
  simpa [rescanTemplate] using template_kind s.window s.tokenStart report

theorem rescanTemplate_moves (h : s.Placed) (live : s.fullStart < s.stop ∧ s.tokenStart < s.pos)
    (report : Bool) : s.MovesTo (s.rescanTemplate report) := by
  have reaches := template_reaches h.window_fits report (Nat.lt_of_lt_of_le live.2 h.inside)
  exact reread_moves h live.1 (land_text _ _) (land_stop _ _) (by simp [rescanTemplate, land])
    (land_fullStart _ _) (by simp [rescanTemplate, land])
    (Kind.ne_end_of_isPlain (rescanTemplate_kind s report))
    (by simpa [rescanTemplate, land] using reaches)

/-! ## Content and names of elements -/

theorem elementText_go_reaches {w : Window} (start : Nat) (overLines : Bool) (fuel pos : Nat)
    (mark : Int) (errors : List ScanError) (h : pos ≤ w.text.utf8ByteSize) :
    w.Reaches pos (elementText.go w start overLines fuel pos mark errors).stop := by
  induction fuel generalizing pos mark errors with
  | zero => exact .here h
  | succ fuel ih =>
    rw [elementText.go]
    split
    · exact .here h
    · rename_i c found
      have next : w.Reaches pos (pos + c.utf8Size) := ⟨Nat.le_add_right _ _, char?_size_le found⟩
      split
      · exact .here h
      · extract_lets errors
        split
        · exact next.trans (ih _ _ _ next.inside)
        · split
          · exact .here h
          · split
            · exact next.trans (ih _ _ _ next.inside)
            · exact next.trans (ih _ _ _ next.inside)

theorem elementText_finish_kind {w : Window} (start pos : Nat) (mark : Int)
    (errors : List ScanError) :
    (elementText.finish w start pos mark errors).kind.isPlain = true := by
  rw [elementText.finish]
  dsimp only
  split <;> rfl

theorem elementText_go_kind {w : Window} (start : Nat) (overLines : Bool) (fuel pos : Nat)
    (mark : Int) (errors : List ScanError) :
    (elementText.go w start overLines fuel pos mark errors).kind.isPlain = true := by
  induction fuel generalizing pos mark errors with
  | zero => exact elementText_finish_kind _ _ _ _
  | succ fuel ih =>
    rw [elementText.go]
    split
    · exact elementText_finish_kind _ _ _ _
    · split
      · exact elementText_finish_kind _ _ _ _
      · extract_lets errors
        repeat' split
        all_goals first | exact ih _ _ _ | exact elementText_finish_kind _ _ _ _

/-- Where neither a brace nor a tag stands there is some text. -/
theorem elementText_stands {w : Window} {pos : Nat} {c : Char} (found : w.char? pos = some c)
    (brace : (c == '\x7b') = false) (tag : (c == '<') = false) (overLines : Bool) :
    w.Stands pos (elementText w pos overLines) := by
  have before := char?_lt_stop found
  have next : w.Reaches (pos + 1) (pos + c.utf8Size) :=
    ⟨Nat.add_le_add_left c.utf8Size_pos pos, char?_size_le found⟩
  have rest (fuel : Nat) (mark : Int) (errors : List ScanError) :
      w.Reaches (pos + 1) (elementText.go w pos overLines fuel (pos + c.utf8Size) mark errors).stop :=
    next.trans (elementText_go_reaches _ _ _ _ _ _ next.inside)
  obtain ⟨fuel, more⟩ := Nat.exists_eq_succ_of_ne_zero (Nat.sub_ne_zero_of_lt before)
  refine .of_reaches before ?_ (Kind.ne_end_of_isPlain (elementText_go_kind _ _ _ _ _ _))
  rw [elementText, more, elementText.go, found]
  simp only [brace, tag, Bool.or_self, Bool.false_eq_true, if_false, BEq.rfl, Bool.and_true,
    lt_self_iff_false, decide_false, Bool.and_false]
  split
  · exact rest _ _ _
  · split
    · exact rest _ _ _
    · exact rest _ _ _

/-- The token of an element's content at an offset, and that it is the end only at the end. -/
theorem Rests.scanElementContent (h : s.Rests) (overLines : Bool) :
    s.Lands s.pos (s.scanElementContent overLines) ∧
      (s.pos < s.stop → (s.scanElementContent overLines).token ≠ .endOfFileToken) := by
  rw [Scanner.scanElementContent]
  refine ⟨(h.fresh.land ?_).of_fresh, fun before => ?_⟩
  · split
    · exact .of_end h.fresh.fits h.inside ‹_› rfl rfl
    · rename_i c found
      have before := char?_lt_stop found
      have one : s.fresh.window.Reaches (s.fresh.pos + 1) (s.fresh.pos + 1) :=
        .here (char?_lt found)
      split
      · rename_i opened
        have le := startsAt_le opened (by decide)
        exact .of_reaches before ⟨Nat.le_succ _, le⟩ (show Kind.lessThanSlashToken ≠ _ by decide)
      · split
        · exact .of_reaches before one (show Kind.lessThanToken ≠ _ by decide)
        · split
          · exact .of_reaches before one (show Kind.openBraceToken ≠ _ by decide)
          · rename_i tag brace
            exact elementText_stands found (by simpa using brace) (by simpa using tag) overLines
  · rw [land_token]
    split
    · rename_i nothing
      rw [Window.char?, if_pos (show s.fresh.pos < s.fresh.window.stop from before), Text.charAt?,
        if_pos (show s.fresh.pos < s.fresh.window.text.utf8ByteSize from
          Nat.lt_of_lt_of_le before h.fits)] at nothing
      cases nothing
    · repeat' split
      all_goals first
        | exact Kind.ne_end_of_isPlain rfl
        | exact Kind.ne_end_of_isPlain (elementText_go_kind _ _ _ _ _ _)

theorem scanElementContent_passes (h : s.Placed) (overLines : Bool) :
    s.Passes (s.scanElementContent overLines) :=
  (h.rests.scanElementContent overLines).1.passes h

theorem rescanElementContent_moves (h : s.Placed) (overLines : Bool) :
    s.MovesTo (s.rescanElementContent overLines) := by
  have rests : Rests { s with pos := s.fullStart, tokenStart := s.fullStart } :=
    ⟨h.fits, h.skips, h.fullStart_le⟩
  obtain ⟨lands, live⟩ := rests.scanElementContent overLines
  exact .of_reread lands.placed lands.text lands.stop lands.fullStart
    (fun token => live (h.live token).1) lands.last

theorem scanElementName_go_reaches (fits : s.window.Fits) (fuel : Nat) (r : Reading)
    (h : r.stop ≤ s.text.utf8ByteSize) :
    s.window.Reaches r.stop (scanElementName.go s fuel r).stop := by
  induction fuel generalizing r with
  | zero => exact .here h
  | succ fuel ih =>
    rw [scanElementName.go]
    split
    · rename_i hyphen
      have inside : r.stop < s.text.utf8ByteSize := lt_size_of_byte_eq hyphen (by decide)
      exact (ih { r with stop := r.stop + 1, value := r.value.push '-' } inside).from_le
        (Nat.le_succ _)
    · have part := nameParts_reaches fits r.stop h
      dsimp only
      split
      · exact .here h
      · exact part.trans (ih
          { r with
            stop := (s.window.nameParts r.stop r.stop).stop
            value := r.value ++ (s.window.nameParts r.stop r.stop).value
            flags := r.flags ||| (s.window.nameParts r.stop r.stop).flags } part.inside)

theorem scanElementName_moves (h : s.Placed) : s.MovesTo s.scanElementName := by
  rw [scanElementName]
  split
  · rename_i word
    have live := h.live (by rintro same; rw [same] at word; cases word)
    have reaches := scanElementName_go_reaches h.window_fits (s.stop + 1 - s.pos)
      { stop := s.pos, value := s.value, flags := s.flags } h.inside
    exact reread_moves h live.1 rfl rfl rfl rfl rfl (Kind.ne_end_of_isPlain (nameKind_isPlain _ _))
      (reaches.from_le live.2)
  · exact h.movesTo

theorem Rests.scanAttributeValue (h : s.Rests) : s.Lands s.pos s.scanAttributeValue := by
  rw [Scanner.scanAttributeValue]
  dsimp only
  split
  · rename_i quote
    have there : s.window.byte s.pos ≠ 0 := by
      intro zero
      have : (s.window.byte s.pos == 0x22 || s.window.byte s.pos == 0x27) = true := quote
      rw [zero] at this
      cases this
    have stands : s.window.Stands s.pos ⟨s.window.quoted s.pos true, .stringLiteral⟩ :=
      .of_reaches (lt_stop_of_byte there)
        (quoted_reaches (w := s.window) h.fits true (lt_size_of_byte there))
        (show Kind.stringLiteral ≠ _ by decide)
    have before : AtTrivia { s with fullStart := s.pos, flags := .empty } :=
      ⟨h.fits, h.skips, Nat.le_refl _, h.inside⟩
    obtain ⟨placed, text, stop, start, last⟩ := before.land stands
    exact ⟨placed, text, stop, start, last⟩
  · have rests : Rests { s with fullStart := s.pos } := ⟨h.fits, h.skips, h.inside⟩
    obtain ⟨placed, text, stop, start, last⟩ := rests.scan
    exact ⟨placed, text, stop, start, last⟩

theorem scanAttributeValue_passes (h : s.Placed) : s.Passes s.scanAttributeValue :=
  h.rests.scanAttributeValue.passes h

/-! ## Going elsewhere -/

theorem moveTo_rests (h : s.Placed) {pos : Nat} (inside : pos ≤ s.text.utf8ByteSize) :
    (s.moveTo pos).Rests :=
  ⟨h.fits, h.skips, inside⟩

theorem IsWhole.moveTo {pos : Nat} (h : s.IsWhole) : (s.moveTo pos).IsWhole :=
  ⟨h.stop, fun token => nomatch token⟩

theorem restrict_rests (h : s.Placed) {start stop : Nat} (start_le : start ≤ s.text.utf8ByteSize)
    (stop_le : stop ≤ s.text.utf8ByteSize) : (s.restrict start stop).Rests :=
  ⟨stop_le, h.skips, start_le⟩

/-- What a scanner of the same text stood on may be taken up again. -/
theorem restore_placed {t : Scanner} (h : s.Placed) (fits : t.stop ≤ t.text.utf8ByteSize)
    (skips : t.skipsTrivia = true) (text : t.text = s.text) (stop : s.stop ≤ t.stop)
    (count : Nat) : (t.restore (s.toTokenState, count)).Placed :=
  ⟨fits, skips, h.start_le, h.end_le, by
    change s.pos ≤ t.text.utf8ByteSize
    rw [text]
    exact h.inside, fun token => ⟨Nat.lt_of_lt_of_le (h.live token).1 stop, (h.live token).2⟩⟩

theorem IsWhole.restore {t : Scanner} (h : s.IsWhole) (text : t.text = s.text)
    (stop : t.text.utf8ByteSize ≤ t.stop) (count : Nat) :
    (t.restore (s.toTokenState, count)).IsWhole where
  stop := stop
  last token := by
    change t.text.utf8ByteSize ≤ s.pos
    rw [text]
    exact h.last token

end Scanner

end ScriptFrontend
