import ScriptFrontend.Proofs.Text.Boundary
import ScriptFrontend.Proofs.Token.Reach

/-!
# What is read ends between characters

What is read from a boundary of the text on ends at a boundary. Names, blanks and strange characters
are read character by character. Digits, strings, comments and marks are read byte by byte, but all
that can end them are bytes of ASCII, the line breaks beyond ASCII, and the end of the window.
-/

namespace ScriptFrontend.Text

theorem isDigit_ascii (b : UInt8) (h : isDigit b = true) : b < 0x80 := by
  rw [isDigit, Bool.and_eq_true, decide_eq_true_eq, decide_eq_true_eq] at h
  exact UInt8.lt_of_le_of_lt h.2 (by decide)

theorem isOctalDigit_ascii (b : UInt8) (h : isOctalDigit b = true) : b < 0x80 := by
  rw [isOctalDigit, Bool.and_eq_true, decide_eq_true_eq, decide_eq_true_eq] at h
  exact UInt8.lt_of_le_of_lt h.2 (by decide)

theorem isBinaryDigit_ascii (b : UInt8) (h : isBinaryDigit b = true) : b < 0x80 := by
  rw [isBinaryDigit, Bool.or_eq_true, beq_iff_eq, beq_iff_eq] at h
  rcases h with rfl | rfl <;> decide

theorem isHexDigit_ascii (b : UInt8) (h : isHexDigit b = true) : b < 0x80 := by
  rw [isHexDigit, Bool.or_eq_true, Bool.or_eq_true, Bool.and_eq_true, Bool.and_eq_true,
    decide_eq_true_eq, decide_eq_true_eq, decide_eq_true_eq, decide_eq_true_eq] at h
  rcases h with (digit | upper) | lower
  · exact isDigit_ascii b digit
  · exact UInt8.lt_of_le_of_lt upper.2 (by decide)
  · exact UInt8.lt_of_le_of_lt lower.2 (by decide)

end ScriptFrontend.Text

namespace ScriptFrontend.Token.Window

/-- A character begins at an offset of the text, or the text ends there. -/
def Cut (w : Window) (i : Nat) : Prop := Text.Boundary w.text i

def Even (w : Window) : Prop := w.Cut w.stop

variable {w : Window} {i k : Nat} {b : UInt8} {c : Char}

theorem Cut.le_size (h : w.Cut i) : i ≤ w.text.utf8ByteSize := Text.Boundary.le_size h

theorem Even.fits (h : w.Even) : w.Fits := h.le_size

/-! ## Bytes and characters -/

theorem cut_of_byte (there : w.byte i ≠ 0) (ascii : w.byte i < 0x80) : w.Cut i ∧ w.Cut (i + 1) := by
  have inside := lt_size_of_byte there
  rw [byte, if_pos (lt_stop_of_byte there)] at ascii
  exact Text.boundary_of_ascii inside ascii

theorem cut_of_byte_eq (h : (w.byte i == b) = true) (solid : b ≠ 0 ∧ b < 0x80) :
    w.Cut i ∧ w.Cut (i + 1) := by
  rw [beq_iff_eq] at h
  exact cut_of_byte (h ▸ solid.1) (h ▸ solid.2)

theorem charAt?_of_char? (h : w.char? i = some c) : Text.charAt? w.text i = some c := by
  rw [char?] at h
  split at h
  · exact h
  · cases h

theorem Cut.past_char (h : w.Cut i) (found : w.char? i = some c) : w.Cut (i + c.utf8Size) :=
  Text.Boundary.next h (charAt?_of_char? found)

theorem Cut.byte_eq (h : w.Cut i) (found : w.char? i = some c) (one : c.utf8Size = 1) :
    w.byte i = c.val.toUInt8 := by
  have first := (Text.Boundary.encodes h (charAt?_of_char? found)).2 0
    (by rw [String.length_utf8EncodeChar, one]; exact Nat.one_pos)
  rw [Nat.add_zero] at first
  rw [byte, if_pos (char?_lt_stop found), first]
  simp only [String.utf8EncodeChar_eq_singleton one, List.getElem_cons_zero]

theorem startsAt_past {word : String} (h : w.startsAt i word = true) (size : 0 < word.utf8ByteSize)
    (ascii : Text.byteAt word (word.utf8ByteSize - 1) < 0x80) : w.Cut (i + word.utf8ByteSize) := by
  rw [startsAt, Bool.and_eq_true] at h
  obtain ⟨inside, last⟩ := Text.startsAt_byteAt h.2 (Nat.sub_one_lt (Nat.ne_of_gt size))
  have := (Text.boundary_of_ascii inside (last ▸ ascii)).2
  rwa [Nat.add_assoc, Nat.sub_add_cancel size] at this

theorem startsAt_char_cut (h : w.startsAt i (String.singleton c) = true) : w.Cut i := by
  rw [startsAt, Bool.and_eq_true] at h
  exact (Text.encodes_of_startsAt h.2).boundary

/-- Between bytes of ASCII the text may be cut anywhere. -/
theorem skipBytes_within {p : UInt8 → Bool} (fits : w.Fits) (ascii : ∀ b, p b = true → b < 0x80)
    (h : w.Cut i) (le : i ≤ k) (inside : k ≤ w.skipBytes p i) : w.Cut k := by
  have loop (fuel j : Nat) (h : w.Cut j) (le : j ≤ k) (inside : k ≤ skipBytes.go w p fuel j) :
      w.Cut k := by
    induction fuel generalizing j with
    | zero => exact Nat.le_antisymm le inside ▸ h
    | succ fuel ih =>
      rw [skipBytes.go] at inside
      split at inside
      · rename_i step
        rw [Bool.and_eq_true, decide_eq_true_eq, byte] at step
        have before : j < w.text.utf8ByteSize := Nat.lt_of_lt_of_le step.1 fits
        rw [if_pos step.1] at step
        rcases Nat.eq_or_lt_of_le le with rfl | later
        · exact h
        · exact ih (j + 1) (Text.boundary_of_ascii before (ascii _ step.2)).2 later inside
      · exact Nat.le_antisymm le inside ▸ h
  exact loop _ i h le inside

theorem skipBytes_cut {p : UInt8 → Bool} (fits : w.Fits) (ascii : ∀ b, p b = true → b < 0x80)
    (h : w.Cut i) : w.Cut (w.skipBytes p i) :=
  skipBytes_within fits ascii h (skipBytes_reaches fits p h.le_size).le (Nat.le_refl _)

theorem skipChars_cut (p : Char → Bool) (h : w.Cut i) : w.Cut (w.skipChars p i) := by
  have loop (fuel k : Nat) (h : w.Cut k) : w.Cut (skipChars.go w p fuel k) := by
    induction fuel generalizing k with
    | zero => exact h
    | succ fuel ih =>
      rw [skipChars.go]
      split
      · split
        · exact ih _ (h.past_char ‹_›)
        · exact h
      · exact h
  exact loop _ i h

/-- A loop over the bytes of a window ends where it stops or at the end of the window. -/
theorem cut_of_le {f : Nat → Nat → Nat} (even : w.Even) (done : ∀ k, f 0 k = k)
    (step : ∀ fuel k, w.Cut (f (fuel + 1) k) ∨ f (fuel + 1) k = f fuel (k + 1)) (h : w.Cut i) :
    w.Cut (f (w.stop - i) i) := by
  have loop (fuel k : Nat) (reach : k + fuel = w.stop) : w.Cut (f fuel k) := by
    induction fuel generalizing k with
    | zero =>
      rw [done, ← Nat.add_zero k, reach]
      exact even
    | succ fuel ih =>
      rcases step fuel k with cut | same
      · exact cut
      · rw [same]
        exact ih (k + 1) (by omega)
  rcases Nat.le_total i w.stop with le | ge
  · exact loop _ i (by omega)
  · rw [Nat.sub_eq_zero_of_le ge, done]
    exact h

theorem breakAt_cut (h : w.breakAt k = true) : w.Cut k := by
  rw [breakAt, Bool.or_eq_true, Bool.or_eq_true, Bool.and_eq_true, Bool.or_eq_true] at h
  rcases h with (feed | feed) | ⟨-, other⟩
  · exact (cut_of_byte_eq feed (by decide)).1
  · exact (cut_of_byte_eq feed (by decide)).1
  · exact other.elim (startsAt_char_cut (c := '\u2028')) (startsAt_char_cut (c := '\u2029'))

theorem lineEnd_cut (even : w.Even) (h : w.Cut i) : w.Cut (w.lineEnd i) := by
  refine cut_of_le even (fun _ => rfl) (fun fuel k => ?_) h
  rw [lineEnd.go]
  split
  · exact .inl (breakAt_cut ‹_›)
  · exact .inr rfl

/-! ## Names -/

theorem nameEscape?_cut (fits : w.Fits) {length : Nat} {braced : Bool}
    (h : w.nameEscape? i = some (c, length, braced)) : w.Cut (i + length) := by
  rw [nameEscape?] at h
  split at h
  · cases h
  · rename_i opened
    have opened : w.Cut (i + 2) := startsAt_past (by simpa using opened) (by decide) (by decide)
    split at h
    · rename_i brace
      have opened : w.Cut (i + 3) := (cut_of_byte_eq brace (by decide)).2
      have skipped := skipBytes_reaches fits Text.isHexDigit opened.le_size
      dsimp only at h
      split at h
      · cases h
      · rename_i closed
        rw [Bool.or_eq_true, not_or, bne_iff_ne, not_not] at closed
        obtain ⟨_, _, same⟩ := Option.map_eq_some_iff.mp h
        cases same
        have le := skipped.le
        rw [show i + (w.skipBytes Text.isHexDigit (i + 3) + 1 - i) =
          w.skipBytes Text.isHexDigit (i + 3) + 1 by omega]
        exact (cut_of_byte_eq (beq_iff_eq.mpr closed.2) (by decide)).2
    · dsimp only at h
      split at h
      · cases h
      · obtain ⟨_, _, same⟩ := Option.map_eq_some_iff.mp h
        cases same
        exact skipBytes_within fits Text.isHexDigit_ascii opened (by omega) (by omega)

theorem nameParts_cut (fits : w.Fits) (start : Nat) (h : w.Cut i) :
    w.Cut (w.nameParts start i).stop := by
  have loop (fuel pos chunk : Nat) (out : String) (flags : TokenFlags) (h : w.Cut pos) :
      w.Cut (nameParts.go w fuel pos chunk out flags).stop := by
    induction fuel generalizing pos chunk out flags with
    | zero => exact h
    | succ fuel ih =>
      rw [nameParts.go]
      split
      · exact h
      · split
        · exact ih _ _ _ _ (h.past_char ‹_›)
        · split
          · split
            · exact ih _ _ _ _ (nameEscape?_cut fits ‹_›)
            · exact h
          · exact h
  exact loop _ i start "" .empty h

theorem escapedName_cut (fits : w.Fits) (h : w.Cut (i + 1)) : w.Cut (w.escapedName i).stop := by
  rw [escapedName]
  split
  · split
    · exact nameParts_cut fits _ (nameEscape?_cut fits ‹_›)
    · exact h
  · exact h

theorem privateName_cut (fits : w.Fits) (h : w.Cut (i + 1)) : w.Cut (w.privateName i).stop := by
  rw [privateName]
  split
  · split
    · exact nameParts_cut fits i (h.past_char ‹_›)
    · exact h
  · exact h

/-! ## Numbers -/

theorem digits_cut {isValid : UInt8 → Bool} (ascii : ∀ b, isValid b = true → b < 0x80)
    (zero : isValid 0 = false) (h : w.Cut i) : w.Cut (w.digits isValid i).stop := by
  have loop (fuel pos : Nat) (allowed repeated : Bool) (r : Reading) (h : w.Cut pos) :
      w.Cut (digits.go w isValid fuel pos allowed repeated r).stop := by
    induction fuel generalizing pos allowed repeated r with
    | zero => exact h
    | succ fuel ih =>
      rw [digits.go]
      split
      · rename_i separator
        have past := (cut_of_byte_eq separator (by decide)).2
        dsimp only
        split <;> exact ih _ _ _ _ past
      · split
        · rename_i valid
          have there : w.byte pos ≠ 0 := fun same => by simp [same, zero] at valid
          exact ih _ _ _ _ (cut_of_byte there (ascii _ valid)).2
        · exact h
  rw [digits]
  split <;> exact loop _ i false false { stop := i } h

theorem digit_cut (h : w.Cut i) : w.Cut (w.digits Text.isDigit i).stop :=
  digits_cut Text.isDigit_ascii (by decide) h

theorem finishNumber_cut (value : String) (flags : TokenFlags) (errors : List ScanError)
    (mayBeBig : Bool) (h : w.Cut i) : w.Cut (w.finishNumber i value flags errors mayBeBig).stop := by
  rw [finishNumber]
  split
  · rename_i big
    rw [Bool.and_eq_true] at big
    exact (cut_of_byte_eq big.2 (by decide)).2
  · exact h

theorem radixNumber_cut (base : Nat) {isValid : UInt8 → Bool}
    (ascii : ∀ b, isValid b = true → b < 0x80) (zero : isValid 0 = false) (flag : TokenFlags)
    (missing : Diagnostic.Fault) (h : w.Cut (i + 2)) :
    w.Cut (w.radixNumber i base isValid flag missing).stop := by
  rw [radixNumber]
  split <;> exact finishNumber_cut _ _ _ _ (digits_cut ascii zero h)

theorem legacyOctal?_cut (fits : w.Fits) {l : Lexeme} (found : w.legacyOctal? i = some l)
    (h : w.Cut (i + 1)) : w.Cut l.stop := by
  rw [legacyOctal?] at found
  dsimp only at found
  split at found
  · cases found
    exact finishNumber_cut _ _ _ _ (skipBytes_cut fits Text.isDigit_ascii h)
  · cases found

theorem cut_past_either {a b : UInt8} (h : (w.byte i == a || w.byte i == b) = true)
    (first : a ≠ 0 ∧ a < 0x80) (second : b ≠ 0 ∧ b < 0x80) : w.Cut (i + 1) := by
  rw [Bool.or_eq_true] at h
  exact h.elim (fun same => (cut_of_byte_eq same first).2) fun same => (cut_of_byte_eq same second).2

theorem exponent_cut (h : w.Cut i) : w.Cut (w.exponent i).stop := by
  rw [exponent]
  split
  · rename_i letter
    have past := cut_past_either letter (by decide) (by decide)
    dsimp only
    split
    · rename_i sign
      exact digit_cut (cut_past_either sign (by decide) (by decide))
    · exact digit_cut past
  · exact h

theorem decimalNumber_cut (h : w.Cut i) : w.Cut (w.decimalNumber i).stop := by
  unfold decimalNumber
  extract_lets whole hasPoint part power isInteger
  have whole_cut : w.Cut whole.stop := by
    subst whole
    split
    · exact h
    · exact digit_cut h
  have part_cut : w.Cut part.stop := by
    subst part
    split
    · rename_i point
      exact digit_cut (cut_of_byte_eq point (by decide)).2
    · exact whole_cut
  exact finishNumber_cut _ _ _ _ (exponent_cut part_cut)

theorem number_cut (fits : w.Fits) (h : w.Cut i) : w.Cut (w.number i).stop := by
  rw [number]
  split
  · rename_i leading
    have past := (cut_of_byte_eq leading (by decide)).2
    split
    · rename_i second
      exact radixNumber_cut _ Text.isHexDigit_ascii (by decide) _ _
        (cut_past_either second (by decide) (by decide))
    · split
      · rename_i second
        exact radixNumber_cut _ Text.isBinaryDigit_ascii (by decide) _ _
          (cut_past_either second (by decide) (by decide))
      · split
        · rename_i second
          exact radixNumber_cut _ Text.isOctalDigit_ascii (by decide) _ _
            (cut_past_either second (by decide) (by decide))
        · split
          · cases octal : w.legacyOctal? i with
            | none => exact decimalNumber_cut h
            | some l => exact legacyOctal?_cut fits octal past
          · exact decimalNumber_cut h
  · exact decimalNumber_cut h

/-! ## Strings and templates -/

theorem bracedEscape_cut (fits : w.Fits) (mode : EscapeMode) (start : Nat) (h : w.Cut i) :
    w.Cut (w.bracedEscape mode start i).stop := by
  have read := skipBytes_cut fits Text.isHexDigit_ascii h
  rw [bracedEscape]
  dsimp only
  split
  · rw [Reading.andThen, refused_stop]
    exact read
  · split
    · rename_i closed
      exact (cut_of_byte_eq closed (by decide)).2
    · rw [Reading.andThen, refused_stop]
      exact read

theorem fourHex?_cut (fits : w.Fits) {n : Nat} (found : w.fourHex? i = some n) (h : w.Cut i) :
    w.Cut (i + 4) := by
  rw [fourHex?] at found
  split at found
  · cases found
  · exact skipBytes_within fits Text.isHexDigit_ascii h (by omega) (by omega)

theorem unicodeEscape_cut (fits : w.Fits) (mode : EscapeMode) (start : Nat) (h : w.Cut i) :
    w.Cut (w.unicodeEscape mode start i).stop := by
  rw [unicodeEscape]
  split
  · rename_i brace
    exact bracedEscape_cut fits mode start (cut_of_byte_eq brace (by decide)).2
  · split
    · rw [refused_stop]
      exact h
    · rename_i n digits
      have single := fourHex?_cut fits digits h
      dsimp only
      split
      · rename_i high
        rw [Bool.and_eq_true] at high
        have opened : w.Cut (i + 4 + 2) := startsAt_past high.2 (by decide) (by decide)
        split
        · rename_i low lowDigits
          split
          · exact fourHex?_cut fits lowDigits opened
          · exact single
        · exact single
      · exact single

theorem octalEscape_cut (fits : w.Fits) (mode : EscapeMode) (start : Nat) (h : w.Cut i) :
    w.Cut (w.octalEscape mode start i).stop := by
  have read := skipBytes_reaches fits Text.isOctalDigit h.le_size
  unfold octalEscape
  extract_lets limit stop n r
  have limit_le : i ≤ limit := by
    subst limit
    split <;> omega
  have : w.Cut stop := skipBytes_within fits Text.isOctalDigit_ascii h
    (Nat.le_min.mpr ⟨limit_le, read.le⟩) (Nat.min_le_right _ _)
  subst r
  split <;> exact this

theorem hexEscape_cut (fits : w.Fits) (mode : EscapeMode) (start : Nat) (h : w.Cut i) :
    w.Cut (w.hexEscape mode start i).stop := by
  have read := skipBytes_reaches fits Text.isHexDigit h.le_size
  have : w.Cut (min (i + 2) (w.skipBytes Text.isHexDigit i)) :=
    skipBytes_within fits Text.isHexDigit_ascii h
      (Nat.le_min.mpr ⟨Nat.le_add_right _ _, read.le⟩) (Nat.min_le_right _ _)
  rw [hexEscape]
  dsimp only
  split
  · change w.Cut (w.refused mode _ start _).stop
    rw [refused_stop]
    exact this
  · exact this

theorem letterEscape?_ascii {e : Char} (h : letterEscape? b = some e) : b ≠ 0 ∧ b < 0x80 := by
  unfold letterEscape? at h
  repeat' split at h
  all_goals first
    | rename_i same
      rw [beq_iff_eq.mp same]
      decide
    | cases h

theorem escape_cut (fits : w.Fits) (mode : EscapeMode) (h : w.Cut (i + 1)) :
    w.Cut (w.escape mode i).stop := by
  rw [escape]
  dsimp only
  split
  · exact h
  · rename_i c found
    have whole := h.past_char found
    split
    · rename_i zero
      rw [Bool.and_eq_true] at zero
      exact (cut_of_byte_eq zero.1 (by decide)).2
    · split
      · exact octalEscape_cut fits mode i h
      · split
        · rename_i digit
          split <;> exact cut_past_either digit (by decide) (by decide)
        · split
          · rename_i letter
            exact unicodeEscape_cut fits mode i (cut_of_byte_eq letter (by decide)).2
          · split
            · rename_i letter
              exact hexEscape_cut fits mode i (cut_of_byte_eq letter (by decide)).2
            · split
              · rename_i feed
                dsimp only
                split
                · rename_i second
                  exact (cut_of_byte_eq second (by decide)).2
                · exact (cut_of_byte_eq feed (by decide)).2
              · split
                · exact whole
                · split
                  · rename_i letter
                    exact (cut_of_byte_eq (beq_self_eq_true _) (letterEscape?_ascii letter)).2
                  · exact whole

theorem Even.next (even : w.Even) (before : i < w.stop) (past : w.stop ≤ i + 1) : w.Cut (i + 1) :=
  Nat.le_antisymm past before ▸ even

theorem quoted_cut (even : w.Even) (isAttribute : Bool) (quote : w.byte i ≠ 0 ∧ w.byte i < 0x80) :
    w.Cut (w.quoted i isAttribute).stop := by
  -- The loop goes on byte by byte, so it is known to be at a boundary only where it stops.
  have loop (fuel pos chunk : Nat) (r : Reading) (reach : w.stop ≤ pos + fuel)
      (edge : w.stop ≤ pos → w.Cut pos) :
      w.Cut (quoted.go w i isAttribute fuel pos chunk r).stop := by
    induction fuel generalizing pos chunk r with
    | zero => exact edge reach
    | succ fuel ih =>
      rw [quoted.go]
      split
      · exact edge ‹_›
      · rename_i before
        have before := Nat.lt_of_not_le before
        dsimp only
        split
        · rename_i same
          exact (cut_of_byte_eq same quote).2
        · split
          · rename_i backslash
            rw [Bool.and_eq_true] at backslash
            have past := (cut_of_byte_eq backslash.1 (by decide)).2
            have escaped := escape_cut even.fits ⟨false, true⟩ past
            have le := (escape_reaches even.fits ⟨false, true⟩ past.le_size).le
            exact ih _ _ _ (by omega) fun _ => escaped
          · split
            · rename_i feed
              rw [Bool.and_eq_true, Bool.or_eq_true] at feed
              exact feed.1.elim (fun same => (cut_of_byte_eq same (by decide)).1)
                fun same => (cut_of_byte_eq same (by decide)).1
            · exact ih _ _ _ (by omega) (even.next before)
  have past := (cut_of_byte quote.1 quote.2).2
  exact loop _ _ _ _ (by omega) fun _ => past

theorem template_cut (even : w.Even) (report : Bool) (h : w.Cut (i + 1)) :
    w.Cut (w.template i report).stop := by
  have loop (fuel pos chunk : Nat) (r : Reading) (reach : w.stop ≤ pos + fuel)
      (edge : w.stop ≤ pos → w.Cut pos) :
      w.Cut (template.go w i report fuel pos chunk r).stop := by
    induction fuel generalizing pos chunk r with
    | zero => exact edge reach
    | succ fuel ih =>
      rw [template.go]
      split
      · exact edge ‹_›
      · rename_i before
        have before := Nat.lt_of_not_le before
        dsimp only
        split
        · rename_i same
          exact (cut_of_byte_eq same (by decide)).2
        · split
          · rename_i dollar
            rw [Bool.and_eq_true] at dollar
            exact (cut_of_byte_eq dollar.2 (by decide)).2
          · split
            · rename_i backslash
              have past := (cut_of_byte_eq backslash (by decide)).2
              have escaped := escape_cut even.fits ⟨true, report⟩ past
              have le := (escape_reaches even.fits ⟨true, report⟩ past.le_size).le
              exact ih _ _ _ (by omega) fun _ => escaped
            · split
              · rename_i feed
                have past := (cut_of_byte_eq feed (by decide)).2
                split
                · rename_i second
                  exact ih _ _ _ (by omega) fun _ => (cut_of_byte_eq second (by decide)).2
                · exact ih _ _ _ (by omega) fun _ => past
              · exact ih _ _ _ (by omega) (even.next before)
  exact loop _ _ _ _ (by omega) fun _ => h

/-! ## Trivia and marks -/

theorem conflictEnd_cut (even : w.Even) (h : w.Cut i) : w.Cut (w.conflictEnd i) := by
  rw [conflictEnd]
  split
  · exact lineEnd_cut even h
  · refine cut_of_le even (fun _ => rfl) (fun fuel k => ?_) h
    rw [conflictEnd.go]
    split
    · rename_i marker
      rw [Bool.and_eq_true, Bool.and_eq_true, Bool.or_eq_true] at marker
      exact .inl (marker.1.1.elim (fun same => (cut_of_byte_eq same (by decide)).1)
        fun same => (cut_of_byte_eq same (by decide)).1)
    · exact .inr rfl

theorem find?_startsAt {word : String} {close : Nat} (h : w.find? word i = some close) :
    w.startsAt close word = true := by
  have loop (fuel k : Nat) (h : find?.go w word fuel k = some close) :
      w.startsAt close word = true := by
    induction fuel generalizing k with
    | zero => cases h
    | succ fuel ih =>
      rw [find?.go] at h
      split at h
      · cases h
        assumption
      · exact ih (k + 1) h
  exact loop _ i h

theorem blockComment_cut (even : w.Even) (i : Nat) : w.Cut (w.blockComment i).stop := by
  rw [blockComment]
  cases found : w.find? "*/" (i + 2) with
  | none => exact even
  | some close => exact startsAt_past (find?_startsAt found) (by decide) (by decide)

theorem trivia?_cut (even : w.Even) {l : Lexeme} (h : w.Cut i) (found : w.trivia? i = some l) :
    w.Cut l.stop := by
  apply trivia?_cases (P := fun l => w.Cut l.stop) found
  case sign => exact fun _ _ => lineEnd_cut even h
  case line =>
    intro _ slash
    have there : w.byte (i + 1) ≠ 0 := by rw [slash]; decide
    exact lineEnd_cut even (cut_of_byte there (by rw [slash]; decide)).2
  case block => exact fun _ _ => blockComment_cut even i
  case conflict => exact fun c _ => conflictEnd_cut even h
  case feed =>
    rintro c _ char _ (⟨rfl, _⟩ | ⟨rfl, _, feed⟩)
    · exact h.past_char char
    · have there : w.byte (i + 1) ≠ 0 := by rw [feed]; decide
      exact (cut_of_byte there (by rw [feed]; decide)).2
  case blank => exact fun c char _ => skipChars_cut _ (h.past_char char)

theorem marksAt_ascii (w : Window) (c : Char) (pos : Nat) :
    ∀ m ∈ w.marksAt c pos, Text.byteAt m.1 (m.1.utf8ByteSize - 1) < 0x80 := by
  unfold marksAt
  split
  all_goals first | decide | (split <;> decide)

theorem mark?_cut {l : Lexeme} (found : w.mark? c i = some l) : w.Cut l.stop := by
  obtain ⟨m, mem, same⟩ := Option.map_eq_some_iff.mp found
  have listed := List.mem_of_find?_eq_some mem
  have stands := List.find?_some mem
  rw [← same]
  exact startsAt_past stands (marksAt_solid w c i m listed).1
    (marksAt_ascii w c i m listed)

theorem token_cut (even : w.Even) (h : w.Cut i) : w.Cut (w.token i).stop := by
  apply token_cases (P := fun l => w.Cut l.stop)
  case last => exact fun _ => h
  case name => exact fun c found => nameParts_cut even.fits i (h.past_char found)
  case digits => exact fun c _ _ => number_cut even.fits h
  case string =>
    intro c found quote
    refine quoted_cut even false ?_
    rcases quote with rfl | rfl <;> rw [h.byte_eq found rfl] <;> decide
  case piece => exact fun found => template_cut even true (h.past_char found)
  case escape => exact fun found => escapedName_cut even.fits (h.past_char found)
  case own => exact fun found => privateName_cut even.fits (h.past_char found)
  case mark => exact fun c l _ marked => mark?_cut marked
  case stray => exact fun c found => h.past_char found

end ScriptFrontend.Token.Window
