import ScriptFrontend.Proofs.Tree.FlagSet
import ScriptFrontend.Token.Mark
import Mathlib.Data.String.Basic

/-!
# How far what is read reaches

What is read at an offset of a text ends at that offset or behind it, and inside the text. The end
of the window may lie inside a character, so a token may end behind the window, but never behind the
text.
-/

namespace ScriptFrontend.Text

theorem getAux_past (cs : List Char) (i p : Nat) (h : p < i) :
    String.Pos.Raw.utf8GetAux cs ⟨i⟩ ⟨p⟩ = default := by
  induction cs generalizing i with
  | nil => rfl
  | cons c cs ih =>
    have distinct : (⟨i⟩ : String.Pos.Raw) ≠ ⟨p⟩ := by
      intro same
      injection same
      omega
    rw [String.Pos.Raw.utf8GetAux, if_neg distinct]
    exact ih (i + c.utf8Size) (by omega)

/-- A character of a list that begins at `i` ends inside of it, be the offset one of a character or
not. -/
theorem getAux_size_le (cs : List Char) (i p : Nat) (h : i ≤ p)
    (inside : p < i + String.utf8Len cs) :
    p + (String.Pos.Raw.utf8GetAux cs ⟨i⟩ ⟨p⟩).utf8Size ≤ i + String.utf8Len cs := by
  induction cs generalizing i with
  | nil =>
    simp at inside
    omega
  | cons c cs ih =>
    rw [String.utf8Len_cons] at inside ⊢
    rw [String.Pos.Raw.utf8GetAux]
    split
    · rename_i same
      injection same with same
      omega
    · change p + (String.Pos.Raw.utf8GetAux cs ⟨i + c.utf8Size⟩ ⟨p⟩).utf8Size ≤ _
      rcases Nat.lt_or_ge p (i + c.utf8Size) with before | behind
      · rw [getAux_past cs (i + c.utf8Size) p before]
        have one : (default : Char).utf8Size = 1 := rfl
        omega
      · have := ih (i + c.utf8Size) behind (by omega)
        omega

theorem utf8ByteSize_eq_utf8Len (s : String) : s.utf8ByteSize = String.utf8Len s.toList := by
  conv_lhs => rw [← String.ofList_toList (s := s)]
  exact String.utf8ByteSize_ofList _

theorem charAt?_size_le {s : String} {i : Nat} {c : Char} (h : charAt? s i = some c) :
    i + c.utf8Size ≤ s.utf8ByteSize := by
  rw [charAt?] at h
  split at h
  · rename_i inside
    injection h with h
    rw [← h, String.Pos.Raw.get, utf8ByteSize_eq_utf8Len]
    rw [utf8ByteSize_eq_utf8Len] at inside
    have := getAux_size_le s.toList 0 i (Nat.zero_le i) (by omega)
    simpa using this
  · cases h

theorem lt_size_of_byteAt {s : String} {i : Nat} (h : byteAt s i ≠ 0) : i < s.utf8ByteSize := by
  rw [byteAt] at h
  split at h
  · rename_i inside
    exact inside
  · exact absurd rfl h

theorem startsAt_go_le {s word : String} {i : Nat} (fuel k : Nat)
    (h : startsAt.go s i word fuel k = true) (positive : 0 < fuel) :
    i + k + fuel ≤ s.utf8ByteSize := by
  induction fuel generalizing k with
  | zero => omega
  | succ fuel ih =>
    rw [startsAt.go, Bool.and_eq_true, byteIs, Bool.and_eq_true, decide_eq_true_eq] at h
    rcases Nat.eq_zero_or_pos fuel with rfl | more
    · omega
    · have := ih (k + 1) h.2 more
      omega

theorem startsAt_le {s word : String} {i : Nat} (h : startsAt s i word = true)
    (positive : 0 < word.utf8ByteSize) : i + word.utf8ByteSize ≤ s.utf8ByteSize := by
  simpa using startsAt_go_le word.utf8ByteSize 0 h positive

end ScriptFrontend.Text

namespace ScriptFrontend.Kind

/-- A mark of which only the first character may be read again. -/
def splits : Kind → Bool
  | .lessThanLessThanToken | .slashToken | .slashEqualsToken => true
  | _ => false

/-- The kinds of names, literals and stray characters, among others. -/
def isPlain (k : Kind) : Bool := k != .endOfFileToken && !k.splits && !k.isTrivia

variable {k : Kind}

theorem isPlain_iff :
    k.isPlain = true ↔ k ≠ .endOfFileToken ∧ k.splits = false ∧ k.isTrivia = false := by
  simp [isPlain, and_assoc]

theorem ne_end_of_isPlain (h : k.isPlain = true) : k ≠ .endOfFileToken := (isPlain_iff.mp h).1

theorem splits_of_isPlain (h : k.isPlain = true) : k.splits = false := (isPlain_iff.mp h).2.1

theorem splits_of_isTrivia (h : k.isTrivia = true) : k.splits = false := by
  unfold splits
  split
  all_goals first | cases h | rfl

theorem isTrivia_of_isPlain (h : k.isPlain = true) : k.isTrivia = false := (isPlain_iff.mp h).2.2

end ScriptFrontend.Kind

namespace ScriptFrontend.Token.Window

def Fits (w : Window) : Prop := w.stop ≤ w.text.utf8ByteSize

/-- What is read from `start` to `stop` goes forward and stays inside the text. -/
structure Reaches (w : Window) (start stop : Nat) : Prop where
  le : start ≤ stop
  inside : stop ≤ w.text.utf8ByteSize

variable {w : Window}

theorem Reaches.here {i : Nat} (h : i ≤ w.text.utf8ByteSize) : w.Reaches i i := ⟨Nat.le_refl i, h⟩

theorem Reaches.trans {i j k : Nat} (h : w.Reaches i j) (h' : w.Reaches j k) : w.Reaches i k :=
  ⟨Nat.le_trans h.le h'.le, h'.inside⟩

theorem Reaches.from_le {i j k : Nat} (h : w.Reaches j k) (le : i ≤ j) : w.Reaches i k :=
  ⟨Nat.le_trans le h.le, h.inside⟩

/-! ## Bytes and characters -/

theorem lt_size_of_byte {i : Nat} (h : w.byte i ≠ 0) : i < w.text.utf8ByteSize := by
  rw [byte] at h
  split at h
  · exact Text.lt_size_of_byteAt h
  · exact absurd rfl h

theorem lt_stop_of_byte {i : Nat} (h : w.byte i ≠ 0) : i < w.stop := by
  rw [byte] at h
  split at h
  · assumption
  · exact absurd rfl h

theorem lt_size_of_byte_eq {i : Nat} {b : UInt8} (h : (w.byte i == b) = true) (b0 : b ≠ 0) :
    i < w.text.utf8ByteSize := by
  apply lt_size_of_byte
  rw [beq_iff_eq.mp h]
  exact b0

theorem char?_size_le {i : Nat} {c : Char} (h : w.char? i = some c) :
    i + c.utf8Size ≤ w.text.utf8ByteSize := by
  rw [char?] at h
  split at h
  · exact Text.charAt?_size_le h
  · cases h

theorem char?_lt {i : Nat} {c : Char} (h : w.char? i = some c) : i < w.text.utf8ByteSize := by
  have := char?_size_le h
  have := c.utf8Size_pos
  omega

theorem startsAt_le {i : Nat} {word : String} (h : w.startsAt i word = true)
    (positive : 0 < word.utf8ByteSize) : i + word.utf8ByteSize ≤ w.text.utf8ByteSize := by
  rw [startsAt, Bool.and_eq_true] at h
  exact Text.startsAt_le h.2 positive

theorem skipBytes_go_reaches (fits : w.Fits) (p : UInt8 → Bool) (fuel k : Nat)
    (h : k ≤ w.text.utf8ByteSize) : w.Reaches k (skipBytes.go w p fuel k) := by
  induction fuel generalizing k with
  | zero => exact .here h
  | succ fuel ih =>
    rw [skipBytes.go]
    split
    · rename_i step
      rw [Bool.and_eq_true, decide_eq_true_eq] at step
      have : k + 1 ≤ w.text.utf8ByteSize := Nat.le_trans step.1 fits
      exact (ih (k + 1) this).from_le (Nat.le_succ k)
    · exact .here h

theorem skipBytes_reaches (fits : w.Fits) (p : UInt8 → Bool) {i : Nat}
    (h : i ≤ w.text.utf8ByteSize) : w.Reaches i (w.skipBytes p i) :=
  skipBytes_go_reaches fits p _ i h

theorem skipChars_go_reaches (p : Char → Bool) (fuel k : Nat) (h : k ≤ w.text.utf8ByteSize) :
    w.Reaches k (skipChars.go w p fuel k) := by
  induction fuel generalizing k with
  | zero => exact .here h
  | succ fuel ih =>
    rw [skipChars.go]
    split
    · rename_i c found
      split
      · exact (ih _ (char?_size_le found)).from_le (Nat.le_add_right k _)
      · exact .here h
    · exact .here h

theorem skipChars_reaches (p : Char → Bool) {i : Nat} (h : i ≤ w.text.utf8ByteSize) :
    w.Reaches i (w.skipChars p i) :=
  skipChars_go_reaches p _ i h

theorem lineEnd_go_le (fuel k : Nat) :
    k ≤ lineEnd.go w fuel k ∧ lineEnd.go w fuel k ≤ k + fuel := by
  induction fuel generalizing k with
  | zero => exact ⟨Nat.le_refl k, Nat.le_refl k⟩
  | succ fuel ih =>
    rw [lineEnd.go]
    split
    · omega
    · have := ih (k + 1)
      omega

theorem lineEnd_reaches (fits : w.Fits) {i : Nat} (h : i ≤ w.text.utf8ByteSize) :
    w.Reaches i (w.lineEnd i) := by
  have := lineEnd_go_le (w := w) (w.stop - i) i
  have : w.stop ≤ w.text.utf8ByteSize := fits
  rw [lineEnd]
  constructor <;> omega

/-! ## Names -/

theorem nameEscape?_le (fits : w.Fits) {pos length : Nat} {c : Char} {braced : Bool}
    (h : w.nameEscape? pos = some (c, length, braced)) :
    0 < length ∧ pos + length ≤ w.text.utf8ByteSize := by
  rw [nameEscape?] at h
  split at h
  · cases h
  · rename_i opened
    have opened : pos + 2 ≤ w.text.utf8ByteSize :=
      startsAt_le (by simpa using opened) (by decide)
    split at h
    · rename_i brace
      have inside : pos + 2 < w.text.utf8ByteSize := lt_size_of_byte_eq brace (by decide)
      have skipped := skipBytes_reaches fits Text.isHexDigit (i := pos + 3) inside
      dsimp only at h
      split at h
      · cases h
      · rename_i closed
        rw [Bool.or_eq_true, not_or, bne_iff_ne, not_not] at closed
        have closed : w.skipBytes Text.isHexDigit (pos + 3) < w.text.utf8ByteSize :=
          lt_size_of_byte (by rw [closed.2]; decide)
        obtain ⟨_, _, same⟩ := Option.map_eq_some_iff.mp h
        injection same with _ same
        injection same with same _
        have := skipped.le
        omega
    · dsimp only at h
      split at h
      · cases h
      · have := (skipBytes_reaches fits Text.isHexDigit opened).inside
        obtain ⟨_, _, same⟩ := Option.map_eq_some_iff.mp h
        injection same with _ same
        injection same with same _
        omega

theorem nameParts_go_reaches (fits : w.Fits) (fuel pos chunk : Nat) (out : String)
    (flags : TokenFlags) (h : pos ≤ w.text.utf8ByteSize) :
    w.Reaches pos (nameParts.go w fuel pos chunk out flags).stop := by
  induction fuel generalizing pos chunk out flags with
  | zero => exact .here h
  | succ fuel ih =>
    rw [nameParts.go]
    split
    · exact .here h
    · rename_i c found
      split
      · exact (ih _ _ _ _ (char?_size_le found)).from_le (Nat.le_add_right pos _)
      · split
        · rename_i e length braced escaped
          split
          · exact (ih _ _ _ _ (nameEscape?_le fits escaped).2).from_le (Nat.le_add_right pos _)
          · exact .here h
        · exact .here h

theorem nameParts_reaches (fits : w.Fits) (start : Nat) {pos : Nat}
    (h : pos ≤ w.text.utf8ByteSize) : w.Reaches pos (w.nameParts start pos).stop :=
  nameParts_go_reaches fits _ pos start "" .empty h

theorem escapedName_reaches (fits : w.Fits) {pos : Nat} (h : pos < w.text.utf8ByteSize) :
    w.Reaches (pos + 1) (w.escapedName pos).stop := by
  rw [escapedName]
  split
  · rename_i c length braced escaped
    have within := nameEscape?_le fits escaped
    split
    · exact (nameParts_reaches fits _ within.2).from_le (by omega)
    · exact .here h
  · exact .here h

theorem privateName_reaches (fits : w.Fits) {pos : Nat} (h : pos < w.text.utf8ByteSize) :
    w.Reaches (pos + 1) (w.privateName pos).stop := by
  rw [privateName]
  split
  · rename_i c found
    split
    · exact (nameParts_reaches fits _ (char?_size_le found)).from_le (Nat.le_add_right _ _)
    · exact .here h
  · exact .here h

/-! ## Numbers -/

theorem digits_go_reaches (isValid : UInt8 → Bool) (isValid_zero : isValid 0 = false)
    (fuel pos : Nat) (allowed repeated : Bool) (r : Reading) (h : pos ≤ w.text.utf8ByteSize) :
    w.Reaches pos (digits.go w isValid fuel pos allowed repeated r).stop := by
  induction fuel generalizing pos allowed repeated r with
  | zero => exact .here h
  | succ fuel ih =>
    rw [digits.go]
    split
    · rename_i separator
      have inside : pos + 1 ≤ w.text.utf8ByteSize := lt_size_of_byte_eq separator (by decide)
      dsimp only
      split
      · exact (ih _ _ _ _ inside).from_le (Nat.le_succ pos)
      · exact (ih _ _ _ _ inside).from_le (Nat.le_succ pos)
    · split
      · rename_i valid
        have inside : pos + 1 ≤ w.text.utf8ByteSize := by
          apply lt_size_of_byte
          intro zero
          rw [zero, isValid_zero] at valid
          cases valid
        exact (ih _ _ _ _ inside).from_le (Nat.le_succ pos)
      · exact .here h

theorem digits_reaches (isValid : UInt8 → Bool) (isValid_zero : isValid 0 = false) {pos : Nat}
    (h : pos ≤ w.text.utf8ByteSize) : w.Reaches pos (w.digits isValid pos).stop := by
  have := digits_go_reaches isValid isValid_zero (w.stop - pos) pos false false { stop := pos } h
  rw [digits]
  split <;> exact this

theorem digits_reaches_past (isValid : UInt8 → Bool) (isValid_zero : isValid 0 = false) {pos : Nat}
    (digit : isValid (w.byte pos) = true) : w.Reaches (pos + 1) (w.digits isValid pos).stop := by
  have there : w.byte pos ≠ 0 := by
    intro zero
    rw [zero, isValid_zero] at digit
    cases digit
  have before := lt_stop_of_byte there
  obtain ⟨fuel, more⟩ := Nat.exists_eq_succ_of_ne_zero (Nat.sub_ne_zero_of_lt before)
  have read : w.Reaches (pos + 1)
      (digits.go w isValid (w.stop - pos) pos false false { stop := pos }).stop := by
    have inside : pos + 1 ≤ w.text.utf8ByteSize := lt_size_of_byte there
    rw [more, digits.go]
    split
    · exact digits_go_reaches isValid isValid_zero _ _ _ _ _ inside
    · exact digits_go_reaches isValid isValid_zero _ _ _ _ _ inside
  rw [digits]
  split <;> exact read

theorem finishNumber_reaches {pos : Nat} (value : String) (flags : TokenFlags)
    (errors : List ScanError) (mayBeBig : Bool) (h : pos ≤ w.text.utf8ByteSize) :
    w.Reaches pos (w.finishNumber pos value flags errors mayBeBig).stop := by
  rw [finishNumber]
  split
  · rename_i big
    rw [Bool.and_eq_true] at big
    exact ⟨Nat.le_succ pos, lt_size_of_byte_eq big.2 (by decide)⟩
  · exact .here h

theorem radixNumber_reaches (start base : Nat) (isValid : UInt8 → Bool)
    (isValid_zero : isValid 0 = false) (flag : TokenFlags) (missing : Diagnostic.Fault)
    (h : start + 2 ≤ w.text.utf8ByteSize) :
    w.Reaches (start + 1) (w.radixNumber start base isValid flag missing).stop := by
  have read := digits_reaches isValid isValid_zero h
  rw [radixNumber]
  split
  · exact (read.trans (finishNumber_reaches _ _ _ _ read.inside)).from_le (Nat.le_succ _)
  · exact (read.trans (finishNumber_reaches _ _ _ _ read.inside)).from_le (Nat.le_succ _)

theorem legacyOctal?_reaches (fits : w.Fits) {start : Nat} {l : Lexeme}
    (h : w.legacyOctal? start = some l) (inside : start < w.text.utf8ByteSize) :
    w.Reaches (start + 1) l.stop := by
  have read := skipBytes_reaches fits Text.isDigit (i := start + 1) inside
  rw [legacyOctal?] at h
  dsimp only at h
  split at h
  · injection h with h
    rw [← h]
    exact read.trans (finishNumber_reaches _ _ _ _ read.inside)
  · cases h

theorem exponent_reaches {pos : Nat} (h : pos ≤ w.text.utf8ByteSize) :
    w.Reaches pos (w.exponent pos).stop := by
  rw [exponent]
  split
  · rename_i letter
    have inside : pos + 1 ≤ w.text.utf8ByteSize := by
      rw [Bool.or_eq_true] at letter
      exact letter.elim (fun e => lt_size_of_byte_eq e (by decide))
        (fun e => lt_size_of_byte_eq e (by decide))
    dsimp only
    split
    · rename_i sign
      have inside : pos + 2 ≤ w.text.utf8ByteSize := by
        rw [Bool.or_eq_true] at sign
        exact sign.elim (fun e => lt_size_of_byte_eq e (by decide))
          (fun e => lt_size_of_byte_eq e (by decide))
      exact (digits_reaches _ (by decide) inside).from_le (Nat.le_add_right _ _)
    · exact (digits_reaches _ (by decide) inside).from_le (Nat.le_add_right _ _)
  · exact .here h

theorem decimalNumber_reaches {start : Nat} (starts : w.isNumberStart start = true) :
    w.Reaches (start + 1) (w.decimalNumber start).stop := by
  unfold decimalNumber
  extract_lets whole hasPoint part power isInteger
  have part_reaches : w.Reaches (start + 1) part.stop := by
    subst part
    by_cases point : (w.byte start == 0x2E) = true
    · have at_start : whole.stop = start := by
        subst whole
        rw [if_pos point]
      have inside : start + 1 ≤ w.text.utf8ByteSize := lt_size_of_byte_eq point (by decide)
      subst hasPoint
      rw [at_start, if_pos point]
      exact digits_reaches _ (by decide) inside
    · have digit : Text.isDigit (w.byte start) = true := by
        rw [isNumberStart, Bool.or_eq_true, Bool.and_eq_true] at starts
        exact starts.resolve_right fun ⟨other, _⟩ => point other
      have whole_reaches : w.Reaches (start + 1) whole.stop := by
        subst whole
        rw [if_neg point]
        exact digits_reaches_past _ (by decide) digit
      split
      · rename_i point
        have inside : whole.stop + 1 ≤ w.text.utf8ByteSize := lt_size_of_byte_eq point (by decide)
        exact whole_reaches.trans ((digits_reaches _ (by decide) inside).from_le (Nat.le_succ _))
      · exact whole_reaches
  have power_reaches := exponent_reaches part_reaches.inside
  exact part_reaches.trans
    (power_reaches.trans (finishNumber_reaches _ _ _ _ power_reaches.inside))

theorem number_reaches (fits : w.Fits) {start : Nat} (h : start < w.text.utf8ByteSize)
    (starts : w.isNumberStart start = true) : w.Reaches (start + 1) (w.number start).stop := by
  have letter {a b : UInt8} (a0 : a ≠ 0) (b0 : b ≠ 0)
      (second : (w.byte (start + 1) == a || w.byte (start + 1) == b) = true) :
      start + 2 ≤ w.text.utf8ByteSize := by
    rw [Bool.or_eq_true] at second
    exact second.elim (lt_size_of_byte_eq · a0) (lt_size_of_byte_eq · b0)
  rw [number]
  split
  · split
    · rename_i second
      exact radixNumber_reaches _ _ _ (by decide) _ _ (letter (by decide) (by decide) second)
    · split
      · rename_i second
        exact radixNumber_reaches _ _ _ (by decide) _ _ (letter (by decide) (by decide) second)
      · split
        · rename_i second
          exact radixNumber_reaches _ _ _ (by decide) _ _ (letter (by decide) (by decide) second)
        · split
          · cases octal : w.legacyOctal? start with
            | none => exact decimalNumber_reaches starts
            | some l => exact legacyOctal?_reaches fits octal h
          · exact decimalNumber_reaches starts
  · exact decimalNumber_reaches starts

/-! ## Strings and templates -/

theorem refused_stop (mode : EscapeMode) (fault : Diagnostic.Fault) (start pos : Nat) :
    (w.refused mode fault start pos).stop = pos := by
  rw [refused]
  split <;> rfl

theorem bracedEscape_reaches (fits : w.Fits) (mode : EscapeMode) (start : Nat) {pos : Nat}
    (h : pos ≤ w.text.utf8ByteSize) : w.Reaches pos (w.bracedEscape mode start pos).stop := by
  have read := skipBytes_reaches fits Text.isHexDigit h
  rw [bracedEscape]
  dsimp only
  split
  · rw [Reading.andThen, refused_stop]
    exact read
  · split
    · rename_i closed
      exact ⟨Nat.le_succ_of_le read.le, lt_size_of_byte_eq closed (by decide)⟩
    · rw [Reading.andThen, refused_stop]
      exact read

theorem fourHex?_le (fits : w.Fits) {pos n : Nat} (h : w.fourHex? pos = some n)
    (inside : pos ≤ w.text.utf8ByteSize) : pos + 4 ≤ w.text.utf8ByteSize := by
  have := (skipBytes_reaches fits Text.isHexDigit inside).inside
  rw [fourHex?] at h
  split at h
  · cases h
  · omega

theorem unicodeEscape_reaches (fits : w.Fits) (mode : EscapeMode) (start : Nat) {pos : Nat}
    (h : pos ≤ w.text.utf8ByteSize) : w.Reaches pos (w.unicodeEscape mode start pos).stop := by
  rw [unicodeEscape]
  split
  · rename_i brace
    have inside : pos + 1 ≤ w.text.utf8ByteSize := lt_size_of_byte_eq brace (by decide)
    exact (bracedEscape_reaches fits mode start inside).from_le (Nat.le_succ pos)
  · split
    · rw [refused_stop]
      exact .here h
    · rename_i n digits
      have inside := fourHex?_le fits digits h
      have single : w.Reaches pos (pos + 4) := ⟨Nat.le_add_right _ _, inside⟩
      dsimp only
      split
      · rename_i high
        rw [Bool.and_eq_true] at high
        have opened : pos + 4 + 2 ≤ w.text.utf8ByteSize := startsAt_le high.2 (by decide)
        split
        · rename_i low lowDigits
          have := fourHex?_le fits lowDigits opened
          split
          · exact ⟨Nat.le_add_right _ _, by omega⟩
          · exact single
        · exact single
      · exact single

theorem octalEscape_reaches (fits : w.Fits) (mode : EscapeMode) (start : Nat) {pos : Nat}
    (h : pos ≤ w.text.utf8ByteSize) : w.Reaches pos (w.octalEscape mode start pos).stop := by
  have read := skipBytes_reaches fits Text.isOctalDigit h
  unfold octalEscape
  extract_lets limit stop n r
  have limit_le : pos ≤ limit := by
    subst limit
    split <;> omega
  have : w.Reaches pos stop :=
    ⟨Nat.le_min.mpr ⟨limit_le, read.le⟩, Nat.le_trans (Nat.min_le_right _ _) read.inside⟩
  subst r
  split <;> exact this

theorem hexEscape_reaches (fits : w.Fits) (mode : EscapeMode) (start : Nat) {pos : Nat}
    (h : pos ≤ w.text.utf8ByteSize) : w.Reaches pos (w.hexEscape mode start pos).stop := by
  have read := skipBytes_reaches fits Text.isHexDigit h
  have : w.Reaches pos (min (pos + 2) (w.skipBytes Text.isHexDigit pos)) :=
    ⟨Nat.le_min.mpr ⟨Nat.le_add_right _ _, read.le⟩,
      Nat.le_trans (Nat.min_le_right _ _) read.inside⟩
  rw [hexEscape]
  dsimp only
  split
  · change w.Reaches pos (w.refused mode _ start _).stop
    rw [refused_stop]
    exact this
  · exact this

theorem escape_reaches (fits : w.Fits) (mode : EscapeMode) {start : Nat}
    (h : start < w.text.utf8ByteSize) : w.Reaches (start + 1) (w.escape mode start).stop := by
  rw [escape]
  dsimp only
  split
  · exact .here h
  · rename_i c found
    have one : w.Reaches (start + 1) (start + 1 + 1) := ⟨Nat.le_succ _, char?_lt found⟩
    have whole : w.Reaches (start + 1) (start + 1 + c.utf8Size) :=
      ⟨Nat.le_add_right _ _, char?_size_le found⟩
    split
    · exact one
    · split
      · exact octalEscape_reaches fits mode start h
      · split
        · split <;> exact one
        · split
          · exact one.trans (unicodeEscape_reaches fits mode start one.inside)
          · split
            · exact one.trans (hexEscape_reaches fits mode start one.inside)
            · split
              · split
                · rename_i feed
                  exact ⟨Nat.le_add_right _ _, lt_size_of_byte_eq feed (by decide)⟩
                · exact one
              · split
                · exact whole
                · split
                  · exact one
                  · exact whole

theorem quoted_go_reaches (fits : w.Fits) (start : Nat) (isAttribute : Bool)
    (fuel pos chunk : Nat) (r : Reading) (h : pos ≤ w.text.utf8ByteSize) :
    w.Reaches pos (quoted.go w start isAttribute fuel pos chunk r).stop := by
  induction fuel generalizing pos chunk r with
  | zero => exact .here h
  | succ fuel ih =>
    rw [quoted.go]
    split
    · exact .here h
    · rename_i before
      have next : w.Reaches pos (pos + 1) := ⟨Nat.le_succ pos, by have : w.stop ≤ _ := fits; omega⟩
      dsimp only
      split
      · exact next
      · split
        · have escaped := escape_reaches fits ⟨false, true⟩ next.inside
          exact next.trans (escaped.trans (ih _ _ _ escaped.inside))
        · split
          · exact .here h
          · exact next.trans (ih _ _ _ next.inside)

theorem quoted_reaches (fits : w.Fits) {start : Nat} (isAttribute : Bool)
    (h : start < w.text.utf8ByteSize) :
    w.Reaches (start + 1) (w.quoted start isAttribute).stop :=
  quoted_go_reaches fits start isAttribute _ _ _ _ h

theorem template_go_reaches (fits : w.Fits) (start : Nat) (report : Bool) (fuel pos chunk : Nat)
    (r : Reading) (h : pos ≤ w.text.utf8ByteSize) :
    w.Reaches pos (template.go w start report fuel pos chunk r).stop := by
  induction fuel generalizing pos chunk r with
  | zero => exact .here h
  | succ fuel ih =>
    rw [template.go]
    split
    · exact .here h
    · rename_i before
      have next : w.Reaches pos (pos + 1) := ⟨Nat.le_succ pos, by have : w.stop ≤ _ := fits; omega⟩
      dsimp only
      split
      · exact next
      · split
        · rename_i dollar
          rw [Bool.and_eq_true] at dollar
          exact ⟨Nat.le_add_right _ _, lt_size_of_byte_eq dollar.2 (by decide)⟩
        · split
          · have escaped := escape_reaches fits ⟨true, report⟩ next.inside
            exact next.trans (escaped.trans (ih _ _ _ escaped.inside))
          · split
            · split
              · rename_i feed
                have feed : pos + 1 < w.text.utf8ByteSize := lt_size_of_byte_eq feed (by decide)
                exact (ih _ _ _ feed).from_le (by omega)
              · exact next.trans (ih _ _ _ next.inside)
            · exact next.trans (ih _ _ _ next.inside)

theorem template_reaches (fits : w.Fits) {start : Nat} (report : Bool)
    (h : start < w.text.utf8ByteSize) : w.Reaches (start + 1) (w.template start report).stop :=
  template_go_reaches fits start report _ _ _ _ h

/-! ## Trivia and marks -/

theorem conflictEnd_go_le (b : UInt8) (fuel k : Nat) :
    k ≤ conflictEnd.go w b fuel k ∧ conflictEnd.go w b fuel k ≤ k + fuel := by
  induction fuel generalizing k with
  | zero => exact ⟨Nat.le_refl k, Nat.le_refl k⟩
  | succ fuel ih =>
    rw [conflictEnd.go]
    split
    · omega
    · have := ih (k + 1)
      omega

theorem conflictEnd_reaches (fits : w.Fits) {pos : Nat} (h : pos ≤ w.text.utf8ByteSize) :
    w.Reaches pos (w.conflictEnd pos) := by
  rw [conflictEnd]
  split
  · exact lineEnd_reaches fits h
  · have := conflictEnd_go_le (w := w) (w.byte pos) (w.stop - pos) pos
    have : w.stop ≤ w.text.utf8ByteSize := fits
    constructor <;> omega

theorem find?_go_le {word : String} (positive : 0 < word.utf8ByteSize) (fuel k : Nat) {i : Nat}
    (h : find?.go w word fuel k = some i) :
    k ≤ i ∧ i + word.utf8ByteSize ≤ w.text.utf8ByteSize := by
  induction fuel generalizing k with
  | zero => cases h
  | succ fuel ih =>
    rw [find?.go] at h
    split at h
    · rename_i found
      injection h with h
      subst h
      exact ⟨Nat.le_refl k, startsAt_le found positive⟩
    · have := ih (k + 1) h
      omega

theorem blockComment_reaches (fits : w.Fits) {pos : Nat} (h : pos < w.stop) :
    w.Reaches pos (w.blockComment pos).stop := by
  rw [blockComment]
  cases found : w.find? "*/" (pos + 2) with
  | none => exact ⟨h.le, fits⟩
  | some close =>
    have := find?_go_le (by decide) _ _ found
    have two : "*/".utf8ByteSize = 2 := by decide
    exact ⟨by dsimp only; omega, by dsimp only; omega⟩

theorem char?_lt_stop {i : Nat} {c : Char} (h : w.char? i = some c) : i < w.stop := by
  rw [char?] at h
  split at h
  · assumption
  · cases h

theorem trivia?_cases {P : Lexeme → Prop} {pos : Nat} {l : Lexeme} (h : w.trivia? pos = some l)
    (sign : w.char? pos = some '#' → pos = 0 ∧ w.byte 1 = 0x21 →
      P ⟨{ stop := w.lineEnd pos }, .shebangTrivia⟩)
    (line : w.char? pos = some '/' → w.byte (pos + 1) = 0x2F →
      P ⟨{ stop := w.lineEnd (pos + 2) }, .singleLineCommentTrivia⟩)
    (block : w.char? pos = some '/' → w.byte (pos + 1) = 0x2A → P (w.blockComment pos))
    (conflict : ∀ c, w.char? pos = some c →
      P ⟨{ stop := w.conflictEnd pos, errors := [⟨.mergeConflict, pos, conflictLength, none⟩] },
        .conflictMarkerTrivia⟩)
    (feed : ∀ c stop, w.char? pos = some c → Text.isLineBreak c = true →
      (stop = pos + c.utf8Size ∧ (c = '\r' → w.byte (pos + 1) ≠ 0x0A)) ∨
        (stop = pos + 2 ∧ c = '\r' ∧ w.byte (pos + 1) = 0x0A) →
      P ⟨{ stop := stop, flags := TokenFlags.precedingLineBreak }, .newLineTrivia⟩)
    (blank : ∀ c, w.char? pos = some c → Text.isBlank c = true →
      P ⟨{ stop := w.skipChars Text.isBlank (pos + c.utf8Size) }, .whitespaceTrivia⟩) : P l := by
  rw [trivia?] at h
  split at h
  · cases h
  · rename_i c found
    split at h
    · rename_i opened
      rw [Bool.and_eq_true, Bool.and_eq_true, beq_iff_eq, beq_iff_eq, beq_iff_eq] at opened
      cases h
      exact sign (opened.1.1 ▸ found) ⟨opened.1.2, opened.2⟩
    · split at h
      · rename_i slashes
        rw [Bool.and_eq_true, beq_iff_eq, beq_iff_eq] at slashes
        cases h
        exact line (slashes.1 ▸ found) slashes.2
      · split at h
        · rename_i opened
          rw [Bool.and_eq_true, beq_iff_eq, beq_iff_eq] at opened
          cases h
          exact block (opened.1 ▸ found) opened.2
        · split at h
          · cases h
            exact conflict c found
          · split at h
            · rename_i breaks
              cases h
              refine feed c _ found breaks ?_
              split
              · rename_i pair
                rw [Bool.and_eq_true, beq_iff_eq, beq_iff_eq] at pair
                exact .inr ⟨rfl, pair⟩
              · rename_i single
                rw [Bool.and_eq_true, beq_iff_eq, beq_iff_eq] at single
                exact .inl ⟨rfl, fun same second => single ⟨same, second⟩⟩
            · split at h
              · cases h
                exact blank c found ‹_›
              · cases h

theorem trivia?_reaches (fits : w.Fits) {pos : Nat} {l : Lexeme} (h : w.trivia? pos = some l) :
    w.Reaches pos l.stop := by
  have whole {c : Char} (found : w.char? pos = some c) : w.Reaches pos (pos + c.utf8Size) :=
    ⟨Nat.le_add_right _ _, char?_size_le found⟩
  have second {b : UInt8} (there : w.byte (pos + 1) = b) (solid : b ≠ 0) :
      w.Reaches pos (pos + 2) :=
    ⟨Nat.le_add_right _ _, lt_size_of_byte (there ▸ solid)⟩
  apply trivia?_cases (P := fun l => w.Reaches pos l.stop) h
  case sign => exact fun found _ => lineEnd_reaches fits (char?_lt found).le
  case line =>
    intro _ slash
    have opened := second slash (by decide)
    exact opened.trans (lineEnd_reaches fits opened.inside)
  case block => exact fun found _ => blockComment_reaches fits (char?_lt_stop found)
  case conflict => exact fun c found => conflictEnd_reaches fits (char?_lt found).le
  case feed =>
    rintro c _ found _ (⟨rfl, _⟩ | ⟨rfl, _, there⟩)
    · exact whole found
    · exact second there (by decide)
  case blank => exact fun c found _ => (whole found).trans (skipChars_reaches _ (whole found).inside)

theorem trivia?_kind {pos : Nat} {l : Lexeme} (h : w.trivia? pos = some l) :
    l.kind.isTrivia = true := by
  apply trivia?_cases (P := fun l => l.kind.isTrivia = true) h
  case block => exact fun _ _ => rfl
  all_goals intros; rfl

theorem marksAt_solid (w : Window) (c : Char) (pos : Nat) :
    ∀ m ∈ w.marksAt c pos,
      0 < m.1.utf8ByteSize ∧ m.2 ≠ .endOfFileToken ∧ m.2.isTrivia = false := by
  unfold marksAt
  split
  all_goals first | decide | (split <;> decide)

theorem mark?_solid {c : Char} {pos : Nat} {l : Lexeme} (h : w.mark? c pos = some l) :
    w.Reaches (pos + 1) l.stop ∧ l.kind ≠ .endOfFileToken ∧ l.kind.isTrivia = false := by
  obtain ⟨m, found, same⟩ := Option.map_eq_some_iff.mp h
  obtain ⟨positive, kind⟩ := marksAt_solid w c pos m (List.mem_of_find?_eq_some found)
  have stands := List.find?_some found
  rw [← same]
  exact ⟨⟨by dsimp only; omega, startsAt_le stands positive⟩, kind⟩

/-! ## Kinds

Where a character stands, the token is not the end, nor trivia.
-/

theorem nameKind_eq_or_mem (word : String) (flags : TokenFlags) :
    nameKind word flags = .identifier ∨ ∃ w ∈ Kind.words, nameKind word flags = w.2 := by
  rw [nameKind]
  split
  · exact .inl rfl
  · rw [Kind.ofWord?]
    cases found : Kind.words.lookup word with
    | none => exact .inl rfl
    | some k =>
      obtain ⟨front, back, split, _⟩ := List.lookup_eq_some_iff.mp found
      exact .inr ⟨(word, k), by rw [split]; simp, rfl⟩

theorem nameKind_isPlain (word : String) (flags : TokenFlags) :
    (nameKind word flags).isPlain = true := by
  have plain : ∀ w ∈ Kind.words, w.2.isPlain = true := by decide +kernel
  obtain same | ⟨w, mem, same⟩ := nameKind_eq_or_mem word flags
  · rw [same]
    rfl
  · rw [same]
    exact plain w mem

theorem finishNumber_kind (pos : Nat) (value : String) (flags : TokenFlags)
    (errors : List ScanError) (mayBeBig : Bool) :
    (w.finishNumber pos value flags errors mayBeBig).kind.isPlain = true := by
  rw [finishNumber]
  split <;> rfl

theorem radixNumber_kind (start base : Nat) (isValid : UInt8 → Bool) (flag : TokenFlags)
    (missing : Diagnostic.Fault) :
    (w.radixNumber start base isValid flag missing).kind.isPlain = true := by
  rw [radixNumber]
  split <;> exact finishNumber_kind _ _ _ _ _

theorem number_kind (start : Nat) : (w.number start).kind.isPlain = true := by
  have decimal : (w.decimalNumber start).kind.isPlain = true := finishNumber_kind _ _ _ _ _
  have octal : ((w.legacyOctal? start).getD (w.decimalNumber start)).kind.isPlain = true := by
    rw [legacyOctal?]
    split
    · exact finishNumber_kind _ _ _ _ _
    · exact decimal
  rw [number]
  split
  · split
    · exact radixNumber_kind _ _ _ _ _
    · split
      · exact radixNumber_kind _ _ _ _ _
      · split
        · exact radixNumber_kind _ _ _ _ _
        · split
          · exact octal
          · exact decimal
  · exact decimal

theorem template_go_kind (w : Window) (start : Nat) (report : Bool) (fuel pos chunk : Nat)
    (r : Reading) : (template.go w start report fuel pos chunk r).kind.isPlain = true := by
  have last : (template.lastKind w start).isPlain = true := by
    rw [template.lastKind]
    split <;> rfl
  induction fuel generalizing pos chunk r with
  | zero => exact last
  | succ fuel ih =>
    rw [template.go]
    split
    · exact last
    · dsimp only
      split
      · exact last
      · split
        · dsimp only
          split <;> rfl
        · repeat' split
          all_goals exact ih _ _ _

theorem template_kind (w : Window) (start : Nat) (report : Bool) :
    (w.template start report).kind.isPlain = true :=
  template_go_kind w start report _ _ _ _

theorem escapedName_kind (pos : Nat) : (w.escapedName pos).kind.isPlain = true := by
  rw [escapedName]
  split
  · dsimp only
    split <;> rfl
  · rfl

theorem privateName_kind (pos : Nat) : (w.privateName pos).kind.isPlain = true := by
  rw [privateName]
  split
  · split <;> rfl
  · rfl

/-! ## Tokens -/

/-- What a token that starts at an offset is like. It has a width and starts before the end of the
window, or it is the end and stands there. -/
structure Stands (w : Window) (start : Nat) (l : Lexeme) : Prop where
  reaches : w.Reaches start l.stop
  solid : l.kind ≠ .endOfFileToken → start < w.stop ∧ start < l.stop
  last : l.kind = .endOfFileToken → w.stop ≤ start

theorem Stands.of_reaches {start : Nat} {l : Lexeme} (before : start < w.stop)
    (h : w.Reaches (start + 1) l.stop) (kind : l.kind ≠ .endOfFileToken) : w.Stands start l :=
  ⟨h.from_le (Nat.le_succ start), fun _ => ⟨before, h.le⟩, fun same => absurd same kind⟩

theorem Stands.of_end {start : Nat} {l : Lexeme} (fits : w.Fits) (h : start ≤ w.text.utf8ByteSize)
    (nothing : w.char? start = none) (stop : l.stop = start) (kind : l.kind = .endOfFileToken) :
    w.Stands start l where
  reaches := by
    rw [stop]
    exact .here h
  solid := fun other => absurd kind other
  last := fun _ => by
    by_contra before
    rw [char?, if_pos (Nat.lt_of_not_le before), Text.charAt?,
      if_pos (Nat.lt_of_lt_of_le (Nat.lt_of_not_le before) fits)] at nothing
    cases nothing

theorem token_cases {P : Lexeme → Prop} {pos : Nat}
    (last : w.char? pos = none → P ⟨{ stop := pos }, .endOfFileToken⟩)
    (name : ∀ c, w.char? pos = some c → P ⟨w.nameParts pos (pos + c.utf8Size),
      nameKind (w.nameParts pos (pos + c.utf8Size)).value
        (w.nameParts pos (pos + c.utf8Size)).flags⟩)
    (digits : ∀ c, w.char? pos = some c → w.isNumberStart pos = true → P (w.number pos))
    (string : ∀ c, w.char? pos = some c → c = '"' ∨ c = '\'' →
      P ⟨w.quoted pos false, .stringLiteral⟩)
    (piece : w.char? pos = some '\x60' → P (w.template pos true))
    (escape : w.char? pos = some '\\' → P (w.escapedName pos))
    (own : w.char? pos = some '#' → P (w.privateName pos))
    (mark : ∀ c l, w.char? pos = some c → w.mark? c pos = some l → P l)
    (stray : ∀ c, w.char? pos = some c →
      P ⟨⟨pos + c.utf8Size, "", .empty, [⟨.invalidCharacter, pos, c.utf8Size, none⟩]⟩, .unknown⟩) :
    P (w.token pos) := by
  rw [token]
  split
  · exact last ‹_›
  · rename_i c found
    split
    · exact name c found
    · split
      · exact digits c found ‹_›
      · split
        · rename_i quote
          rw [Bool.or_eq_true, beq_iff_eq, beq_iff_eq] at quote
          exact string c found quote
        · split
          · rename_i quote
            exact piece (beq_iff_eq.mp quote ▸ found)
          · split
            · rename_i backslash
              exact escape (beq_iff_eq.mp backslash ▸ found)
            · split
              · rename_i sign
                exact own (beq_iff_eq.mp sign ▸ found)
              · cases marked : w.mark? c pos with
                | none => exact stray c found
                | some l => exact mark c l found marked

theorem token_stands (fits : w.Fits) {pos : Nat} (h : pos ≤ w.text.utf8ByteSize) :
    w.Stands pos (w.token pos) := by
  apply token_cases
  case last => exact fun nothing => .of_end fits h nothing rfl rfl
  case name =>
    intro c found
    have past := nameParts_reaches fits pos (char?_size_le found)
    exact .of_reaches (char?_lt_stop found) (past.from_le (Nat.add_le_add_left c.utf8Size_pos pos))
      (Kind.ne_end_of_isPlain (nameKind_isPlain _ _))
  case digits =>
    intro c found starts
    exact .of_reaches (char?_lt_stop found) (number_reaches fits (char?_lt found) starts)
      (Kind.ne_end_of_isPlain (number_kind _))
  case string =>
    intro c found _
    exact .of_reaches (char?_lt_stop found) (quoted_reaches fits false (char?_lt found))
      (show Kind.stringLiteral ≠ _ by decide)
  case piece =>
    intro found
    exact .of_reaches (char?_lt_stop found) (template_reaches fits true (char?_lt found))
      (Kind.ne_end_of_isPlain (template_kind _ _ _))
  case escape =>
    intro found
    exact .of_reaches (char?_lt_stop found) (escapedName_reaches fits (char?_lt found))
      (Kind.ne_end_of_isPlain (escapedName_kind _))
  case own =>
    intro found
    exact .of_reaches (char?_lt_stop found) (privateName_reaches fits (char?_lt found))
      (Kind.ne_end_of_isPlain (privateName_kind _))
  case mark =>
    intro c l found marked
    exact .of_reaches (char?_lt_stop found) (mark?_solid marked).1 (mark?_solid marked).2.1
  case stray =>
    intro c found
    exact .of_reaches (char?_lt_stop found)
      ⟨Nat.add_le_add_left c.utf8Size_pos pos, char?_size_le found⟩
      (show Kind.unknown ≠ _ by decide)

end ScriptFrontend.Token.Window
