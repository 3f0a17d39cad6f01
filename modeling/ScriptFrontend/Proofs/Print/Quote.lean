import ScriptFrontend.Print.Name
import ScriptFrontend.Proofs.Token.LineBreak
import ScriptFrontend.Proofs.Token.Shown
import ScriptFrontend.Proofs.Token.Tiling

/-!
# Quoting a text and reading it

A text between quotes is read as one string, and the string stands for the text. Each character is
written for itself, as it is or by an escape. Reading passes what a character is written as and takes
on the character, whatever stands behind it.
-/

namespace ScriptFrontend

open Token Token.Window

def quoteLetters : List (Char × Char) :=
  [('"', '"'), ('\\', '\\'), ('n', '\n'), ('r', '\r'), ('t', '\t')]

def isHexChar (c : Char) : Bool := c.utf8Size == 1 && Text.isHexDigit c.val.toUInt8

/-- The character can stand between double quotes as it is. -/
structure Quotable (c : Char) : Prop where
  quote : c ≠ '"'
  backslash : c ≠ '\\'
  feed : c ≠ '\n'
  «return» : c ≠ '\r'

/-- How a character may be written between double quotes. -/
inductive WrittenAs (c : Char) : List Char → Prop
  | itself (quotable : Quotable c) : WrittenAs c [c]
  | letter {e : Char} (known : (e, c) ∈ quoteLetters) : WrittenAs c ['\\', e]
  | code {digits : List Char} (four : digits.length = 4)
      (hex : digits.all isHexChar = true) (number : Text.hexNumber (String.ofList digits) = c.toNat) :
      WrittenAs c ('\\' :: 'u' :: digits)

theorem isHexChar_iff {c : Char} :
    isHexChar c = true ↔ c.utf8Size = 1 ∧ Text.isHexDigit c.val.toUInt8 = true := by
  rw [isHexChar, Bool.and_eq_true, beq_iff_eq]

theorem escapedChar_writes (c : Char) : WrittenAs c (Print.escapedChar c).toList := by
  let digits (n : Nat) := ['0', '0', Print.capitalHexDigit (n / 16), Print.capitalHexDigit (n % 16)]
  have controls : ((List.range 0x20).all fun n =>
      (digits n).all isHexChar && Text.hexNumber (String.ofList (digits n)) == n) = true := by decide +kernel
  unfold Print.escapedChar
  split
  · exact .letter (by decide)
  · exact .letter (by decide)
  · exact .letter (by decide)
  · exact .letter (by decide)
  · exact .letter (by decide)
  · have digits : "\\u2028".toList = ['\\', 'u', '2', '0', '2', '8'] := rfl
    rw [digits]
    exact .code rfl (by decide) (by decide +kernel)
  · have digits : "\\u2029".toList = ['\\', 'u', '2', '0', '2', '9'] := rfl
    rw [digits]
    exact .code rfl (by decide) (by decide +kernel)
  · rename_i quote backslash feed back tab line paragraph
    split
    · rename_i control
      rw [String.toList_ofList]
      have written := List.all_eq_true.mp controls c.toNat (List.mem_range.mpr control)
      rw [Bool.and_eq_true, beq_iff_eq] at written
      exact .code rfl written.1 written.2
    · rw [Char.toString_eq_singleton, String.toList_singleton]
      exact .itself ⟨quote, backslash, feed, back⟩

theorem quoteString_toList (text : String) : (Print.quoteString text).toList =
    '"' :: (text.toList.flatMap fun c => (Print.escapedChar c).toList) ++ ['"'] := by
  have folds (cs : List Char) (out : String) : (cs.foldl (fun out c => out ++ Print.escapedChar c) out).toList =
      out.toList ++ cs.flatMap fun c => (Print.escapedChar c).toList := by
    induction cs generalizing out with
    | nil => simp
    | cons c cs ih => simp [ih]
  rw [Print.quoteString, String.foldl_eq_foldl_toList]
  simp [folds]

namespace Token.Window

variable {w : Window} {i pos chunk start fuel : Nat} {c e : Char} {cs digits : List Char} {r : Reading}

/-! ## Escapes -/

theorem escape_letter (h : w.Shows i ('\\' :: e :: cs)) (known : (e, c) ∈ quoteLetters) (mode : EscapeMode) :
    w.escape mode i = { stop := i + 2, value := c.toString } := by
  have behind : w.Shows (i + 1) (e :: cs) := h.next
  have one : e.utf8Size = 1 := by
    have all : (quoteLetters.all fun m => m.1.utf8Size == 1) = true := by decide
    exact eq_of_beq (List.all_eq_true.mp all _ known)
  rw [escape]
  dsimp only
  rw [behind.char?_cons, behind.byte_one one]
  simp only [quoteLetters, List.mem_cons, Prod.mk.injEq, List.not_mem_nil, or_false] at known
  rcases known with ⟨rfl, rfl⟩ | ⟨rfl, rfl⟩ | ⟨rfl, rfl⟩ | ⟨rfl, rfl⟩ | ⟨rfl, rfl⟩ <;> rfl

theorem utf8Len_of_narrow (narrow : ∀ d ∈ cs, d.utf8Size = 1) : String.utf8Len cs = cs.length := by
  induction cs with
  | nil => rfl
  | cons c cs ih =>
    obtain ⟨one, rest⟩ := List.forall_mem_cons.mp narrow
    rw [String.utf8Len_cons, ih rest, one, List.length_cons]

theorem fourHex?_eq (h : w.Shows i (digits ++ cs)) (four : digits.length = 4)
    (hex : digits.all isHexChar = true) : w.fourHex? i = some (Text.hexNumber (String.ofList digits)) := by
  have hex {d : Char} (mem : d ∈ digits) : d.utf8Size = 1 ∧ Text.isHexDigit d.val.toUInt8 = true :=
    isHexChar_iff.mp (List.all_eq_true.mp hex d mem)
  have size : String.utf8Len digits = 4 := four ▸ utf8Len_of_narrow fun d mem => (hex mem).1
  have part := h.slice
  rw [size] at part
  have passed : i + 4 ≤ w.skipBytes Text.isHexDigit i := by
    rw [h.skipBytes_eq Text.isHexDigit_ascii, List.takeWhile_append_of_pos]
    · simp [four]
    · intro d mem
      rw [(hex mem).1, (hex mem).2]
      rfl
  rw [fourHex?, if_neg (Nat.not_lt.mpr passed), part]

theorem charOr_toNat (c : Char) : charOr c.toNat = c.toString := by
  have valid : c.toNat.isValidChar := c.valid
  rw [charOr, charOf?, dif_pos valid]
  rfl

theorem isHighSurrogate_toNat (c : Char) : isHighSurrogate c.toNat = false := by
  have valid : c.toNat.isValidChar := c.valid
  rw [Nat.isValidChar] at valid
  rw [isHighSurrogate, Bool.and_eq_false_iff, decide_eq_false_iff_not, decide_eq_false_iff_not]
  omega

theorem escape_code (h : w.Shows i ('\\' :: 'u' :: (digits ++ cs))) (four : digits.length = 4)
    (hex : digits.all isHexChar = true) (number : Text.hexNumber (String.ofList digits) = c.toNat) (mode : EscapeMode) :
    w.escape mode i = ⟨i + 6, c.toString, TokenFlags.unicodeEscape, []⟩ := by
  have letter : w.Shows (i + 1) ('u' :: (digits ++ cs)) := h.next
  have first : w.Shows (i + 2) (digits ++ cs) := letter.next
  have unbraced : (w.byte (i + 2) == 0x7B) = false := by
    obtain ⟨d, ds, rfl⟩ := List.exists_cons_of_length_eq_add_one four
    obtain ⟨one, digit⟩ := isHexChar_iff.mp (List.all_eq_true.mp hex d List.mem_cons_self)
    rw [first.byte_one one, beq_eq_false_iff_ne]
    intro brace
    rw [brace] at digit
    cases digit
  have code : w.unicodeEscape mode i (i + 2) = ⟨i + 6, c.toString, TokenFlags.unicodeEscape, []⟩ := by
    rw [unicodeEscape, unbraced, if_neg Bool.false_ne_true, fourHex?_eq first four hex, number]
    dsimp only
    rw [isHighSurrogate_toNat, Bool.false_and, if_neg Bool.false_ne_true, charOr_toNat]
  rw [escape]
  dsimp only
  rw [letter.char?_cons, letter.byte_one rfl]
  exact code

/-- Reading the escape that a character is written as takes on that character. -/
structure ReadsAs (e : Reading) (stop : Nat) (c : Char) : Prop where
  stop : e.stop = stop
  value : e.value = c.toString
  ended : e.flags.has TokenFlags.unterminated = false
  errors : e.errors = []

theorem itself_or_escape {written : List Char} (h : WrittenAs c written) :
    written = [c] ∧ Quotable c ∨ ∃ rest, written = '\\' :: rest ∧
      ∀ {i : Nat} {cs : List Char}, w.Shows i (written ++ cs) → ∀ mode,
        ReadsAs (w.escape mode i) (i + String.utf8Len written) c := by
  have calm : FlagSet.has .empty TokenFlags.unterminated = false ∧
      FlagSet.has TokenFlags.unicodeEscape TokenFlags.unterminated = false := by decide
  cases h with
  | itself quotable => exact .inl ⟨rfl, quotable⟩
  | @letter e known =>
    refine .inr ⟨_, rfl, fun h mode => ?_⟩
    have narrow : (quoteLetters.all fun m => String.utf8Len ['\\', m.1] == 2) = true := by decide
    rw [escape_letter h known, eq_of_beq (List.all_eq_true.mp narrow _ known)]
    exact ⟨rfl, rfl, calm.1, rfl⟩
  | @code digits four hex number =>
    refine .inr ⟨_, rfl, fun h mode => ?_⟩
    have size : String.utf8Len ('\\' :: 'u' :: digits) = 6 := by
      rw [String.utf8Len_cons, String.utf8Len_cons, utf8Len_of_narrow fun d mem =>
        (isHexChar_iff.mp (List.all_eq_true.mp hex d mem)).1, four]
      rfl
    rw [escape_code h four hex number, size]
    exact ⟨rfl, rfl, calm.2, rfl⟩

/-! ## The text between the quotes -/

structure Closes (r : Reading) (stop : Nat) (value : String) (before : Reading) : Prop where
  stop : r.stop = stop
  value : r.value = value
  ended : r.flags.has TokenFlags.unterminated = before.flags.has TokenFlags.unterminated
  errors : r.errors = before.errors

theorem quoted_go_close (quote : w.byte start = 0x22) (h : w.Shows pos ('"' :: cs)) (fuel : Nat) :
    quoted.go w start false (fuel + 1) pos chunk r =
      { r with stop := pos + 1, value := r.value ++ w.slice chunk pos } := by
  rw [quoted.go, if_neg (Nat.not_le.mpr (char?_lt_stop h.char?_cons))]
  dsimp only
  rw [quote, h.byte_one rfl]
  rfl

theorem quoted_go_escape (quote : w.byte start = 0x22) (h : w.Shows pos ('\\' :: cs)) (fuel : Nat) :
    quoted.go w start false (fuel + 1) pos chunk r =
      let e := w.escape ⟨false, true⟩ pos
      quoted.go w start false fuel e.stop e.stop
        ⟨e.stop, r.value ++ w.slice chunk pos ++ e.value, r.flags ||| e.flags, r.errors ++ e.errors⟩ := by
  rw [quoted.go, if_neg (Nat.not_le.mpr (char?_lt_stop h.char?_cons))]
  dsimp only
  rw [quote, h.byte_one rfl]
  rfl

/-- A character that is written as it is is passed byte by byte. -/
theorem quoted_go_itself (quote : w.byte start = 0x22) (h : w.Shows pos (c :: cs)) (quotable : Quotable c)
    (fuel : Nat) : quoted.go w start false (fuel + c.utf8Size) pos chunk r =
      quoted.go w start false fuel (pos + c.utf8Size) chunk r := by
  have before := h.next.stop_eq
  have pass (k : Nat) (le : k ≤ c.utf8Size) : quoted.go w start false (fuel + c.utf8Size) pos chunk r =
      quoted.go w start false (fuel + (c.utf8Size - k)) (pos + k) chunk r := by
    induction k with
    | zero => rfl
    | succ k ih =>
      have less : fuel + (c.utf8Size - k) = fuel + (c.utf8Size - (k + 1)) + 1 := by omega
      rw [ih (by omega), less, quoted.go, if_neg (by omega)]
      dsimp only
      rw [quote, if_neg, if_neg, if_neg]
      · rfl
      · simpa using ⟨h.byte_ne rfl quotable.feed le, h.byte_ne rfl quotable.return le⟩
      · simpa using h.byte_ne rfl quotable.backslash le
      · simpa using h.byte_ne rfl quotable.quote le
  have all := pass c.utf8Size le_rfl
  rwa [Nat.sub_self, Nat.add_zero] at all

/-- Reading up to the closing quote takes on what is written there, one character after another. The
characters in `seen` were passed since the last escape. -/
theorem quoted_go_reads (quote : w.byte start = 0x22) {write : Char → List Char}
    (writes : ∀ c, WrittenAs c (write c)) {s seen : List Char}
    (h : w.Shows chunk (seen ++ (s.flatMap write ++ '"' :: cs)))
    (enough : String.utf8Len (s.flatMap write) < fuel) :
    Closes (quoted.go w start false fuel (chunk + String.utf8Len seen) chunk r)
      (chunk + String.utf8Len seen + String.utf8Len (s.flatMap write) + 1)
      (r.value ++ String.ofList (seen ++ s)) r := by
  induction s generalizing seen chunk r fuel with
  | nil =>
    obtain ⟨fuel, rfl⟩ := Nat.exists_eq_succ_of_ne_zero (Nat.ne_zero_of_lt enough)
    rw [quoted_go_close quote h.append, h.slice, List.append_nil]
    exact ⟨rfl, rfl, rfl, rfl⟩
  | cons c s ih =>
    rw [List.flatMap_cons, String.utf8Len_append] at enough
    have there : w.Shows chunk (seen ++ (write c ++ (s.flatMap write ++ '"' :: cs))) := by
      simpa using h
    have here := there.append
    rcases itself_or_escape (writes c) with ⟨itself, quotable⟩ | ⟨rest, escape, reads⟩
    · rw [itself] at here there enough
      have one : String.utf8Len [c] = c.utf8Size := by simp
      obtain ⟨fuel, rfl⟩ := Nat.exists_eq_add_of_le' (show c.utf8Size ≤ fuel by omega)
      have left : String.utf8Len (s.flatMap write) < fuel := by omega
      have passed : w.Shows chunk ((seen ++ [c]) ++ (s.flatMap write ++ '"' :: cs)) := by simpa using there
      have next := ih (r := r) passed left
      rw [String.utf8Len_append, one, ← Nat.add_assoc] at next
      rw [quoted_go_itself quote here quotable]
      refine ⟨next.stop.trans ?_, next.value.trans ?_, next.ended, next.errors⟩
      · rw [List.flatMap_cons, itself, String.utf8Len_append, one, Nat.add_assoc _ c.utf8Size]
      · rw [List.append_assoc, List.singleton_append]
    · have size : 0 < String.utf8Len (write c) := by
        rw [escape, String.utf8Len_cons]
        exact Nat.add_pos_right _ (Char.utf8Size_pos _)
      obtain ⟨fuel, rfl⟩ := Nat.exists_eq_succ_of_ne_zero (Nat.ne_zero_of_lt enough)
      have behind := here.append
      let e := w.escape ⟨false, true⟩ (chunk + String.utf8Len seen)
      obtain ⟨stop, value, ended, errors⟩ : ReadsAs e _ c := reads here ⟨false, true⟩
      rw [escape] at here
      rw [quoted_go_escape quote here, there.slice]
      change Closes (quoted.go w start false fuel e.stop e.stop
        ⟨e.stop, r.value ++ String.ofList seen ++ e.value, r.flags ||| e.flags, r.errors ++ e.errors⟩) _ _ r
      rw [stop, value, errors, List.append_nil]
      have left : String.utf8Len (s.flatMap write) < fuel := by omega
      have next := ih (r := ⟨chunk + String.utf8Len seen + String.utf8Len (write c),
        r.value ++ String.ofList seen ++ c.toString, r.flags ||| e.flags, r.errors⟩)
        (show w.Shows _ ([] ++ _) from behind) left
      refine ⟨next.stop.trans ?_, next.value.trans ?_, next.ended.trans ?_, next.errors⟩
      · rw [List.flatMap_cons, String.utf8Len_append, String.utf8Len_nil]
        omega
      · rw [← String.toList_inj]
        simp
      · refine (FlagSet.has_or_flag r.flags e.flags 2 (by decide)).trans ?_
        rw [← TokenFlags.unterminated, ended, Bool.or_false]

theorem quoted_reads_quoteString {text : String} (h : w.Shows i ((Print.quoteString text).toList ++ cs)) :
    Closes (w.quoted i false) (i + (Print.quoteString text).utf8ByteSize) text { stop := i + 1 } := by
  have size : String.utf8Len (Print.quoteString text).toList = (Print.quoteString text).utf8ByteSize :=
    String.utf8Len_toList _
  have quote : '"'.utf8Size = 1 := rfl
  have fuel := h.stop_eq
  rw [quoteString_toList, List.cons_append] at size
  rw [quoteString_toList, List.cons_append, List.cons_append, List.append_assoc, List.singleton_append] at h
  rw [String.utf8Len_cons, String.utf8Len_append, String.utf8Len_cons, String.utf8Len_nil, quote] at size
  rw [String.utf8Len_append, String.utf8Len_toList] at fuel
  have inside : w.Shows (i + 1)
      ([] ++ ((text.toList.flatMap fun c => (Print.escapedChar c).toList) ++ '"' :: cs)) := h.next
  have enough : String.utf8Len (text.toList.flatMap fun c => (Print.escapedChar c).toList) < w.stop - i := by
    omega
  obtain ⟨stop, value, ended, errors⟩ :=
    quoted_go_reads (r := { stop := i + 1 }) (h.byte_one rfl) escapedChar_writes inside enough
  refine ⟨stop.trans ?_, value.trans ?_, ended, errors⟩
  · rw [String.utf8Len_nil]
    omega
  · simp

end Token.Window

/-! ## The whole text -/

namespace Scanner

variable {target : ScriptTarget} {variant : LanguageVariant} {skips : Bool}

theorem atStart_shows (text : String) : (atStart text target variant skips).fresh.window.Shows 0 text.toList := by
  refine ⟨[], [], by simp [window, fresh, atStart, ofText], rfl, ?_⟩
  rw [Nat.zero_add, String.utf8Len_toList]
  rfl

variable {s : Scanner}

/-- Where a character stands that begins no trivia, going on leads to the token there. -/
theorem scan_eq_land (nothing : s.fresh.window.trivia? s.pos = none) :
    s.scan = s.fresh.land s.pos (s.fresh.window.token s.pos) := by
  rw [scan]
  cases s.stop + 1 - s.pos with
  | zero => rfl
  | succ fuel =>
    have noTrivia : s.fresh.window.trivia? s.fresh.pos = none := nothing
    rw [scan.go, noTrivia]
    rfl

theorem scan_at_end (h : s.fresh.window.Shows s.pos []) :
    s.scan = s.fresh.land s.pos ⟨{ stop := s.pos }, .endOfFileToken⟩ := by
  have nothing : s.fresh.window.trivia? s.pos = none := by
    rw [trivia?, h.char?_nil]
  rw [scan_eq_land nothing, token, h.char?_nil]

theorem scan_at_quote {cs : List Char} (h : s.fresh.window.Shows s.pos ('"' :: cs)) :
    s.scan = s.fresh.land s.pos ⟨s.fresh.window.quoted s.pos false, .stringLiteral⟩ := by
  have nothing : s.fresh.window.trivia? s.pos = none := by
    rw [trivia?, h.char?_cons]
    rfl
  have noDigit : s.fresh.window.isNumberStart s.pos = false := by
    rw [isNumberStart, h.byte_one rfl]
    rfl
  rw [scan_eq_land nothing, token, h.char?_cons]
  dsimp only
  rw [show s.fresh.window.isStart '"' = false from rfl, noDigit]
  rfl

/-- A text between quotes is read as one string that stands for the text, and nothing is told. -/
theorem quoteString_scans (text : String) (target : ScriptTarget) (variant : LanguageVariant) (skips : Bool) :
    ∃ t e, (atStart (Print.quoteString text) target variant skips).Yields [t, e] ∧
      t.token = .stringLiteral ∧ t.fullStart = 0 ∧ t.tokenStart = 0 ∧
      t.pos = (Print.quoteString text).utf8ByteSize ∧ t.value = text ∧
      t.hasFlag .unterminated = false ∧ t.reported = #[] ∧ e.reported = #[] := by
  let s := atStart (Print.quoteString text) target variant skips
  have shows : s.fresh.window.Shows 0 (Print.quoteString text).toList := atStart_shows _
  have alone : s.fresh.window.Shows 0 ((Print.quoteString text).toList ++ []) := by rwa [List.append_nil]
  obtain ⟨ends, value, ended, errors⟩ := quoted_reads_quoteString alone
  rw [Nat.zero_add] at ends
  have atEnd : s.fresh.window.Shows (Print.quoteString text).utf8ByteSize [] := by
    rw [← String.utf8Len_toList, ← Nat.zero_add (String.utf8Len _)]
    exact alone.append
  have read : s.scan = s.fresh.land 0 ⟨s.fresh.window.quoted 0 false, .stringLiteral⟩ := by
    rw [quoteString_toList, List.cons_append] at shows
    exact scan_at_quote shows
  have token : s.scan.token = .stringLiteral := by rw [read, land_token]
  have pos : s.scan.pos = (Print.quoteString text).utf8ByteSize := by
    rw [read, land_pos, ends]
  have told : s.scan.reported = #[] := by
    rw [read, land_reported, errors]
    rfl
  have last : s.scan.scan = s.scan.fresh.land s.scan.pos ⟨{ stop := s.scan.pos }, .endOfFileToken⟩ := by
    apply scan_at_end
    rw [pos, fresh_window, read, land_window]
    exact atEnd
  have calm : FlagSet.has (.empty : TokenFlags) TokenFlags.unterminated = false := by decide
  refine ⟨s.scan, s.scan.scan, .next ?_ (.last ?_), token, ?_, ?_, pos, ?_, ?_, told, ?_⟩
  · rw [token]
    decide
  · rw [last, land_token]
  · rw [read, land_fullStart]
    rfl
  · rw [read, land_tokenStart]
  · rw [read, land_value, value]
  · rw [hasFlag, read, land_flags]
    refine (FlagSet.has_or_flag _ (s.fresh.window.quoted 0 false).flags 2 (by decide)).trans ?_
    rw [← TokenFlags.unterminated, ended]
    exact congrArg₂ or calm calm
  · rw [last, land_reported, fresh_reported, told]
    rfl

end Scanner

end ScriptFrontend
