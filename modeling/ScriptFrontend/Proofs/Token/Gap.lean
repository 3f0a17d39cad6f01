import ScriptFrontend.Proofs.Text.Trivia
import ScriptFrontend.Proofs.Token.Trivia

/-!
# Two readers of trivia

What lies between two tokens is read by the scanner, and by whoever skips trivia in a text. Both find
the next token at the same place where the pieces between are shared: the scanner alone takes the
zero-width space and the markers of a merge conflict for trivia, and lets a line comment end at the
line breaks beyond ASCII. Where the scanner finds a token, no one skips on.
-/

namespace ScriptFrontend

namespace Text

variable {s : String} {i : Nat} {c : Char}

/-- No line break beyond ASCII stands at an offset. -/
def EndsPlain (s : String) (i : Nat) : Prop :=
  charAt? s i ≠ some '\u2028' ∧ charAt? s i ≠ some '\u2029'

theorem isBlankOrLineBreak_of_isUnicodeBlank (h : isUnicodeBlank c = true) :
    isBlankOrLineBreak c = true := by
  have named {n : Nat} (same : c.toNat = n) : c = Char.ofNat n := by rw [← same, Char.ofNat_toNat]
  simp only [isUnicodeBlank, Bool.or_eq_true, Bool.and_eq_true, decide_eq_true_eq, beq_iff_eq,
    or_assoc] at h
  rcases h with ⟨ge, le⟩ | one | one | one | one | ⟨ge, le⟩ | one | one | one | one | one
  any_goals (rw [named one]; decide)
  · have low : c.toNat = 0x09 ∨ c.toNat = 0x0A ∨ c.toNat = 0x0B ∨ c.toNat = 0x0C ∨ c.toNat = 0x0D := by
      omega
    rcases low with one | one | one | one | one <;> rw [named one] <;> decide
  · have range : '\u2000' ≤ c ∧ c ≤ '\u200B' :=
      ⟨UInt32.le_iff_toNat_le.mpr ge, UInt32.le_iff_toNat_le.mpr (Nat.le_succ_of_le le)⟩
    simp [isBlankOrLineBreak, isBlank, range]

theorem isUnicodeBlank_of_isLineBreak (h : isLineBreak c = true) : isUnicodeBlank c = true := by
  simp only [isLineBreak, Bool.or_eq_true, beq_iff_eq] at h
  rcases h with ((rfl | rfl) | rfl) | rfl <;> decide

/-- All blanks of the language but the zero-width space are white space, or the mark in front of a
text. -/
theorem isUnicodeBlank_of_isBlank (h : isBlank c = true) (wide : c ≠ '\u200B') :
    (isUnicodeBlank c || c == '\uFEFF') = true := by
  simp only [isBlank, Bool.or_eq_true, Bool.and_eq_true, beq_iff_eq, decide_eq_true_eq,
    or_assoc] at h
  rcases h with rfl | rfl | rfl | rfl | rfl | rfl | rfl | ⟨ge, le⟩ | rfl | rfl | rfl | rfl
  any_goals decide
  have ge : 0x2000 ≤ c.toNat := UInt32.le_iff_toNat_le.mp ge
  have le : c.toNat ≤ 0x200B := UInt32.le_iff_toNat_le.mp le
  have last : c.toNat ≠ 0x200B := fun same => wide (Char.toNat_inj.mp same)
  have : 0x2000 ≤ c.toNat ∧ c.toNat ≤ 0x200A := by omega
  simp [isUnicodeBlank, this]

end Text

namespace Token.Window

variable {w : Window} {i j : Nat} {c : Char} {l : Lexeme}

def IsWhole (w : Window) : Prop := w.stop = w.text.utf8ByteSize

theorem IsWhole.byte_eq (whole : w.IsWhole) (i : Nat) : w.byte i = Text.byteAt w.text i := by
  rw [byte, whole]
  split
  · rfl
  · rename_i past
    symm
    exact dif_neg past

theorem IsWhole.byte_of_byteIs (whole : w.IsWhole) {b : UInt8} (h : Text.byteIs w.text i b = true) :
    w.byte i = b := by
  rw [Text.byteIs, Bool.and_eq_true, beq_iff_eq] at h
  rw [whole.byte_eq, h.2]

theorem IsWhole.char?_eq (whole : w.IsWhole) (i : Nat) : w.char? i = Text.charAt? w.text i := by
  rw [char?, Text.charAt?, whole]
  split <;> rfl

theorem IsWhole.startsAt_eq (whole : w.IsWhole) {word : String} (solid : 0 < word.utf8ByteSize)
    (i : Nat) : w.startsAt i word = Text.startsAt w.text i word := by
  rw [startsAt, whole, Bool.and_eq_right_iff_imp, decide_eq_true_eq]
  exact fun starts => Text.startsAt_le starts solid

/-! ## Where comments end -/

theorem lineEnd_first (le : i ≤ w.stop) :
    (∀ k, i ≤ k → k < w.lineEnd i → w.breakAt k = false) ∧
      (w.lineEnd i < w.stop → w.breakAt (w.lineEnd i) = true) := by
  have loop (fuel k : Nat) (reach : k + fuel = w.stop) :
      (∀ j, k ≤ j → j < lineEnd.go w fuel k → w.breakAt j = false) ∧
        (lineEnd.go w fuel k < w.stop → w.breakAt (lineEnd.go w fuel k) = true) := by
    induction fuel generalizing k with
    | zero =>
      rw [lineEnd.go]
      exact ⟨fun j ge lt => by omega, fun lt => by omega⟩
    | succ fuel ih =>
      rw [lineEnd.go]
      split
      · rename_i here
        exact ⟨fun j ge lt => by omega, fun _ => here⟩
      · rename_i solid
        obtain ⟨before, last⟩ := ih (k + 1) (by omega)
        refine ⟨fun j ge lt => ?_, last⟩
        rcases Nat.eq_or_lt_of_le ge with rfl | later
        · exact Bool.not_eq_true _ ▸ solid
        · exact before j later lt
  exact loop _ i (by omega)

/-- What holds no line break belongs to the line; only line breaks of ASCII end one for all. -/
theorem IsWhole.lineEnd_eq (whole : w.IsWhole) (le : i ≤ j) (inside : j ≤ w.stop)
    (front : ∀ k, i ≤ k → k < j → w.breakAt k = false)
    (plain : Text.EndsPlain w.text (w.lineEnd j)) : Text.lineEnd w.text i = w.lineEnd j := by
  obtain ⟨before, last⟩ := lineEnd_first inside
  have reach := lineEnd_go_le (w := w) (w.stop - j) j
  have solid (k : Nat) (ge : i ≤ k) (lt : k < w.lineEnd j) : w.breakAt k = false := by
    rcases Nat.lt_or_ge k j with front_k | behind
    · exact front k ge front_k
    · exact before k behind lt
  refine Text.findByte_eq (le.trans reach.1) ?_ (fun k ge lt => ?_) fun lt => ?_
  · rw [← whole, lineEnd]
    omega
  · have := solid k ge lt
    rw [breakAt, Bool.or_eq_false_iff, whole.byte_eq] at this
    exact this.1
  · -- A break beyond ASCII is one of two characters, and none of them stands there.
    have breaks := last (by rwa [whole])
    have word {c : Char} (starts : w.startsAt (w.lineEnd j) (String.singleton c) = true) :
        Text.charAt? w.text (w.lineEnd j) = some c := by
      rw [startsAt, Bool.and_eq_true] at starts
      exact (Text.encodes_of_startsAt starts.2).charAt?
    simp only [breakAt, Bool.or_eq_true, Bool.and_eq_true, whole.byte_eq] at breaks
    rcases breaks with feed | ⟨-, line | paragraph⟩
    · exact (Bool.or_eq_true _ _).mpr feed
    · exact absurd (word (c := '\u2028') line) plain.1
    · exact absurd (word (c := '\u2029') paragraph) plain.2

theorem IsWhole.find?_eq (whole : w.IsWhole) {word : String} (solid : 0 < word.utf8ByteSize)
    (i : Nat) : w.find? word i = Text.findWord? w.text word i := by
  have loop (fuel k : Nat) (reach : w.stop ≤ k + fuel) :
      find?.go w word fuel k = Text.findWord?.go w.text word (fuel + 1) k := by
    induction fuel generalizing k with
    | zero =>
      have nowhere : ¬ Text.startsAt w.text k word = true := fun starts => by
        have := Text.startsAt_le starts solid
        rw [← whole] at this
        omega
      rw [find?.go, Text.findWord?.go, if_neg nowhere, Text.findWord?.go]
    | succ fuel ih =>
      rw [find?.go, Text.findWord?.go, whole.startsAt_eq solid, ih (k + 1) (by omega)]
  rw [find?, Text.findWord?, ← whole]
  rcases Nat.lt_or_ge w.stop i with past | before
  · rw [Nat.sub_eq_zero_of_le past.le, Nat.sub_eq_zero_of_le past, find?.go, Text.findWord?.go]
  · rw [loop _ i (by omega), Nat.sub_add_comm before]

theorem IsWhole.blockComment_stop (whole : w.IsWhole) (i : Nat) :
    (w.blockComment i).stop = Text.blockCommentEnd w.text i := by
  rw [blockComment, Text.blockCommentEnd, ← whole.find?_eq (by decide)]
  cases w.find? "*/" (i + 2) with
  | none => exact whole
  | some close => rfl

/-! ## One piece -/

/-- A row of blanks is gone over, but for zero-width spaces. -/
theorem skips_blanks (h : w.Cut i)
    (wide : ∀ k, i ≤ k → k < w.skipChars Text.isBlank i → w.Cut k →
      Text.charAt? w.text k ≠ some '\u200B') : Text.Skips w.text i (w.skipChars Text.isBlank i) := by
  have loop (fuel k : Nat) (h : w.Cut k)
      (wide : ∀ j, k ≤ j → j < skipChars.go w Text.isBlank fuel k → w.Cut j →
        Text.charAt? w.text j ≠ some '\u200B') :
      Text.Skips w.text k (skipChars.go w Text.isBlank fuel k) := by
    induction fuel generalizing k with
    | zero => exact .refl
    | succ fuel ih =>
      cases found : w.char? k with
      | none =>
        simp only [skipChars.go, found]
        exact .refl
      | some c =>
        by_cases blank : Text.isBlank c = true
        · simp only [skipChars.go, found, blank, if_true] at wide ⊢
          have there := charAt?_of_char? found
          have past : k < k + c.utf8Size := Nat.lt_add_of_pos_right c.utf8Size_pos
          have reach := (skipChars_go_reaches Text.isBlank fuel _ (char?_size_le found)).le
          have thick : c ≠ '\u200B' := fun same =>
            wide k le_rfl (past.trans_le reach) h (there.trans (congrArg some same))
          exact .head (Text.triviaStep?_of_blank h there (Text.isUnicodeBlank_of_isBlank blank thick))
            (ih _ (h.past_char found) fun j ge => wide j (past.le.trans ge))
        · simp only [skipChars.go, found, blank]
          exact .refl
  exact loop _ i h wide

/-- A piece of trivia that ends at one place for all readers. -/
structure EndsAlike (w : Window) (l : Lexeme) : Prop where
  unmarked : l.kind ≠ .conflictMarkerTrivia
  plain : l.kind = .singleLineCommentTrivia ∨ l.kind = .shebangTrivia → Text.EndsPlain w.text l.stop

/-- A piece of trivia that whoever skips trivia takes for one, too. -/
structure Shared (w : Window) (i : Nat) (l : Lexeme) : Prop extends w.EndsAlike l where
  wide : l.kind = .whitespaceTrivia → ∀ k, i ≤ k → k < l.stop → w.Cut k →
    Text.charAt? w.text k ≠ some '\u200B'

/-- A shared piece is gone over, but for the first line of a script. -/
theorem IsWhole.trivia?_skips (whole : w.IsWhole) (h : w.Cut i) (found : w.trivia? i = some l)
    (shared : w.Shared i l) (inner : l.kind ≠ .shebangTrivia) : Text.Skips w.text i l.stop := by
  revert shared inner
  apply trivia?_cases
    (P := fun l => w.Shared i l → l.kind ≠ .shebangTrivia → Text.Skips w.text i l.stop) found
  case sign => exact fun _ _ _ inner => absurd rfl inner
  case line =>
    intro slash second shared _
    have first := h.byte_eq slash rfl
    have opened : i + 2 ≤ w.stop := lt_stop_of_byte (by rw [second]; decide)
    have front (k : Nat) (ge : i ≤ k) (lt : k < i + 2) : w.breakAt k = false := by
      rcases Nat.eq_or_lt_of_le ge with rfl | later
      · rw [breakAt, first]
        rfl
      · cases Nat.le_antisymm (Nat.le_of_lt_succ lt) later
        rw [breakAt, second]
        rfl
    refine .of_step ?_
    rw [Text.triviaStep?_eq h (charAt?_of_char? slash), if_pos rfl,
      if_pos (byteIs_of_byte second (by decide)),
      whole.lineEnd_eq (Nat.le_add_right i 2) opened front (shared.plain (.inl rfl))]
  case block =>
    intro slash star _ _
    have other : Text.byteIs w.text (i + 1) 0x2F = false := by
      have second : w.byte (i + 1) = Text.byteAt w.text (i + 1) := whole.byte_eq _
      simp [Text.byteIs, ← second, star]
    refine .of_step ?_
    rw [Text.triviaStep?_eq h (charAt?_of_char? slash), if_pos rfl, other,
      if_neg Bool.false_ne_true, if_pos (byteIs_of_byte star (by decide)), whole.blockComment_stop]
  case conflict => exact fun _ _ shared _ => absurd rfl shared.unmarked
  case feed =>
    intro c stop char breaks ends _ _
    have blank {c : Char} (breaks : Text.isLineBreak c = true) :
        (Text.isUnicodeBlank c || c == '\uFEFF') = true := by
      rw [Text.isUnicodeBlank_of_isLineBreak breaks, Bool.true_or]
    have step := Text.triviaStep?_of_blank h (charAt?_of_char? char) (blank breaks)
    rcases ends with ⟨rfl, -⟩ | ⟨rfl, rfl, feed⟩
    · exact .of_step step
    · have next : Text.charAt? w.text (i + 1) = some '\n' :=
        (encodes_of_byte rfl feed (by decide)).charAt?
      have second := Text.triviaStep?_of_blank (h.past_char char) next (blank (by decide))
      exact .head step (.single second)
  case blank =>
    intro c char blank shared _
    have there := charAt?_of_char? char
    have past : i < i + c.utf8Size := Nat.lt_add_of_pos_right c.utf8Size_pos
    have reach := (skipChars_reaches Text.isBlank (char?_size_le char)).le
    have wide := shared.wide rfl
    have thick : c ≠ '\u200B' := fun same =>
      wide i le_rfl (past.trans_le reach) h (there.trans (congrArg some same))
    exact .head (Text.triviaStep?_of_blank h there (Text.isUnicodeBlank_of_isBlank blank thick))
      (skips_blanks (h.past_char char) fun k ge => wide k (past.le.trans ge))

theorem solid_of_trivia?_none (nothing : w.trivia? i = none) (found : w.char? i = some c) :
    (c = '/' → w.byte (i + 1) ≠ 0x2F ∧ w.byte (i + 1) ≠ 0x2A) ∧
      Text.isBlankOrLineBreak c = false := by
  simp only [trivia?, found] at nothing
  split at nothing
  · cases nothing
  · split at nothing
    · cases nothing
    · rename_i line
      split at nothing
      · cases nothing
      · rename_i block
        split at nothing
        · cases nothing
        · split at nothing
          · cases nothing
          · rename_i breaks
            split at nothing
            · cases nothing
            · rename_i blank
              refine ⟨?_, by simp [Text.isBlankOrLineBreak, breaks, blank]⟩
              rintro rfl
              exact ⟨fun second => line (by simp [second]), fun second => block (by simp [second])⟩

theorem IsWhole.triviaStep?_none (whole : w.IsWhole) (h : w.Cut i)
    (nothing : w.trivia? i = none) : Text.triviaStep? w.text i = none := by
  cases found : w.char? i with
  | none =>
    rw [whole.char?_eq, Text.charAt?] at found
    rw [Text.triviaStep?, if_neg (by simpa using found)]
  | some c =>
    obtain ⟨slash, solid⟩ := solid_of_trivia?_none nothing found
    rw [Text.triviaStep?_eq h (charAt?_of_char? found)]
    split
    · rename_i same
      obtain ⟨line, block⟩ := slash same
      rw [whole.byte_eq] at line block
      simp [Text.byteIs, line, block]
    · have blank : Text.isUnicodeBlank c ≠ true := fun blank => by
        rw [Text.isBlankOrLineBreak_of_isUnicodeBlank blank] at solid
        cases solid
      have mark : c ≠ '\uFEFF' := by
        rintro rfl
        exact absurd solid (by decide)
      simp [blank, mark]

/-- A first line that names an interpreter is one piece of trivia, and no other piece is one. -/
theorem IsWhole.trivia?_sign (whole : w.IsWhole) (sign : Text.startsAt w.text 0 "#!" = true) :
    w.trivia? 0 = some ⟨{ stop := w.lineEnd 0 }, .shebangTrivia⟩ := by
  obtain ⟨first, second⟩ := (Text.startsAt_pair_iff (by decide)).mp sign
  have char : w.char? 0 = some '#' := by
    rw [whole.char?_eq]
    exact (Text.encodes_of_byteIs (c := '#') rfl first).charAt?
  have second : w.byte 1 = 0x21 := whole.byte_of_byteIs second
  simp [trivia?, char, second]

theorem sign_of_shebang (h : w.Cut i) (found : w.trivia? i = some l)
    (sign : l.kind = .shebangTrivia) : i = 0 ∧ Text.startsAt w.text 0 "#!" = true := by
  revert sign
  apply trivia?_cases
    (P := fun l => l.kind = .shebangTrivia → i = 0 ∧ Text.startsAt w.text 0 "#!" = true) found
  case sign =>
    rintro char ⟨rfl, second⟩ -
    have first := h.byte_eq char rfl
    exact ⟨rfl, (Text.startsAt_pair_iff (by decide)).mpr
      ⟨byteIs_of_byte first (by decide), byteIs_of_byte second (by decide)⟩⟩
  all_goals
    intros
    contradiction

end Token.Window

/-! ## What lies between two tokens -/

namespace Scanner

open Token Token.Window

variable {text : String} {f t v : Scanner} {vs : List Scanner}

/-- A piece of trivia that ends at one place for all readers. -/
structure EndsAlike (v : Scanner) : Prop where
  unmarked : v.token ≠ .conflictMarkerTrivia
  plain : v.token = .singleLineCommentTrivia ∨ v.token = .shebangTrivia → Text.EndsPlain v.text v.pos

/-- A piece of trivia that whoever skips trivia takes for one, too. -/
structure IsShared (v : Scanner) : Prop extends v.EndsAlike where
  wide : v.token = .whitespaceTrivia → '\u200B' ∉ v.tokenText.toList

theorem Reads.isWhole (h : f.Reads text) : f.window.IsWhole := by
  obtain ⟨rfl, stop⟩ := h
  exact stop

theorem Ready.scan_piece (h : f.Ready text) (bare : f.skipsTrivia = false)
    (piece : f.scan.token.isTrivia = true) :
    ∃ l, f.window.trivia? f.pos = some l ∧ f.scan = f.fresh.land f.pos l := by
  have next := h.scan_bare bare
  cases found : f.window.trivia? f.pos with
  | some l =>
    rw [found, Option.getD_some] at next
    exact ⟨l, rfl, next⟩
  | none =>
    rw [next, land_token, found, Option.getD_none, token_isTrivia] at piece
    cases piece

theorem Ready.scan_solid (h : f.Ready text) (bare : f.skipsTrivia = false)
    (solid : f.scan.token.isTrivia = false) :
    f.window.trivia? f.pos = none ∧ f.scan.tokenStart = f.pos := by
  have next := h.scan_bare bare
  cases found : f.window.trivia? f.pos with
  | some l =>
    rw [next, land_token, found, Option.getD_some, trivia?_kind found] at solid
    cases solid
  | none => exact ⟨rfl, by rw [next, land_tokenStart]⟩

theorem EndsAlike.of_land {start : Nat} {l : Lexeme} (h : (f.fresh.land start l).EndsAlike) :
    f.window.EndsAlike l := by
  obtain ⟨unmarked, plain⟩ := h
  rw [land_token] at unmarked
  rw [land_token, land_pos, land_text] at plain
  exact ⟨unmarked, plain⟩

theorem Ready.shared (h : f.Ready text) {l : Lexeme} (found : f.window.trivia? f.pos = some l)
    (shared : (f.fresh.land f.pos l).IsShared) : f.window.Shared f.pos l := by
  have cut := h.window_cut
  have stop := trivia?_cut h.even cut found
  have le := (trivia?_past cut found).le
  obtain ⟨alike, wide⟩ := shared
  rw [tokenText, land_token, land_tokenStart, land_pos, land_text] at wide
  refine ⟨alike.of_land, fun blank k ge lt at_k zero => wide blank ?_⟩
  exact (Text.mem_slice_iff cut stop le).mpr ⟨k, ge, lt, at_k, zero⟩

/-- Only the first line of a text names an interpreter. -/
theorem Ready.scan_inner (h : f.Ready text) (bare : f.skipsTrivia = false)
    (piece : f.scan.token.isTrivia = true)
    (inner : f.pos ≠ 0 ∨ Text.startsAt text 0 "#!" = false) : f.scan.token ≠ .shebangTrivia := by
  obtain rfl := h.text_eq
  obtain ⟨l, found, next⟩ := h.scan_piece bare piece
  rw [next, land_token]
  intro sign
  obtain ⟨zero, starts⟩ := sign_of_shebang h.window_cut found sign
  exact inner.elim (· zero) fun no => Bool.false_ne_true (no.symm.trans starts)

theorem Ready.scan_past (h : f.Ready text) (bare : f.skipsTrivia = false)
    (piece : f.scan.token.isTrivia = true) : f.scan.tokenStart = f.pos ∧ f.pos < f.scan.pos := by
  have start : f.scan.tokenStart = f.pos := h.scan.bare bare
  exact ⟨start, start ▸ h.scan.wide (ne_end_of_isTrivia piece)⟩

/-- Behind a first line that names an interpreter, whoever skips trivia goes over shared pieces to the
token behind them. -/
theorem Skims.skips (h : f.Skims vs t) (ready : f.Ready text) (bare : f.skipsTrivia = false)
    (shared : ∀ v ∈ vs, v.IsShared) (inner : f.pos ≠ 0 ∨ Text.startsAt text 0 "#!" = false) :
    Text.Skips text f.pos t.tokenStart ∧ Text.triviaStep? text t.tokenStart = none := by
  induction h with
  | @token f solid =>
    obtain rfl := ready.text_eq
    obtain ⟨nothing, start⟩ := ready.scan_solid bare solid
    rw [start]
    exact ⟨.refl, ready.isWhole.triviaStep?_none ready.window_cut nothing⟩
  | @trivia f t vs piece rest ih =>
    obtain rfl := ready.text_eq
    obtain ⟨l, found, next⟩ := ready.scan_piece bare piece
    have first := ready.shared found (next ▸ shared f.scan (List.mem_cons_self ..))
    have plain : l.kind ≠ .shebangTrivia := by
      have := ready.scan_inner bare piece inner
      rwa [next, land_token] at this
    have step := ready.isWhole.trivia?_skips ready.window_cut found first plain
    have past := (ready.scan_past bare piece).2
    have stop : f.scan.pos = l.stop := by rw [next, land_pos]
    obtain ⟨behind, last⟩ := ih ready.scan.ready (ready.scan.skips_eq.trans bare)
      (fun v mem => shared v (List.mem_cons_of_mem _ mem)) (.inl (by omega))
    rw [stop] at behind
    exact ⟨step.trans behind, last⟩

theorem Skims.sign (h : f.Skims vs t) (ready : f.Ready text) (bare : f.skipsTrivia = false)
    (alike : ∀ v ∈ vs, v.EndsAlike) (zero : f.pos = 0) (starts : Text.startsAt text 0 "#!" = true) :
    ∃ vs', vs = f.scan :: vs' ∧ f.scan.Skims vs' t ∧ f.scan.token = .shebangTrivia ∧
      f.scan.pos = Text.lineEnd text 0 ∧ f.scan.pos ≠ 0 := by
  obtain rfl := ready.text_eq
  have found := ready.isWhole.trivia?_sign starts
  rw [← zero] at found
  cases h with
  | token solid =>
    rw [(ready.scan_solid bare solid).1] at found
    cases found
  | @trivia _ _ vs' piece rest =>
    obtain ⟨l, found', next⟩ := ready.scan_piece bare piece
    cases found.symm.trans found'
    have past := (ready.scan_past bare piece).2
    have stop : f.scan.pos = f.window.lineEnd f.pos := by rw [next, land_pos]
    have plain := (next ▸ alike f.scan (List.mem_cons_self ..)).of_land.plain (.inr rfl)
    have same : Text.lineEnd f.text 0 = f.window.lineEnd 0 :=
      ready.isWhole.lineEnd_eq le_rfl (Nat.zero_le _) (fun k _ lt => by omega) (zero ▸ plain)
    refine ⟨vs', rfl, rest, by rw [next, land_token], ?_, by omega⟩
    rw [stop, zero, same]

/-- Whoever skips trivia finds the token that the scanner finds behind shared pieces. -/
theorem Skims.skipTrivia_eq (h : f.Skims vs t) (ready : f.Ready text) (bare : f.skipsTrivia = false)
    (shared : ∀ v ∈ vs, v.IsShared) : Text.skipTrivia text f.pos = t.tokenStart := by
  by_cases sign : f.pos = 0 ∧ Text.startsAt text 0 "#!" = true
  · obtain ⟨zero, starts⟩ := sign
    obtain ⟨vs', rfl, rest, -, stop, past⟩ :=
      h.sign ready bare (fun v mem => (shared v mem).toEndsAlike) zero starts
    obtain ⟨behind, last⟩ := rest.skips ready.scan.ready (ready.scan.skips_eq.trans bare)
      (fun v mem => shared v (List.mem_cons_of_mem _ mem)) (.inl past)
    refine Text.skipTrivia_eq ?_ last
    rw [stop] at behind
    simpa [Text.skipStart, zero, starts] using behind
  · have inner : f.pos ≠ 0 ∨ Text.startsAt text 0 "#!" = false := by
      rwa [← Bool.not_eq_true, ← not_and_or]
    obtain ⟨behind, last⟩ := h.skips ready bare shared inner
    refine Text.skipTrivia_eq ?_ last
    have start : Text.skipStart text f.pos = f.pos := by
      rw [Text.skipStart, if_neg]
      simpa using sign
    rwa [start]

/-- Before each token of a text a scanner goes over pieces of trivia. -/
theorem exists_follows (text : String) (target : ScriptTarget) (variant : LanguageVariant) :
    ∃ quiet full, (atStart text target variant true).Yields quiet ∧
      (atStart text target variant false).Yields full ∧
      List.Forall₂ (Follows text) quiet (withTrivia [] full) := by
  have ready := (atStart_aligned text target variant true).ready
  have ready' := (atStart_aligned text target variant false).ready
  obtain ⟨quiet, yields⟩ := ready.exists_yields
  obtain ⟨full, yields', follows, -⟩ :=
    yields.follows ready ready' ⟨rfl, rfl, rfl, ⟨rfl, rfl⟩, rfl, rfl⟩
  exact ⟨quiet, full, yields, yields', follows⟩

/-- In every text, a skip from the end of a token on finds the next token where the scanner finds it, if
the pieces of trivia between are shared. -/
theorem skipTrivia_finds_tokens (text : String) (target : ScriptTarget) (variant : LanguageVariant) :
    ∃ quiet full, (atStart text target variant true).Yields quiet ∧
      (atStart text target variant false).Yields full ∧
      List.Forall₂ (fun t group => (∀ v ∈ group.1, v.IsShared) →
        Text.skipTrivia text t.fullStart = t.tokenStart) quiet (withTrivia [] full) := by
  obtain ⟨quiet, full, yields, yields', follows⟩ := exists_follows text target variant
  refine ⟨quiet, full, yields, yields', follows.imp fun t group h shared => ?_⟩
  obtain ⟨f, ready, bare, start, skims⟩ := h.skims
  have same : t.tokenStart = group.2.tokenStart := congrArg (·.2.1) h.look_eq
  rw [← start, same]
  exact skims.skipTrivia_eq ready bare shared

end Scanner

end ScriptFrontend
