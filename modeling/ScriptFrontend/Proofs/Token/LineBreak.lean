import ScriptFrontend.Proofs.Token.Aligned

/-!
# Which tokens note a line break

Tokens do not note a line break of their own. Of the pieces of trivia a line break does, and so does
a block comment that holds one.
-/

namespace ScriptFrontend

def TokenFlags.Calm (flags : TokenFlags) : Prop := flags.has TokenFlags.precedingLineBreak = false

namespace TokenFlags

variable {a b : TokenFlags}

theorem has_break_or (a b : TokenFlags) :
    (a ||| b).has precedingLineBreak = (a.has precedingLineBreak || b.has precedingLineBreak) :=
  FlagSet.has_or_flag a b 0 (by decide)

theorem Calm.or (ha : a.Calm) (hb : b.Calm) : (a ||| b).Calm := by
  rw [Calm, has_break_or, ha, hb]
  rfl

theorem calm_empty : Calm .empty := rfl

theorem calm_unterminated : Calm unterminated := rfl

theorem calm_unicodeEscape : Calm unicodeEscape := rfl

theorem calm_invalidEscape : Calm invalidEscape := rfl

end TokenFlags

namespace Token.Window

open TokenFlags

variable {w : Window} {i : Nat}

/-! ## Names and numbers -/

theorem escapeFlags_calm (braced : Bool) : (escapeFlags braced).Calm := by
  cases braced
  · exact calm_unicodeEscape
  · exact calm_unicodeEscape.or rfl

theorem nameParts_calm (start pos : Nat) : (w.nameParts start pos).flags.Calm := by
  have loop (fuel pos chunk : Nat) (out : String) (flags : TokenFlags) (h : flags.Calm) :
      (nameParts.go w fuel pos chunk out flags).flags.Calm := by
    induction fuel generalizing pos chunk out flags with
    | zero => exact h
    | succ fuel ih =>
      rw [nameParts.go]
      split
      · exact h
      · split
        · exact ih _ _ _ _ h
        · split
          · split
            · exact ih _ _ _ _ (h.or (escapeFlags_calm _))
            · exact h
          · exact h
  exact loop _ _ _ _ _ calm_empty

theorem escapedName_calm (pos : Nat) : (w.escapedName pos).flags.Calm := by
  rw [escapedName]
  split
  · split
    · exact (escapeFlags_calm _).or (nameParts_calm _ _)
    · exact calm_empty
  · exact calm_empty

theorem privateName_calm (pos : Nat) : (w.privateName pos).flags.Calm := by
  rw [privateName]
  split
  · split
    · exact nameParts_calm _ _
    · exact calm_empty
  · exact calm_empty

theorem digits_calm (isValid : UInt8 → Bool) (pos : Nat) : (w.digits isValid pos).flags.Calm := by
  have loop (fuel pos : Nat) (allowed repeated : Bool) (r : Reading) (h : r.flags.Calm) :
      (digits.go w isValid fuel pos allowed repeated r).flags.Calm := by
    induction fuel generalizing pos allowed repeated r with
    | zero => exact h
    | succ fuel ih =>
      rw [digits.go]
      split
      · have noted : (r.flags ||| containsSeparator).Calm := h.or rfl
        dsimp only
        split <;> exact ih _ _ _ _ noted
      · split
        · exact ih _ _ _ _ h
        · exact h
  rw [digits]
  split <;> exact loop _ _ _ _ _ calm_empty

theorem afterNumber_calm (pos : Nat) : (w.afterNumber pos).flags.Calm := by
  rw [afterNumber]
  split
  · split
    · exact nameParts_calm _ _
    · exact calm_empty
  · exact calm_empty

theorem finishNumber_calm (pos : Nat) (value : String) {flags : TokenFlags}
    (errors : List ScanError) (mayBeBig : Bool) (h : flags.Calm) :
    (w.finishNumber pos value flags errors mayBeBig).flags.Calm := by
  rw [finishNumber]
  split <;> exact h.or (afterNumber_calm _)

theorem radixNumber_calm (start base : Nat) (isValid : UInt8 → Bool) {flag : TokenFlags}
    (missing : Diagnostic.Fault) (h : flag.Calm) :
    (w.radixNumber start base isValid flag missing).flags.Calm := by
  rw [radixNumber]
  split <;> exact finishNumber_calm _ _ _ _ (h.or (digits_calm _ _))

theorem exponent_calm (pos : Nat) : (w.exponent pos).flags.Calm := by
  rw [exponent]
  split
  · exact Calm.or rfl (digits_calm _ _)
  · exact calm_empty

theorem decimalNumber_calm (start : Nat) : (w.decimalNumber start).flags.Calm := by
  unfold decimalNumber
  extract_lets whole hasPoint part power isInteger
  have whole_calm : whole.flags.Calm := by
    subst whole
    split
    · exact calm_empty
    · exact digits_calm _ _
  have part_calm : part.flags.Calm := by
    subst part
    split
    · exact digits_calm _ _
    · exact calm_empty
  exact finishNumber_calm _ _ _ _ ((whole_calm.or part_calm).or (exponent_calm _))

theorem number_calm (start : Nat) : (w.number start).flags.Calm := by
  have octal : ((w.legacyOctal? start).getD (w.decimalNumber start)).flags.Calm := by
    rw [legacyOctal?]
    split
    · exact finishNumber_calm _ _ _ _ rfl
    · exact decimalNumber_calm start
  rw [number]
  split
  · split
    · exact radixNumber_calm _ _ _ _ rfl
    · split
      · exact radixNumber_calm _ _ _ _ rfl
      · split
        · exact radixNumber_calm _ _ _ _ rfl
        · split
          · exact octal
          · exact decimalNumber_calm start
  · exact decimalNumber_calm start

/-! ## Strings and templates -/

theorem refused_calm (mode : EscapeMode) (fault : Diagnostic.Fault) (start pos : Nat) :
    (w.refused mode fault start pos).flags.Calm := by
  rw [refused]
  split
  · exact calm_invalidEscape
  · exact calm_empty

theorem bracedEscape_calm (mode : EscapeMode) (start pos : Nat) :
    (w.bracedEscape mode start pos).flags.Calm := by
  have noted : extendedUnicodeEscape.Calm := rfl
  unfold bracedEscape
  extract_lets stop seen n inRange closed
  split
  · exact noted.or (refused_calm _ _ _ _)
  · have inRange_calm : inRange.flags.Calm := by
      subst inRange
      split
      · exact noted.or (refused_calm _ _ _ _)
      · exact noted
    subst closed
    split
    · exact inRange_calm.or calm_empty
    · exact inRange_calm.or (refused_calm _ _ _ _)

theorem unicodeEscape_calm (mode : EscapeMode) (start pos : Nat) :
    (w.unicodeEscape mode start pos).flags.Calm := by
  rw [unicodeEscape]
  split
  · exact bracedEscape_calm _ _ _
  · split
    · exact refused_calm _ _ _ _
    · dsimp only
      repeat' split
      all_goals exact calm_unicodeEscape

theorem octalEscape_calm (mode : EscapeMode) (start pos : Nat) :
    (w.octalEscape mode start pos).flags.Calm := by
  unfold octalEscape
  extract_lets limit stop n r
  subst r
  split
  · exact calm_invalidEscape
  · exact calm_empty

theorem hexEscape_calm (mode : EscapeMode) (start pos : Nat) :
    (w.hexEscape mode start pos).flags.Calm := by
  rw [hexEscape]
  dsimp only
  split
  · exact refused_calm _ _ _ _
  · exact calm_empty

theorem escape_calm (mode : EscapeMode) (start : Nat) : (w.escape mode start).flags.Calm := by
  rw [escape]
  dsimp only
  split
  · exact calm_empty
  · split
    · exact calm_empty
    · split
      · exact octalEscape_calm _ _ _
      · split
        · split
          · exact calm_invalidEscape
          · exact calm_empty
        · split
          · exact unicodeEscape_calm _ _ _
          · split
            · exact hexEscape_calm _ _ _
            · repeat' split
              all_goals exact calm_empty

theorem quoted_calm (start : Nat) (isAttribute : Bool) :
    (w.quoted start isAttribute).flags.Calm := by
  have loop (fuel pos chunk : Nat) (r : Reading) (h : r.flags.Calm) :
      (quoted.go w start isAttribute fuel pos chunk r).flags.Calm := by
    induction fuel generalizing pos chunk r with
    | zero => exact h.or calm_unterminated
    | succ fuel ih =>
      rw [quoted.go]
      split
      · exact h.or calm_unterminated
      · dsimp only
        split
        · exact h
        · split
          · exact ih _ _ _ (h.or (escape_calm _ _))
          · split
            · exact h.or calm_unterminated
            · exact ih _ _ _ h
  exact loop _ _ _ _ calm_empty

theorem template_calm (start : Nat) (report : Bool) : (w.template start report).flags.Calm := by
  have loop (fuel pos chunk : Nat) (r : Reading) (h : r.flags.Calm) :
      (template.go w start report fuel pos chunk r).flags.Calm := by
    induction fuel generalizing pos chunk r with
    | zero => exact h.or calm_unterminated
    | succ fuel ih =>
      rw [template.go]
      split
      · exact h.or calm_unterminated
      · dsimp only
        split
        · exact h
        · split
          · exact h
          · split
            · exact ih _ _ _ (h.or (escape_calm _ _))
            · split
              · exact ih _ _ _ h
              · exact ih _ _ _ h
  exact loop _ _ _ _ calm_empty

theorem mark?_calm {c : Char} {l : Lexeme} (h : w.mark? c i = some l) : l.flags.Calm := by
  obtain ⟨m, -, rfl⟩ := Option.map_eq_some_iff.mp h
  exact calm_empty

theorem token_calm (w : Window) (i : Nat) : (w.token i).flags.Calm := by
  apply token_cases (P := fun l => l.flags.Calm)
  case last => exact fun _ => calm_empty
  case name => exact fun c _ => nameParts_calm _ _
  case digits => exact fun c _ _ => number_calm i
  case string => exact fun c _ _ => quoted_calm i false
  case piece => exact fun _ => template_calm i true
  case escape => exact fun _ => escapedName_calm i
  case own => exact fun _ => privateName_calm i
  case mark => exact fun c l _ marked => mark?_calm marked
  case stray => exact fun c _ => calm_empty

theorem token_isTrivia (w : Window) (i : Nat) : (w.token i).kind.isTrivia = false := by
  apply token_cases (P := fun l => l.kind.isTrivia = false)
  case last => exact fun _ => rfl
  case name => exact fun c _ => Kind.isTrivia_of_isPlain (nameKind_isPlain _ _)
  case digits => exact fun c _ _ => Kind.isTrivia_of_isPlain (number_kind i)
  case string => exact fun c _ _ => rfl
  case piece => exact fun _ => Kind.isTrivia_of_isPlain (template_kind w i true)
  case escape => exact fun _ => Kind.isTrivia_of_isPlain (escapedName_kind i)
  case own => exact fun _ => Kind.isTrivia_of_isPlain (privateName_kind i)
  case mark => exact fun c l _ marked => (mark?_solid marked).2.2
  case stray => exact fun c _ => rfl

/-! ## Where line breaks stand -/

theorem byteIs_of_byte {b : UInt8} (h : w.byte i = b) (solid : b ≠ 0) :
    Text.byteIs w.text i b = true := by
  have there : w.byte i ≠ 0 := h ▸ solid
  have inside := lt_size_of_byte there
  rw [Window.byte, if_pos (lt_stop_of_byte there)] at h
  rw [Text.byteIs, Bool.and_eq_true, decide_eq_true_eq, beq_iff_eq]
  exact ⟨inside, h⟩

theorem encodes_of_byte {c : Char} (one : c.utf8Size = 1) (byte : w.byte i = c.val.toUInt8)
    (solid : c.val.toUInt8 ≠ 0) : Text.Encodes w.text i c :=
  Text.encodes_of_byteIs (String.utf8EncodeChar_eq_singleton one) (byteIs_of_byte byte solid)

theorem breakAt_iff (even : w.Even) (before : i < w.stop) :
    w.breakAt i = true ↔
      ∃ c, Text.Boundary w.text i ∧ Text.charAt? w.text i = some c ∧ Text.isLineBreak c = true := by
  constructor
  · intro h
    have read {c : Char} (encodes : Text.Encodes w.text i c) (breaks : Text.isLineBreak c = true) :
        ∃ c, Text.Boundary w.text i ∧ Text.charAt? w.text i = some c ∧
          Text.isLineBreak c = true :=
      ⟨c, encodes.boundary, encodes.charAt?, breaks⟩
    have word {c : Char} (starts : w.startsAt i (String.singleton c) = true) :
        Text.Encodes w.text i c := by
      rw [startsAt, Bool.and_eq_true] at starts
      exact Text.encodes_of_startsAt starts.2
    rw [breakAt, Bool.or_eq_true, Bool.or_eq_true, Bool.and_eq_true, Bool.or_eq_true, beq_iff_eq,
      beq_iff_eq] at h
    rcases h with (feed | feed) | ⟨-, line | paragraph⟩
    · exact read (encodes_of_byte (c := '\n') rfl feed (by decide)) (by decide)
    · exact read (encodes_of_byte (c := '\r') rfl feed (by decide)) (by decide)
    · exact read (word (c := '\u2028') line) (by decide)
    · exact read (word (c := '\u2029') paragraph) (by decide)
  · rintro ⟨c, cut, found, breaks⟩
    have read : w.char? i = some c := by rw [char?, if_pos before, found]
    have encodes := cut.encodes found
    have word : w.startsAt i (String.singleton c) = true := by
      rw [startsAt, Bool.and_eq_true, decide_eq_true_eq, String.utf8ByteSize_singleton]
      exact ⟨cut.next_le found even before, encodes.startsAt⟩
    have first := encodes.2 0 (by rw [String.length_utf8EncodeChar]; exact c.utf8Size_pos)
    rw [Nat.add_zero] at first
    rw [breakAt, byte, if_pos before, first]
    rw [Text.isLineBreak, Bool.or_eq_true, Bool.or_eq_true, Bool.or_eq_true, beq_iff_eq, beq_iff_eq,
      beq_iff_eq, beq_iff_eq] at breaks
    rcases breaks with ((rfl | rfl) | rfl) | rfl
    · rfl
    · rfl
    · have : w.startsAt i "\u2028" = true := word
      rw [this]
      rfl
    · have : w.startsAt i "\u2029" = true := word
      rw [this, Bool.or_true]
      rfl

theorem lineEnd_lt_iff : w.lineEnd i < w.stop ↔ ∃ k, i ≤ k ∧ k < w.stop ∧ w.breakAt k = true := by
  have loop (fuel k : Nat) : lineEnd.go w fuel k < k + fuel ↔
      ∃ j, k ≤ j ∧ j < k + fuel ∧ w.breakAt j = true := by
    induction fuel generalizing k with
    | zero =>
      constructor
      · exact fun lt => absurd lt (Nat.lt_irrefl k)
      · rintro ⟨j, le, lt, -⟩
        omega
    | succ fuel ih =>
      rw [lineEnd.go]
      split
      · rename_i here
        exact ⟨fun lt => ⟨k, Nat.le_refl k, lt, here⟩, fun _ => by omega⟩
      · rename_i solid
        have reach : k + (fuel + 1) = k + 1 + fuel := by omega
        rw [reach, ih]
        constructor
        · rintro ⟨j, le, lt, breaks⟩
          exact ⟨j, Nat.le_of_succ_le le, lt, breaks⟩
        · rintro ⟨j, le, lt, breaks⟩
          refine ⟨j, Nat.lt_of_le_of_ne le ?_, lt, breaks⟩
          rintro rfl
          exact solid breaks
  rcases Nat.le_total i w.stop with le | ge
  · have := loop (w.stop - i) i
    rwa [Nat.add_sub_of_le le] at this
  · rw [lineEnd, Nat.sub_eq_zero_of_le ge]
    constructor
    · exact fun lt => absurd lt (Nat.not_lt.mpr ge)
    · rintro ⟨k, le, lt, -⟩
      omega

/-- A part of a text between boundaries has a line break just if it holds a character that is one. -/
theorem hasLineBreak_iff {start stop : Nat} (start_cut : w.Cut start) (stop_cut : w.Cut stop)
    (le : start ≤ stop) : w.hasLineBreak start stop = true ↔
      ∃ c ∈ (w.slice start stop).toList, Text.isLineBreak c = true := by
  have even : Even { w with stop := stop } := stop_cut
  rw [hasLineBreak, decide_eq_true_eq]
  refine (lineEnd_lt_iff (w := { w with stop := stop })).trans ⟨?_, ?_⟩
  · rintro ⟨k, ge, lt, breaks⟩
    obtain ⟨c, cut, found, breaks⟩ := (breakAt_iff even lt).mp breaks
    exact ⟨c, (Text.mem_slice_iff start_cut stop_cut le).mpr ⟨k, ge, lt, cut, found⟩, breaks⟩
  · rintro ⟨c, mem, breaks⟩
    obtain ⟨k, ge, lt, cut, found⟩ := (Text.mem_slice_iff start_cut stop_cut le).mp mem
    exact ⟨k, ge, lt, (breakAt_iff even lt).mpr ⟨c, cut, found, breaks⟩⟩

theorem blockComment_inside (opened : i + 2 ≤ w.stop) : i + 2 ≤ (w.blockComment i).stop := by
  rw [blockComment]
  cases found : w.find? "*/" (i + 2) with
  | none => exact opened
  | some close => exact Nat.le_add_right_of_le (find?_go_le (by decide) _ _ found).1

theorem blockComment_notes (w : Window) (i : Nat) :
    (w.blockComment i).flags.has precedingLineBreak =
      w.hasLineBreak (i + 2) (w.blockComment i).stop := by
  have broken (has : Bool) : (if has then precedingLineBreak else .empty : TokenFlags).has
      precedingLineBreak = has := by
    cases has <;> rfl
  have opened (isDoc : Bool) : (if isDoc then precedingDoc else .empty : TokenFlags).Calm := by
    cases isDoc <;> rfl
  unfold blockComment
  extract_lets isDoc start r broke
  change (r.flags ||| broke).has precedingLineBreak = w.hasLineBreak (i + 2) r.stop
  have calm : r.flags.Calm := by
    subst r
    split
    · exact opened isDoc
    · exact (opened isDoc).or calm_unterminated
  rw [has_break_or, calm, Bool.false_or]
  exact broken _

theorem blockComment_breaks (even : w.Even) (h : w.Cut i) (slash : w.char? i = some '/')
    (star : w.byte (i + 1) = 0x2A) :
    (w.blockComment i).flags.has precedingLineBreak = true ↔
      ∃ c ∈ (w.slice i (w.blockComment i).stop).toList, Text.isLineBreak c = true := by
  have there : w.byte (i + 1) ≠ 0 := by rw [star]; decide
  have le := blockComment_inside (i := i) (lt_stop_of_byte there)
  have past : w.Cut (i + 2) := (cut_of_byte there (by rw [star]; decide)).2
  have cut := blockComment_cut even i
  have second : Text.charAt? w.text (i + 1) = some '*' :=
    (encodes_of_byte rfl star (by decide)).charAt?
  rw [blockComment_notes, hasLineBreak_iff past cut le, slice, slice,
    ← Text.slice_append h past cut (Nat.le_add_right i 2) le, String.toList_append]
  constructor
  · rintro ⟨c, mem, breaks⟩
    exact ⟨c, List.mem_append_right _ mem, breaks⟩
  · rintro ⟨c, mem, breaks⟩
    refine ⟨c, (List.mem_append.mp mem).resolve_left fun front => ?_, breaks⟩
    -- The two characters that open a comment are none.
    obtain ⟨k, ge, lt, -, found⟩ :=
      (Text.mem_slice_iff h past (Nat.le_add_right i 2)).mp front
    rcases Nat.eq_or_lt_of_le ge with rfl | later
    · rw [charAt?_of_char? slash] at found
      cases found
      exact absurd breaks (by decide)
    · cases Nat.le_antisymm (Nat.le_of_lt_succ lt) later
      rw [second] at found
      cases found
      exact absurd breaks (by decide)

/-- A piece of trivia notes a line break just if it is one or is a block comment that holds one. -/
theorem trivia?_breaks (even : w.Even) (h : w.Cut i) {l : Lexeme} (found : w.trivia? i = some l) :
    l.flags.has precedingLineBreak = true ↔ l.kind = .newLineTrivia ∨
      (l.kind = .multiLineCommentTrivia ∧
        ∃ c ∈ (w.slice i l.stop).toList, Text.isLineBreak c = true) := by
  apply trivia?_cases (P := fun l => l.flags.has precedingLineBreak = true ↔
    l.kind = .newLineTrivia ∨ (l.kind = .multiLineCommentTrivia ∧
      ∃ c ∈ (w.slice i l.stop).toList, Text.isLineBreak c = true)) found
  case block =>
    intro slash star
    refine (blockComment_breaks even h slash star).trans ?_
    exact ⟨fun breaks => .inr ⟨rfl, breaks⟩, fun either => (either.resolve_left nofun).2⟩
  case feed =>
    intro c stop _ _ _
    have noted : precedingLineBreak.has precedingLineBreak = true := rfl
    exact iff_of_true noted (.inl rfl)
  -- The others are silent, and they are neither.
  all_goals
    intros
    exact ⟨fun noted => (nomatch calm_empty.symm.trans noted),
      fun either => either.elim nofun fun block => nomatch block.1⟩

end Token.Window

end ScriptFrontend
