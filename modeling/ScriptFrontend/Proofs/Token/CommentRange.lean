import ScriptFrontend.Proofs.Token.Gap

/-!
# Comments between two tokens

The comments around an offset are found by a reader of their own, and are those that a scanner stops
at which leaves no trivia out. Behind a token the comments before the first line break trail it and
those behind that lead the next token; at the start of a text all lead. A line break beyond ASCII
parts no comments, so line comments have to end at others.
-/

namespace ScriptFrontend

namespace Comment

variable {source : String} {trailing collecting : Bool} {pos : Nat}

def extent (c : Comment) : Kind × Nat × Nat := (c.kind, c.pos, c.stop)

/-- The comments from an offset on, up to the end of the line if `trailing`. Those before the first
line break count only while `collecting`. -/
inductive Gathers (source : String) (trailing : Bool) :
    Nat → Bool → List (Kind × Nat × Nat) → Prop
  | solid {pos : Nat} {collecting : Bool} (nothing : at? source pos = none)
      (solid : ∀ c, Text.charAt? source pos = some c → Text.isBlankOrLineBreak c = false) :
      Gathers source trailing pos collecting []
  | lineEnd {pos : Nat} {collecting : Bool} {c : Char} (char : Text.charAt? source pos = some c)
      (feed : c = '\r' ∨ c = '\n') (stops : trailing = true) :
      Gathers source trailing pos collecting []
  | feed {pos : Nat} {collecting : Bool} {c : Char} {es : List (Kind × Nat × Nat)}
      (char : Text.charAt? source pos = some c) (feed : c = '\r' ∨ c = '\n')
      (goesOn : trailing = false)
      (rest : Gathers source trailing (if Text.startsAt source pos "\r\n" then pos + 2 else pos + 1)
        true es) : Gathers source trailing pos collecting es
  | comment {pos : Nat} {collecting : Bool} {c : Comment} {es : List (Kind × Nat × Nat)}
      (char : Text.charAt? source pos = some '/') (here : at? source pos = some c)
      (rest : Gathers source trailing c.stop collecting es) :
      Gathers source trailing pos collecting (if collecting then c.extent :: es else es)
  | blank {pos : Nat} {collecting : Bool} {c : Char} {es : List (Kind × Nat × Nat)}
      (char : Text.charAt? source pos = some c)
      (blank : Text.isBlankOrLineBreak c = true) (inner : c ≠ '\r' ∧ c ≠ '\n')
      (rest : Gathers source trailing (pos + c.utf8Size) collecting es) :
      Gathers source trailing pos collecting es

/-! ## The reader's loop -/

theorem at?_past {c : Comment} (h : at? source pos = some c) : pos < c.stop := by
  rw [at?] at h
  split at h
  · rename_i opened
    cases h
    have inside : pos + 2 ≤ source.utf8ByteSize := Text.startsAt_le opened (by decide)
    have := (Text.lineEnd_inside inside).1
    dsimp only
    omega
  · split at h
    · rename_i opened
      cases h
      have inside : pos + 2 ≤ source.utf8ByteSize := Text.startsAt_le opened (by decide)
      change pos < Text.blockCommentEnd source pos
      rw [Text.blockCommentEnd]
      split
      · rename_i close closes
        have := (Text.findWord?_go_le closes).1
        omega
      · omega
    · cases h

theorem at?_of_line (first : Text.byteIs source pos 0x2F = true)
    (second : Text.byteIs source (pos + 1) 0x2F = true) :
    at? source pos = some ⟨pos, Text.lineEnd source (pos + 2), false,
      Text.lineEnd source (pos + 2) < source.utf8ByteSize⟩ := by
  have opened : Text.startsAt source pos "//" = true :=
    (Text.startsAt_pair_iff (by decide)).mpr ⟨first, second⟩
  simp [at?, opened]

theorem at?_of_block (first : Text.byteIs source pos 0x2F = true)
    (second : Text.byteIs source (pos + 1) 0x2A = true) :
    at? source pos = some ⟨pos, Text.blockCommentEnd source pos, true, false⟩ := by
  have opened : Text.startsAt source pos "/*" = true :=
    (Text.startsAt_pair_iff (by decide)).mpr ⟨first, second⟩
  have other : ¬ Text.startsAt source pos "//" = true := by
    intro slashes
    have second' : Text.byteIs source (pos + 1) 0x2F = true :=
      ((Text.startsAt_pair_iff (by decide)).mp slashes).2
    rw [Text.byteIs, Bool.and_eq_true, beq_iff_eq] at second second'
    exact absurd (second.2.symm.trans second'.2) (by decide)
  simp [at?, opened, other]

theorem at?_eq_none (h : Text.charAt? source pos = some '/' →
      ¬ Text.byteIs source (pos + 1) 0x2F = true ∧ ¬ Text.byteIs source (pos + 1) 0x2A = true) :
    at? source pos = none := by
  have slash (first : Text.byteIs source pos 0x2F = true) : Text.charAt? source pos = some '/' :=
    (Text.encodes_of_byteIs (c := '/') rfl first).charAt?
  have line : ¬ Text.startsAt source pos "//" = true := by
    intro opened
    obtain ⟨first, second⟩ := (Text.startsAt_pair_iff (by decide)).mp opened
    exact (h (slash first)).1 second
  have block : ¬ Text.startsAt source pos "/*" = true := by
    intro opened
    obtain ⟨first, second⟩ := (Text.startsAt_pair_iff (by decide)).mp opened
    exact (h (slash first)).2 second
  simp [at?, line, block]

theorem extent_breakAfterLast (found : List Comment) :
    (breakAfterLast found).map extent = found.map extent := by
  cases found <;> rfl

theorem Gathers.collect_go {es : List (Kind × Nat × Nat)}
    (h : Gathers source trailing pos collecting es) (fuel : Nat)
    (enough : source.utf8ByteSize - pos ≤ fuel) (found : List Comment) :
    (collect.go source trailing fuel pos collecting found).map extent =
      es.reverse ++ found.map extent := by
  have more {pos fuel : Nat} {c : Char} (char : Text.charAt? source pos = some c)
      (enough : source.utf8ByteSize - pos ≤ fuel) : ∃ rest, fuel = rest + 1 := by
    have inside := Text.lt_size_of_charAt? char
    exact Nat.exists_eq_succ_of_ne_zero (by omega)
  induction h generalizing fuel found with
  | @solid pos collecting nothing solid =>
    -- The only end that may come with no fuel left.
    cases fuel with
    | zero => rfl
    | succ fuel =>
      rw [collect.go]
      cases char : Text.charAt? source pos with
      | none => rfl
      | some c =>
        have solid := solid c char
        simp only [Text.isBlankOrLineBreak, Bool.or_eq_false_iff] at solid
        have feed : (c == '\r' || c == '\n') = false := by
          simp only [Text.isLineBreak, Bool.or_eq_false_iff] at solid ⊢
          exact ⟨solid.2.1.1.2, solid.2.1.1.1⟩
        simp [feed, nothing, solid]
  | @lineEnd pos collecting c char feed stops =>
    obtain ⟨fuel, rfl⟩ := more char enough
    have feed : (c == '\r' || c == '\n') = true := by simpa using feed
    simp [collect.go, char, feed, stops]
  | @feed pos collecting c es char feed goesOn rest ih =>
    obtain ⟨fuel, rfl⟩ := more char enough
    have feed : (c == '\r' || c == '\n') = true := by simpa using feed
    simp only [collect.go, char, feed, goesOn, if_true, Bool.false_eq_true, if_false] at ih ⊢
    rw [ih fuel (by split <;> omega), extent_breakAfterLast]
  | @comment pos collecting c es char here rest ih =>
    obtain ⟨fuel, rfl⟩ := more char enough
    have past := at?_past here
    simp only [collect.go, char, here]
    rw [if_neg (by decide), ih fuel (by omega)]
    cases collecting <;> simp
  | @blank pos collecting c es char blank inner rest ih =>
    obtain ⟨fuel, rfl⟩ := more char enough
    have past := c.utf8Size_pos
    have nothing : at? source pos = none := at?_eq_none fun slash => by
      cases char.symm.trans slash
      exact absurd blank (by decide)
    have feed : ¬ (c == '\r' || c == '\n') = true := by simpa using inner
    simp only [collect.go, char, nothing]
    rw [if_neg feed]
    split
    · rw [ih fuel (by omega), extent_breakAfterLast]
    · rename_i breaks
      rw [Text.isBlankOrLineBreak, Bool.or_eq_true, or_iff_left breaks] at blank
      rw [if_pos blank, ih fuel (by omega)]

theorem Gathers.collect_eq {es : List (Kind × Nat × Nat)}
    (h : Gathers source trailing pos collecting es) :
    (collect source trailing pos collecting).map extent = es := by
  rw [collect, List.map_reverse, h.collect_go _ le_rfl]
  simp

theorem Gathers.past_mark {es : List (Kind × Nat × Nat)}
    (h : Gathers source trailing pos collecting es) (mark : Text.charAt? source pos = some '\uFEFF') :
    Gathers source trailing (pos + 3) collecting es := by
  cases h with
  | solid nothing solid => exact absurd (solid _ mark) (by decide)
  | lineEnd char feed =>
    cases mark.symm.trans char
    exact absurd feed (by decide)
  | feed char feed =>
    cases mark.symm.trans char
    exact absurd feed (by decide)
  | comment char => cases mark.symm.trans char
  | blank char blank inner rest =>
    cases mark.symm.trans char
    exact rest

/-- Behind a mark, no first line that names an interpreter is left out. -/
theorem Gathers.from_start {es : List (Kind × Nat × Nat)}
    (h : Gathers source trailing pos collecting es)
    (inner : pos ≠ 0 ∨ Text.startsAt source 0 "#!" = false)
    (unsigned : Text.charAt? source 0 = some '\uFEFF' → Text.startsAt source 3 "#!" = false) :
    Gathers source trailing (startFrom source pos) collecting es := by
  by_cases zero : pos = 0
  · subst zero
    have plain : Text.startsAt source 0 "#!" = false := inner.resolve_left (· rfl)
    by_cases mark : Text.charAt? source 0 = some '\uFEFF'
    · simpa [startFrom, mark, unsigned mark] using h.past_mark mark
    · simpa [startFrom, mark, plain] using h
  · simpa [startFrom, zero] using h

theorem startFrom_of_sign (sign : Text.startsAt source 0 "#!" = true) :
    startFrom source 0 = Text.lineEnd source 0 := by
  have first := ((Text.startsAt_pair_iff (by decide)).mp sign).1
  have char := (Text.encodes_of_byteIs (c := '#') rfl first).charAt?
  simp [startFrom, char, sign]

inductive Meets (source : String) (kind : Kind) (start stop : Nat) : Prop
  | feed {c : Char} (newLine : kind = .newLineTrivia) (char : Text.charAt? source start = some c)
      (feed : c = '\r' ∨ c = '\n')
      (ends : stop = if Text.startsAt source start "\r\n" then start + 2 else start + 1)
  | comment {c : Comment}
      (isComment : kind = .singleLineCommentTrivia ∨ kind = .multiLineCommentTrivia)
      (char : Text.charAt? source start = some '/') (here : at? source start = some c)
      (extent : c.extent = (kind, start, stop))
  | blank {c : Char} (other : kind = .newLineTrivia ∨ kind = .whitespaceTrivia)
      (char : Text.charAt? source start = some c)
      (unfed : kind = .newLineTrivia → c ≠ '\r' ∧ c ≠ '\n')
      (passes : ∀ {trailing collecting es}, Gathers source trailing stop collecting es →
        Gathers source trailing start collecting es)

end Comment

/-! ## One piece -/

namespace Token.Window

open Comment

variable {w : Window} {i : Nat} {trailing collecting : Bool} {es : List (Kind × Nat × Nat)}

theorem skipChars_gathers (h : Gathers w.text trailing (w.skipChars Text.isBlank i) collecting es) :
    Gathers w.text trailing i collecting es := by
  have loop (fuel k : Nat)
      (h : Gathers w.text trailing (skipChars.go w Text.isBlank fuel k) collecting es) :
      Gathers w.text trailing k collecting es := by
    induction fuel generalizing k with
    | zero => exact h
    | succ fuel ih =>
      rw [skipChars.go] at h
      split at h
      · rename_i c found
        split at h
        · rename_i blank
          refine .blank (charAt?_of_char? found) (by simp [Text.isBlankOrLineBreak, blank]) ?_ (ih _ h)
          constructor
          all_goals
            rintro rfl
            exact absurd blank (by decide)
        · exact h
      · exact h
  exact loop _ i h

theorem IsWhole.gathers_none (whole : w.IsWhole) (nothing : w.trivia? i = none) :
    Gathers w.text trailing i collecting [] := by
  have read {c : Char} (char : Text.charAt? w.text i = some c) :=
    solid_of_trivia?_none nothing (whole.char?_eq i ▸ char)
  refine .solid (at?_eq_none fun slash => ?_) fun c char => (read char).2
  obtain ⟨line, block⟩ := (read slash).1 rfl
  rw [whole.byte_eq] at line block
  simp [Text.byteIs, line, block]

theorem IsWhole.trivia?_meets (whole : w.IsWhole) (h : w.Cut i) {l : Lexeme}
    (found : w.trivia? i = some l) (alike : w.EndsAlike l) (inner : l.kind ≠ .shebangTrivia) :
    Meets w.text l.kind i l.stop := by
  revert alike inner
  apply trivia?_cases
    (P := fun l => w.EndsAlike l → l.kind ≠ .shebangTrivia → Meets w.text l.kind i l.stop) found
  case sign => exact fun _ _ _ inner => absurd rfl inner
  case line =>
    intro slash second alike _
    have first := h.byte_eq slash rfl
    have opened : i + 2 ≤ w.stop := lt_stop_of_byte (by rw [second]; decide)
    have here := at?_of_line (byteIs_of_byte first (by decide)) (byteIs_of_byte second (by decide))
    rw [whole.lineEnd_eq le_rfl opened (fun k ge lt => by omega) (alike.plain (.inl rfl))] at here
    exact .comment (.inl rfl) (charAt?_of_char? slash) here rfl
  case block =>
    intro slash star _ _
    have first := h.byte_eq slash rfl
    have here := at?_of_block (byteIs_of_byte first (by decide)) (byteIs_of_byte star (by decide))
    rw [← whole.blockComment_stop] at here
    exact .comment (.inr rfl) (charAt?_of_char? slash) here rfl
  case conflict => exact fun _ _ alike _ => absurd rfl alike.unmarked
  case feed =>
    intro c stop char breaks ends _ _
    have there := charAt?_of_char? char
    have pair : Text.startsAt w.text i "\r\n" = true ↔ c = '\r' ∧ w.byte (i + 1) = 0x0A := by
      rw [Text.startsAt_pair_iff (by decide)]
      constructor
      · rintro ⟨first, second⟩
        cases there.symm.trans (Text.encodes_of_byteIs (c := '\r') rfl first).charAt?
        exact ⟨rfl, whole.byte_of_byteIs second⟩
      · rintro ⟨rfl, second⟩
        exact ⟨byteIs_of_byte (h.byte_eq char rfl) (by decide), byteIs_of_byte second (by decide)⟩
    by_cases feed : c = '\r' ∨ c = '\n'
    · refine .feed rfl there feed ?_
      have one : c.utf8Size = 1 := by rcases feed with rfl | rfl <;> rfl
      rcases ends with ⟨rfl, single⟩ | ⟨rfl, both⟩
      · rw [if_neg, one]
        intro two
        obtain ⟨same, second⟩ := pair.mp two
        exact single same second
      · rw [if_pos (pair.mpr both)]
    · rw [not_or] at feed
      refine .blank (.inl rfl) there (fun _ => feed) fun rest => ?_
      rcases ends with ⟨rfl, -⟩ | ⟨-, same, -⟩
      · exact .blank there (by simp [Text.isBlankOrLineBreak, breaks]) feed rest
      · exact absurd same feed.1
  case blank =>
    intro c char blank _ _
    have there := charAt?_of_char? char
    have inner : c ≠ '\r' ∧ c ≠ '\n' := by
      constructor
      all_goals
        rintro rfl
        exact absurd blank (by decide)
    refine .blank (.inr rfl) there (fun _ => inner) fun rest => ?_
    exact .blank there (by simp [Text.isBlankOrLineBreak, blank]) inner (skipChars_gathers rest)

end Token.Window

namespace Scanner

open Token Token.Window Comment

variable {text : String} {f t v : Scanner} {vs : List Scanner}

def isFeed (v : Scanner) : Bool :=
  v.token == .newLineTrivia && (Text.charAt? v.text v.tokenStart == some '\r' ||
    Text.charAt? v.text v.tokenStart == some '\n')

def isComment (v : Scanner) : Bool :=
  v.token == .singleLineCommentTrivia || v.token == .multiLineCommentTrivia

/-- The comments among some pieces of trivia, and where they stand. -/
def comments (vs : List Scanner) : List (Kind × Nat × Nat) :=
  (vs.filter isComment).map fun v => (v.token, v.tokenStart, v.pos)

@[simp] theorem comments_nil : comments [] = [] := rfl

theorem comments_cons (v : Scanner) (vs : List Scanner) :
    comments (v :: vs) =
      if v.isComment then (v.token, v.tokenStart, v.pos) :: comments vs else comments vs := by
  simp only [comments, List.filter_cons]
  split <;> rfl

theorem Ready.scan_meets (h : f.Ready text) (bare : f.skipsTrivia = false)
    (piece : f.scan.token.isTrivia = true) (alike : f.scan.EndsAlike)
    (inner : f.scan.token ≠ .shebangTrivia) : Meets text f.scan.token f.pos f.scan.pos := by
  obtain rfl := h.text_eq
  obtain ⟨l, found, next⟩ := h.scan_piece bare piece
  rw [next] at alike inner ⊢
  rw [land_token] at inner
  rw [land_token, land_pos]
  exact h.isWhole.trivia?_meets h.window_cut found alike.of_land inner

/-- The reader of comments goes over the pieces that a scanner stops at. -/
theorem Skims.gathers (h : f.Skims vs t) (ready : f.Ready text) (bare : f.skipsTrivia = false)
    (alike : ∀ v ∈ vs, v.EndsAlike) (inner : f.pos ≠ 0 ∨ Text.startsAt text 0 "#!" = false) :
    Gathers text true f.pos true (comments (vs.takeWhile (!·.isFeed))) ∧
      ∀ collecting, Gathers text false f.pos collecting
        (comments (if collecting then vs else vs.dropWhile (!·.isFeed))) := by
  induction h with
  | @token f solid =>
    obtain rfl := ready.text_eq
    obtain ⟨nothing, -⟩ := ready.scan_solid bare solid
    refine ⟨ready.isWhole.gathers_none nothing, fun collecting => ?_⟩
    rw [List.dropWhile_nil, ite_self]
    exact ready.isWhole.gathers_none nothing
  | @trivia f t vs piece rest ih =>
    obtain ⟨start, past⟩ := ready.scan_past bare piece
    -- Behind a piece no first line can stand any more.
    obtain ⟨before, behind⟩ := ih ready.scan.ready (ready.scan.skips_eq.trans bare)
      (fun v mem => alike v (List.mem_cons_of_mem _ mem)) (.inl (by omega))
    have meets := ready.scan_meets bare piece (alike f.scan (List.mem_cons_self ..))
      (ready.scan_inner bare piece inner)
    have text_eq := ready.scan.text_eq
    cases meets with
    | feed newLine char feed ends =>
      have isFeed : f.scan.isFeed = true := by
        simpa [isFeed, newLine, text_eq, start, char] using feed
      have other : f.scan.isComment = false := by simp [isComment, newLine]
      constructor
      · simpa [List.takeWhile_cons, isFeed] using Gathers.lineEnd char feed rfl
      · intro collecting
        have counted := behind true
        rw [ends] at counted
        simpa [List.dropWhile_cons, isFeed, comments_cons, other] using .feed char feed rfl counted
    | @comment c isComment char here extent =>
      have other : f.scan.isFeed = false := by
        rcases isComment with same | same <;> simp [isFeed, same]
      have isComment : f.scan.isComment = true := by simpa [Scanner.isComment] using isComment
      have stop : f.scan.pos = c.stop := congrArg (·.2.2) extent.symm
      rw [stop] at before behind
      constructor
      · simpa [List.takeWhile_cons, other, comments_cons, isComment, start, ← extent] using
          Gathers.comment char here before
      · intro collecting
        have counted := Gathers.comment char here (behind collecting)
        cases collecting with
        | true => simpa [comments_cons, isComment, start, ← extent] using counted
        | false => simpa [List.dropWhile_cons, other] using counted
    | blank same char unfed passes =>
      have unfed : f.scan.isFeed = false := by simpa [isFeed, text_eq, start, char] using unfed
      have other : f.scan.isComment = false := by
        rcases same with same | same <;> simp [isComment, same]
      constructor
      · simpa [List.takeWhile_cons, unfed, comments_cons, other] using passes before
      · intro collecting
        have counted := passes (behind collecting)
        cases collecting with
        | true => simpa [comments_cons, other] using counted
        | false => simpa [List.dropWhile_cons, unfed] using counted

/-! ## Between two tokens -/

/-- The comments behind a token and before the next are those that the scanner stops at: those before
the first line break of ASCII trail the one, those behind it lead the other. In front of the first
token all lead. -/
theorem Skims.comments_eq (h : f.Skims vs t) (ready : f.Ready text) (bare : f.skipsTrivia = false)
    (alike : ∀ v ∈ vs, v.EndsAlike)
    (unsigned : Text.charAt? text 0 = some '\uFEFF' → Text.startsAt text 3 "#!" = false) :
    (trailing text f.pos).map extent = comments (vs.takeWhile (!·.isFeed)) ∧
      (leading text f.pos).map extent =
        comments (if f.pos = 0 then vs else vs.dropWhile (!·.isFeed)) := by
  by_cases sign : f.pos = 0 ∧ Text.startsAt text 0 "#!" = true
  · obtain ⟨zero, starts⟩ := sign
    obtain ⟨vs', rfl, rest, isSign, stop, past⟩ := h.sign ready bare alike zero starts
    obtain ⟨before, behind⟩ := rest.gathers ready.scan.ready (ready.scan.skips_eq.trans bare)
      (fun v mem => alike v (List.mem_cons_of_mem _ mem)) (.inl past)
    have solid : f.scan.isFeed = false ∧ f.scan.isComment = false := by
      simp [isFeed, isComment, isSign]
    have start : startFrom text f.pos = f.scan.pos := by rw [zero, startFrom_of_sign starts, stop]
    rw [trailing, leading, start, before.collect_eq, (behind _).collect_eq]
    simp [comments_cons, solid, zero]
  · have inner : f.pos ≠ 0 ∨ Text.startsAt text 0 "#!" = false := by
      rwa [← Bool.not_eq_true, ← not_and_or]
    obtain ⟨before, behind⟩ := h.gathers ready bare alike inner
    rw [trailing, leading, (before.from_start inner unsigned).collect_eq,
      ((behind _).from_start inner unsigned).collect_eq]
    simp

/-- In every text, the comments that trail a token and those that lead the next are the comments the
scanner stops at between the two, parted at the first line break of ASCII. -/
theorem comments_part_at_feeds (text : String) (target : ScriptTarget) (variant : LanguageVariant)
    (unsigned : Text.charAt? text 0 = some '\uFEFF' → Text.startsAt text 3 "#!" = false) :
    ∃ quiet full, (atStart text target variant true).Yields quiet ∧
      (atStart text target variant false).Yields full ∧
      List.Forall₂ (fun t group => (∀ v ∈ group.1, v.EndsAlike) →
        (trailing text t.fullStart).map extent = comments (group.1.takeWhile (!·.isFeed)) ∧
          (leading text t.fullStart).map extent =
            comments (if t.fullStart = 0 then group.1 else group.1.dropWhile (!·.isFeed)))
        quiet (withTrivia [] full) := by
  obtain ⟨quiet, full, yields, yields', follows⟩ := exists_follows text target variant
  refine ⟨quiet, full, yields, yields', follows.imp fun t group h alike => ?_⟩
  obtain ⟨f, ready, bare, start, skims⟩ := h.skims
  rw [← start]
  exact skims.comments_eq ready bare alike unsigned

theorem comments_part_at_feed_between_letters :
    let text := "\uFEFFa // b\n/* c */ d"
    (Text.charAt? text 0 = some '\uFEFF' → Text.startsAt text 3 "#!" = false) ∧
    ∃ quiet full, (atStart text .esNext .standard true).Yields quiet ∧
      (atStart text .esNext .standard false).Yields full ∧
      List.Forall₂ (fun t group => (∀ v ∈ group.1, v.EndsAlike) →
        (trailing text t.fullStart).map extent = comments (group.1.takeWhile (!·.isFeed)) ∧
          (leading text t.fullStart).map extent =
            comments (if t.fullStart = 0 then group.1 else group.1.dropWhile (!·.isFeed)))
        quiet (withTrivia [] full) := by
  have unsigned : Text.startsAt "\uFEFFa // b\n/* c */ d" 3 "#!" = false := by decide
  exact ⟨fun _ => unsigned, comments_part_at_feeds _ .esNext .standard fun _ => unsigned⟩

end Scanner

end ScriptFrontend
