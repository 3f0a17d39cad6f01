import ScriptFrontend.Proofs.Token.Gap
import ScriptFrontend.Proofs.Token.Shown

/-!
# Regular expressions

A slash that is read again as the start of a regular expression is followed by the body of one, if one
stands there, and by its flags. The body is told by a grammar: outside of a class of characters it has
no slash of its own, a class goes on to the first bracket that closes it, and behind a backslash any
character stands for itself; none of them ends the line. What the scanner notes on its way over the
body, whether it is behind a backslash and whether it is in a class, says how the body may go on.
-/

namespace ScriptFrontend

open Token Token.Window

namespace Text

theorem inRanges_eq_any (ranges : Array (Nat × Nat)) (n : Nat) :
    inRanges ranges n = ranges.toList.any fun r => r.1 ≤ n && n ≤ r.2 := by
  rw [inRanges, Array.any_toList]

theorem isIdentifierPart_of_isLineBreak {c : Char} (h : isLineBreak c = true) :
    isIdentifierPart c = false := by
  simp only [isLineBreak, Bool.or_eq_true, beq_iff_eq] at h
  rw [isIdentifierPart, isIdentifierStart, inRanges_eq_any, inRanges_eq_any]
  rcases h with ((rfl | rfl) | rfl) | rfl <;> decide +kernel

end Text

/-- What may stand between the brackets of a class of characters. -/
inductive RegexClass : List Char → Prop
  | nil : RegexClass []
  | char {c : Char} {cs : List Char} (plain : c ≠ ']' ∧ c ≠ '\\') (solid : Text.isLineBreak c = false)
      (rest : RegexClass cs) : RegexClass (c :: cs)
  | escape {c : Char} {cs : List Char} (solid : Text.isLineBreak c = false) (rest : RegexClass cs) :
      RegexClass ('\\' :: c :: cs)

inductive RegexRow : List Char → Prop
  | nil : RegexRow []
  | char {c : Char} {cs : List Char} (plain : c ≠ '\\' ∧ c ≠ '/' ∧ c ≠ '[')
      (solid : Text.isLineBreak c = false) (rest : RegexRow cs) : RegexRow (c :: cs)
  | escape {c : Char} {cs : List Char} (solid : Text.isLineBreak c = false) (rest : RegexRow cs) :
      RegexRow ('\\' :: c :: cs)
  | ofClass {cls cs : List Char} (inside : RegexClass cls) (rest : RegexRow cs) :
      RegexRow ('[' :: cls ++ ']' :: cs)

/-- The body of a regular expression. What begins with a star, or nothing at all, is none, because the
slash before it would begin a comment. -/
structure RegexBody (cs : List Char) : Prop where
  row : RegexRow cs
  first : ∃ c, cs.head? = some c ∧ c ≠ '*'

/-- How a body goes on behind a part of it: in a class, and behind a backslash. -/
inductive RegexRest : Bool → Bool → List Char → Prop
  | row {cs : List Char} (rest : RegexRow cs) : RegexRest false false cs
  | inClass {cls cs : List Char} (inside : RegexClass cls) (rest : RegexRow cs) :
      RegexRest false true (cls ++ ']' :: cs)
  | escaped {inClass : Bool} {c : Char} {cs : List Char} (solid : Text.isLineBreak c = false)
      (rest : RegexRest false inClass cs) : RegexRest true inClass (c :: cs)

namespace Scanner

/-- Whether what comes behind a character is behind a backslash, and whether it is in a class. -/
def regexStep (escaped inClass : Bool) (c : Char) : Bool × Bool :=
  if escaped then (false, inClass)
  else if c == '[' then (false, true)
  else if c == '\\' then (true, inClass)
  else if c == ']' then (false, false)
  else (false, inClass)

end Scanner

variable {c : Char} {cs body tail : List Char} {escaped inClass : Bool}

/-! ## One character of a body -/

theorem regexRest_escaped_iff :
    RegexRest true inClass (c :: cs) ↔ Text.isLineBreak c = false ∧ RegexRest false inClass cs := by
  constructor
  · rintro (_ | _ | ⟨solid, rest⟩)
    exact ⟨solid, rest⟩
  · rintro ⟨solid, rest⟩
    exact .escaped solid rest

theorem regexRest_inClass_iff : RegexRest false true (c :: cs) ↔ Text.isLineBreak c = false ∧
    RegexRest (Scanner.regexStep false true c).1 (Scanner.regexStep false true c).2 cs := by
  constructor
  · intro h
    generalize whole : c :: cs = ds at h
    cases h with
    | @inClass cls cs' inside rest =>
      cases inside with
      | nil =>
        cases whole
        exact ⟨rfl, .row rest⟩
      | char plain solid inside =>
        cases whole
        simp only [Scanner.regexStep, plain, beq_iff_eq, if_false, ite_self, Bool.false_eq_true]
        exact ⟨solid, .inClass inside rest⟩
      | escape solid inside =>
        cases whole
        exact ⟨rfl, .escaped solid (.inClass inside rest)⟩
  · rintro ⟨solid, h⟩
    by_cases bracket : c = ']'
    · subst bracket
      cases h with
      | row rest => exact .inClass .nil rest
    by_cases backslash : c = '\\'
    · subst backslash
      cases h with
      | escaped solid h =>
        cases h with
        | inClass inside rest => exact .inClass (.escape solid inside) rest
    simp only [Scanner.regexStep, bracket, backslash, beq_iff_eq, if_false, ite_self,
      Bool.false_eq_true] at h
    cases h with
    | inClass inside rest => exact .inClass (.char ⟨bracket, backslash⟩ solid inside) rest

theorem regexRest_row_iff : RegexRest false false (c :: cs) ↔ Text.isLineBreak c = false ∧ c ≠ '/' ∧
    RegexRest (Scanner.regexStep false false c).1 (Scanner.regexStep false false c).2 cs := by
  constructor
  · rintro (h | _ | _)
    generalize whole : c :: cs = ds at h
    cases h with
    | nil => cases whole
    | char plain solid rest =>
      cases whole
      simp only [Scanner.regexStep, plain, beq_iff_eq, if_false, ite_self, Bool.false_eq_true]
      exact ⟨solid, plain.2.1, .row rest⟩
    | escape solid rest =>
      cases whole
      exact ⟨rfl, by decide, .escaped solid (.row rest)⟩
    | ofClass inside rest =>
      cases whole
      exact ⟨rfl, by decide, .inClass inside rest⟩
  · rintro ⟨solid, slash, h⟩
    by_cases backslash : c = '\\'
    · subst backslash
      cases h with
      | escaped solid h =>
        cases h with
        | row rest => exact .row (.escape solid rest)
    by_cases bracket : c = '['
    · subst bracket
      cases h with
      | inClass inside rest => exact .row (.ofClass inside rest)
    simp only [Scanner.regexStep, bracket, backslash, beq_iff_eq, if_false, ite_self,
      Bool.false_eq_true] at h
    cases h with
    | row rest => exact .row (.char ⟨backslash, slash, bracket⟩ solid rest)

def Scanner.closesRegex (escaped inClass : Bool) (c : Char) : Bool := !escaped && !inClass && c == '/'

/-- A body goes on by a character that ends no line and does not close it, as the rest goes on behind. -/
theorem regexRest_cons_iff : RegexRest escaped inClass (c :: cs) ↔ Text.isLineBreak c = false ∧
    Scanner.closesRegex escaped inClass c = false ∧
    RegexRest (Scanner.regexStep escaped inClass c).1 (Scanner.regexStep escaped inClass c).2 cs := by
  cases escaped with
  | true => simpa [Scanner.closesRegex, Scanner.regexStep] using regexRest_escaped_iff
  | false =>
    cases inClass with
    | true => simpa [Scanner.closesRegex] using regexRest_inClass_iff
    | false => simpa [Scanner.closesRegex] using regexRest_row_iff

/-- A body is complete outside of classes and escapes. -/
theorem regexRest_nil_iff : RegexRest escaped inClass [] ↔ escaped = false ∧ inClass = false := by
  constructor
  · intro h
    generalize whole : [] = ds at h
    cases h with
    | row => exact ⟨rfl, rfl⟩
    | inClass inside rest => simp at whole
    | escaped solid rest => cases whole
  · rintro ⟨rfl, rfl⟩
    exact .row .nil

namespace Scanner

def ClosesAt (escaped inClass : Bool) (cs body tail : List Char) : Prop :=
  cs = body ++ '/' :: tail ∧ RegexRest escaped inClass body

theorem closesAt_cons (solid : Text.isLineBreak c = false) (goes : closesRegex escaped inClass c = false) :
    ClosesAt escaped inClass (c :: cs) body tail ↔
      ∃ body', body = c :: body' ∧
        ClosesAt (regexStep escaped inClass c).1 (regexStep escaped inClass c).2 cs body' tail := by
  constructor
  · rintro ⟨whole, rest⟩
    cases body with
    | nil =>
      cases whole
      obtain ⟨rfl, rfl⟩ := regexRest_nil_iff.mp rest
      cases goes
    | cons d body =>
      cases whole
      exact ⟨body, rfl, rfl, (regexRest_cons_iff.mp rest).2.2⟩
  · rintro ⟨body, rfl, rfl, rest⟩
    exact ⟨rfl, regexRest_cons_iff.mpr ⟨solid, goes, rest⟩⟩

variable {w : Window} {k : Nat}

theorem regexEnd_go_cons (h : w.Shows k (c :: cs)) (fuel : Nat) :
    regexEnd.go w (fuel + 1) k escaped inClass =
      if Text.isLineBreak c then (k, false)
      else if closesRegex escaped inClass c then (k + c.utf8Size, true)
      else regexEnd.go w fuel (k + c.utf8Size) (regexStep escaped inClass c).1
        (regexStep escaped inClass c).2 := by
  rw [regexEnd.go, h.char?_cons]
  dsimp only
  split
  · rfl
  · cases escaped with
    | true => rfl
    | false =>
      by_cases slash : c = '/'
      · subst slash
        cases inClass <;> rfl
      · simp only [closesRegex, regexStep, Bool.false_eq_true, if_false, beq_iff_eq, Bool.and_false,
          Bool.false_and, beq_eq_false_iff_ne.mpr slash]
        split_ifs <;> rfl

theorem regexEnd_go_closed (h : w.Shows k cs) (closes : ClosesAt escaped inClass cs body tail) {fuel : Nat}
    (enough : String.utf8Len cs ≤ fuel) :
    regexEnd.go w fuel k escaped inClass = (k + String.utf8Len body + 1, true) := by
  obtain ⟨rfl, rest⟩ := closes
  induction body generalizing k escaped inClass fuel with
  | nil =>
    obtain ⟨rfl, rfl⟩ := regexRest_nil_iff.mp rest
    rw [List.nil_append, String.utf8Len_cons] at enough
    obtain ⟨fuel, rfl⟩ := Nat.exists_eq_succ_of_ne_zero (n := fuel) (by have := '/'.utf8Size_pos; omega)
    exact regexEnd_go_cons h fuel
  | cons c body ih =>
    obtain ⟨solid, goes, rest⟩ := regexRest_cons_iff.mp rest
    have := c.utf8Size_pos
    rw [List.cons_append, String.utf8Len_cons] at enough
    obtain ⟨fuel, rfl⟩ := Nat.exists_eq_succ_of_ne_zero (n := fuel) (by omega)
    rw [regexEnd_go_cons h, solid, goes, if_neg Bool.false_ne_true, if_neg Bool.false_ne_true,
      ih rest h.next (Nat.le_of_lt_succ (by omega)), String.utf8Len_cons]
    congr 1
    omega

/-- Where no slash closes the body, its reading ends with the line. -/
theorem regexEnd_go_open (h : w.Shows k cs) (never : ∀ body tail, ¬ ClosesAt escaped inClass cs body tail)
    {fuel : Nat} (enough : String.utf8Len cs ≤ fuel) :
    regexEnd.go w fuel k escaped inClass =
      (k + String.utf8Len (cs.takeWhile fun c => !Text.isLineBreak c), false) := by
  induction cs generalizing k escaped inClass fuel with
  | nil =>
    cases fuel with
    | zero => rfl
    | succ fuel =>
      rw [regexEnd.go, h.char?_nil]
      rfl
  | cons c cs ih =>
    have := c.utf8Size_pos
    rw [String.utf8Len_cons] at enough
    obtain ⟨fuel, rfl⟩ := Nat.exists_eq_succ_of_ne_zero (n := fuel) (by omega)
    rw [regexEnd_go_cons h, List.takeWhile_cons]
    cases solid : Text.isLineBreak c with
    | true => rfl
    | false =>
      have goes : closesRegex escaped inClass c = false := by
        by_contra closes
        simp only [closesRegex, Bool.not_eq_false, Bool.and_eq_true, Bool.not_eq_true', beq_iff_eq] at closes
        obtain ⟨⟨rfl, rfl⟩, rfl⟩ := closes
        exact never [] cs ⟨rfl, regexRest_nil_iff.mpr ⟨rfl, rfl⟩⟩
      have later (body tail : List Char) : ¬ ClosesAt (regexStep escaped inClass c).1
          (regexStep escaped inClass c).2 cs body tail := fun closes =>
        never (c :: body) tail ((closesAt_cons solid goes).mpr ⟨body, rfl, closes⟩)
      rw [goes, if_neg Bool.false_ne_true, if_neg Bool.false_ne_true, ih h.next later (by omega)]
      simp only [Bool.not_false, if_true, String.utf8Len_cons]
      congr 1
      omega

/-! ## The slash before it -/

/-- A mark that may be read again as the start of a regular expression. -/
def opensRegex (k : Kind) : Bool := k == .slashToken || k == .slashEqualsToken

theorem opensRegex_iff {k : Kind} : opensRegex k = true ↔ k = .slashToken ∨ k = .slashEqualsToken := by
  rw [opensRegex, Bool.or_eq_true, beq_iff_eq, beq_iff_eq]

theorem opensRegex_of_whole {k : Kind} (whole : k.splits = false) : opensRegex k = false := by
  by_contra opens
  rcases opensRegex_iff.mp (Bool.not_eq_false _ ▸ opens) with rfl | rfl <;> cases whole

/-- If the state stands on such a mark, a slash is there that begins no comment. -/
def BeginsNoComment (text : String) (s : TokenState) : Prop :=
  opensRegex s.token = true → Text.charAt? text s.tokenStart = some '/' ∧
    Text.byteIs text (s.tokenStart + 1) 0x2F = false ∧ Text.byteIs text (s.tokenStart + 1) 0x2A = false

variable {text : String} {target : ScriptTarget} {variant : LanguageVariant} {skips : Bool}
variable {s : Scanner} {l : Lexeme} {x : Session}

theorem BeginsNoComment.of_whole {s : TokenState} (whole : s.token.splits = false) : BeginsNoComment text s :=
  fun opens => absurd ((opensRegex_of_whole whole).symm.trans opens) Bool.false_ne_true

theorem marksAt_opensRegex (w : Window) (c : Char) (pos : Nat) :
    ∀ m ∈ w.marksAt c pos, opensRegex m.2 = true → c = '/' := by
  unfold marksAt
  split
  all_goals first | decide | (split <;> decide) | exact fun _ mem => nomatch mem

theorem token_opensRegex (w : Window) (pos : Nat) :
    opensRegex (w.token pos).kind = true → w.char? pos = some '/' := by
  have other {l : Lexeme} (whole : l.kind.splits = false) (opens : opensRegex l.kind = true) :
      w.char? pos = some '/' :=
    absurd ((opensRegex_of_whole whole).symm.trans opens) Bool.false_ne_true
  apply token_cases (P := fun l => opensRegex l.kind = true → w.char? pos = some '/')
  case last => exact fun _ => other rfl
  case name => exact fun c _ => other (Kind.splits_of_isPlain (nameKind_isPlain _ _))
  case digits => exact fun c _ _ => other (Kind.splits_of_isPlain (number_kind pos))
  case string => exact fun c _ _ => other rfl
  case piece => exact fun _ => other (Kind.splits_of_isPlain (template_kind w pos true))
  case escape => exact fun _ => other (Kind.splits_of_isPlain (escapedName_kind pos))
  case own => exact fun _ => other (Kind.splits_of_isPlain (privateName_kind pos))
  case stray => exact fun c _ => other rfl
  case mark =>
    intro c l found marked opens
    obtain ⟨m, mem, rfl⟩ := Option.map_eq_some_iff.mp marked
    rw [found, marksAt_opensRegex w c pos m (List.mem_of_find?_eq_some mem) opens]

theorem Ends.beginsNoComment {u : Scanner} (h : Ends text s u l) :
    BeginsNoComment text (u.land u.pos l).toTokenState := by
  rw [BeginsNoComment, land_token, land_tokenStart]
  intro opens
  rcases h.stands with trivia | ⟨nothing, rfl⟩
  · have whole := opensRegex_of_whole (Kind.splits_of_isTrivia (trivia?_kind trivia))
    exact absurd (whole.symm.trans opens) Bool.false_ne_true
  · have found := token_opensRegex _ _ opens
    obtain ⟨⟨line, block⟩, -⟩ := (solid_of_trivia?_none nothing found).imp_left (· rfl)
    have whole := h.between.isWhole
    have same : u.window.text = text := h.between.text_eq
    rw [whole.char?_eq, same] at found
    rw [whole.byte_eq, same] at line block
    refine ⟨found, ?_, ?_⟩
    · simp [Text.byteIs, line]
    · simp [Text.byteIs, block]

theorem Ready.scan_beginsNoComment (h : s.Ready text) : BeginsNoComment text s.scan.toTokenState := by
  obtain ⟨u, l, ends, same⟩ := h.scan_ends
  rw [same]
  exact ends.beginsNoComment

theorem Ready.scanAttributeValue_beginsNoComment (h : s.Ready text) :
    BeginsNoComment text s.scanAttributeValue.toTokenState := by
  rw [Scanner.scanAttributeValue]
  dsimp only
  split
  · exact .of_whole (by simp [Scanner.land]; rfl)
  · have ready : Ready text { s with fullStart := s.pos } := ⟨⟨h.text_eq, h.stop_eq⟩, h.cut⟩
    exact ready.scan_beginsNoComment

theorem scanElementContent_splits (s : Scanner) (overLines : Bool) :
    (s.scanElementContent overLines).token.splits = false := by
  rw [Scanner.scanElementContent, land_token]
  split
  · rfl
  · repeat' split
    all_goals first | rfl | exact Kind.splits_of_isPlain (elementText_go_kind _ _ _ _ _ _)

namespace Session

/-- No mark that the scanner stands on, or stood on where it is kept, begins a comment. -/
structure BeginsNoComment (text : String) (x : Session) : Prop where
  scanner : Scanner.BeginsNoComment text x.scanner.toTokenState
  kept : ∀ saved ∈ x.kept, Scanner.BeginsNoComment text saved.1

theorem BeginsNoComment.perform (h : x.BeginsNoComment text) (aligned : x.Aligned text) (r : Request) :
    (x.perform r).BeginsNoComment text := by
  have ready := aligned.scanner.ready
  have back := aligned.scanner.back
  -- What a request leaves as it is, and what it makes a mark that cannot be split.
  have whole {s : Scanner} (whole : s.token.splits = false) :
      BeginsNoComment text { x with scanner := s } := ⟨.of_whole whole, h.kept⟩
  cases r with
  | scan => exact ⟨ready.scan_beginsNoComment, h.kept⟩
  | rescanGreater =>
    have marks : ∀ m ∈ greaterMarks, m.2.splits = false := by decide
    rw [Session.perform, Scanner.rescanGreater]
    split
    · split
      · exact whole (marks _ (List.mem_of_find?_eq_some ‹_›))
      · exact h
    · exact h
  | rescanLess =>
    rw [Session.perform, Scanner.rescanLess]
    split
    · exact whole rfl
    · exact h
  | rescanSlash =>
    rw [Session.perform, Scanner.rescanSlash]
    split
    · dsimp only
      split
      · exact whole rfl
      · exact whole (by simp; rfl)
    · exact h
  | rescanTemplate report => exact whole (Kind.splits_of_isPlain (rescanTemplate_kind _ report))
  | scanElementContent overLines => exact whole (scanElementContent_splits _ overLines)
  | rescanElementContent overLines => exact whole (scanElementContent_splits _ overLines)
  | scanElementName =>
    rw [Session.perform, Scanner.scanElementName]
    split
    · exact whole (Kind.splits_of_isPlain (nameKind_isPlain _ _))
    · exact h
  | scanAttributeValue => exact ⟨ready.scanAttributeValue_beginsNoComment, h.kept⟩
  | rescanAttributeValue => exact ⟨back.scanAttributeValue_beginsNoComment, h.kept⟩
  | scanDoc =>
    rw [Session.perform, Scanner.scanDoc]
    exact whole (by rw [land_token]; exact docToken_splits _ _)
  | enterDocType => exact ⟨h.scanner, h.kept⟩
  | leaveDocType => exact ⟨h.scanner, h.kept⟩
  | moveTo pos => exact whole rfl
  | save =>
    refine ⟨h.scanner, fun saved mem => ?_⟩
    rcases List.mem_cons.mp mem with rfl | mem
    · exact h.scanner
    · exact h.kept saved mem
  | restore count =>
    rw [Session.perform]
    split
    · exact ⟨h.kept _ (List.mem_of_getElem? ‹_›), h.kept⟩
    · exact h

theorem Reached.beginsNoComment (h : Reached (atStart text target variant skips) x) :
    Session.BeginsNoComment text x := by
  induction h with
  | start => exact ⟨fun opens => (nomatch opens), fun _ mem => nomatch mem⟩
  | step before r _ ih => exact ih.perform (before.aligned (atStart_aligned ..)) r

end Session

/-! ## The whole token -/

/-- The characters from the start of the token to the end of the window. -/
def ahead (s : Scanner) : List Char := (s.window.slice s.tokenStart s.stop).toList

/-- The second scanner reads the token of the first as a regular expression of the characters. -/
structure ReadsRegex (s t : Scanner) (cs : List Char) : Prop where
  token : t.token = .regularExpressionLiteral
  start : t.tokenStart = s.tokenStart
  stop : t.pos = s.tokenStart + String.utf8Len cs
  value : t.value = String.ofList cs

theorem ahead_eq (h : s.window.Shows s.tokenStart cs) : s.ahead = cs := by
  have part : s.window.slice s.tokenStart s.stop = String.ofList cs := h.slice_stop
  rw [ahead, part, String.toList_ofList]

theorem utf8Len_slash (cs : List Char) : String.utf8Len ('/' :: cs) = String.utf8Len cs + 1 :=
  String.utf8Len_cons '/' cs

structure StandsOnSlash (s : Scanner) (cs : List Char) : Prop where
  opens : opensRegex s.token = true
  shows : s.window.Shows s.tokenStart ('/' :: cs)
  line : cs.head? ≠ some '/'
  block : cs.head? ≠ some '*'

variable {s : Scanner}

theorem StandsOnSlash.regexBody (h : s.StandsOnSlash cs) (closes : ClosesAt false false cs body tail) :
    RegexBody body := by
  obtain ⟨rfl, rest⟩ := closes
  have ⟨_, _, line, block⟩ := h
  cases rest with
  | row row =>
    cases body with
    | nil => exact absurd rfl line
    | cons c body => exact ⟨row, c, rfl, fun same => block (congrArg some same)⟩

theorem StandsOnSlash.rest (h : s.StandsOnSlash cs) : s.window.Shows (s.tokenStart + 1) cs := h.shows.next

theorem StandsOnSlash.rescanSlash_eq (h : s.StandsOnSlash cs) {k : Nat} {closed : Bool}
    (ends : regexEnd s.window (s.tokenStart + 1) = (k, closed)) {stop : Nat}
    (flags : s.window.skipChars Text.isIdentifierPart k = stop) :
    s.rescanSlash =
      let t := { s with
        pos := stop
        value := s.window.slice s.tokenStart stop
        token := .regularExpressionLiteral }
      if closed then t
      else { t with flags := t.flags ||| TokenFlags.unterminated }.report
        [⟨.unterminatedRegex, s.tokenStart, k - s.tokenStart, none⟩] := by
  subst flags
  have opens := h.opens
  rw [opensRegex] at opens
  rw [rescanSlash, if_pos opens]
  dsimp only
  rw [ends]

theorem StandsOnSlash.rescanSlash_closed (h : s.StandsOnSlash (body ++ '/' :: tail)) (row : RegexRow body) :
    s.rescanSlash.reported = s.reported ∧ s.rescanSlash.flags = s.flags ∧
      s.ReadsRegex s.rescanSlash ('/' :: (body ++ '/' :: tail.takeWhile Text.isIdentifierPart)) := by
  have rest := h.rest
  have ends : regexEnd s.window (s.tokenStart + 1) = (s.tokenStart + 1 + String.utf8Len body + 1, true) :=
    regexEnd_go_closed rest ⟨rfl, .row row⟩ (by have := rest.stop_eq; omega)
  have behind : s.window.Shows (s.tokenStart + 1 + String.utf8Len body + 1) tail := rest.append.next
  have token : s.window.Shows s.tokenStart
      ('/' :: (body ++ '/' :: tail.takeWhile Text.isIdentifierPart) ++ tail.dropWhile Text.isIdentifierPart) := by
    simpa using h.shows
  have stop : s.window.skipChars Text.isIdentifierPart (s.tokenStart + 1 + String.utf8Len body + 1) =
      s.tokenStart + String.utf8Len ('/' :: (body ++ '/' :: tail.takeWhile Text.isIdentifierPart)) := by
    rw [behind.skipChars_eq, utf8Len_slash, String.utf8Len_append, utf8Len_slash]
    omega
  rw [h.rescanSlash_eq ends stop]
  exact ⟨rfl, rfl, rfl, rfl, rfl, token.slice⟩

/-- Where no slash closes the body, the token ends with the line. -/
theorem StandsOnSlash.rescanSlash_open (h : s.StandsOnSlash cs)
    (never : ∀ body tail, ¬ ClosesAt false false cs body tail) :
    s.rescanSlash.reported =
        s.reported.push ⟨.unterminatedRegex, s.tokenStart, s.rescanSlash.pos - s.tokenStart, none⟩ ∧
      s.rescanSlash.hasFlag .unterminated = true ∧
      s.ReadsRegex s.rescanSlash ('/' :: cs.takeWhile fun c => !Text.isLineBreak c) := by
  have rest := h.rest
  have enough : String.utf8Len cs ≤ s.window.stop - (s.tokenStart + 1) := by
    have := rest.stop_eq
    omega
  have ends := regexEnd_go_open rest never enough
  have behind : s.window.Shows (s.tokenStart + 1 + String.utf8Len (cs.takeWhile fun c => !Text.isLineBreak c))
      (cs.dropWhile fun c => !Text.isLineBreak c) := by
    apply Shows.append
    rwa [List.takeWhile_append_dropWhile]
  have token : s.window.Shows s.tokenStart (('/' :: cs.takeWhile fun c => !Text.isLineBreak c) ++
      cs.dropWhile fun c => !Text.isLineBreak c) := by
    simpa using h.shows
  -- The character that ends the line is no flag.
  have noFlags : (cs.dropWhile fun c => !Text.isLineBreak c).takeWhile Text.isIdentifierPart = [] := by
    have first := List.head?_dropWhile_not (fun c => !Text.isLineBreak c) cs
    cases behind : cs.dropWhile fun c => !Text.isLineBreak c with
    | nil => rfl
    | cons c ds =>
      rw [behind] at first
      have ended : Text.isLineBreak c = true := by simpa using first
      rw [List.takeWhile_cons, Text.isIdentifierPart_of_isLineBreak ended, if_neg Bool.false_ne_true]
  have stop : s.window.skipChars Text.isIdentifierPart
      (s.tokenStart + 1 + String.utf8Len (cs.takeWhile fun c => !Text.isLineBreak c)) =
      s.tokenStart + String.utf8Len ('/' :: cs.takeWhile fun c => !Text.isLineBreak c) := by
    rw [behind.skipChars_eq, noFlags, utf8Len_slash, String.utf8Len_nil]
    omega
  rw [h.rescanSlash_eq ends stop]
  dsimp only
  rw [if_neg Bool.false_ne_true, report_reported, hasFlag, report_toTokenState]
  refine ⟨?_, ?_, ?_⟩
  · change s.reported ++ _ = _
    rw [← Array.push_eq_append]
    congr 2
    rw [utf8Len_slash]
    dsimp only
    omega
  · exact (FlagSet.has_or_flag s.flags _ 2 (by decide)).trans (Bool.or_true _)
  · constructor <;> rw [report_toTokenState]
    exact token.slice

theorem Session.Reached.standsOnSlash (h : Session.Reached (atStart text target variant skips) x)
    (opens : opensRegex x.scanner.token = true) : ∃ cs, x.scanner.StandsOnSlash cs := by
  have aligned := (h.aligned (atStart_aligned ..)).scanner
  have even := aligned.even
  have whole : x.scanner.window.IsWhole := aligned.isWhole
  obtain ⟨⟨rfl, stop⟩, lies, -⟩ := aligned
  obtain ⟨found, line, block⟩ := h.beginsNoComment.scanner opens
  obtain ⟨cs, shows⟩ := even.shows (i := x.scanner.tokenStart) lies.start_cut
    (lies.start_cut.le_size.trans stop.ge)
  have first : cs.head? = some '/' := by
    rw [← shows.char?_eq, whole.char?_eq]
    exact found
  obtain ⟨cs, rfl⟩ := List.head?_eq_some_iff.mp first
  have behind : x.scanner.window.Shows (x.scanner.tokenStart + 1) cs := shows.next
  refine ⟨cs, opens, shows, fun head => ?_, fun head => ?_⟩
  · obtain ⟨ds, rfl⟩ := List.head?_eq_some_iff.mp head
    exact Bool.false_ne_true (line.symm.trans (behind.byteIs rfl))
  · obtain ⟨ds, rfl⟩ := List.head?_eq_some_iff.mp head
    exact Bool.false_ne_true (block.symm.trans (behind.byteIs rfl))

/-- Reading a slash as the start of a regular expression finds out whether a body stands there that
a slash closes. If so nothing is told, and the token is the body between its slashes with the flags
behind it. If not, one error is told, and the token goes on to the end of the line. -/
theorem rescanSlash_delimits (text : String) (target : ScriptTarget) (variant : LanguageVariant)
    (skips : Bool) {x : Session} (reached : Session.Reached (atStart text target variant skips) x)
    (opens : x.scanner.token = .slashToken ∨ x.scanner.token = .slashEqualsToken) :
    let s := x.scanner
    let t := s.rescanSlash
    let Closes (body tail : List Char) := s.ahead = '/' :: (body ++ '/' :: tail) ∧ RegexBody body
    (t.reported = s.reported ↔ ∃ body tail, Closes body tail) ∧
      (∀ body tail, Closes body tail → t.flags = s.flags ∧
        s.ReadsRegex t ('/' :: (body ++ '/' :: tail.takeWhile Text.isIdentifierPart))) ∧
      ((¬ ∃ body tail, Closes body tail) →
        t.reported = s.reported.push ⟨.unterminatedRegex, s.tokenStart, t.pos - s.tokenStart, none⟩ ∧
        t.hasFlag .unterminated = true ∧
        s.ReadsRegex t (s.ahead.takeWhile fun c => !Text.isLineBreak c)) := by
  intro s t Closes
  obtain ⟨cs, stands⟩ := reached.standsOnSlash (opensRegex_iff.mpr opens)
  have ahead : s.ahead = '/' :: cs := ahead_eq stands.shows
  have closed {body tail : List Char} (closes : Closes body tail) :
      s.StandsOnSlash (body ++ '/' :: tail) ∧ RegexRow body := by
    obtain ⟨same, whole⟩ := closes
    cases ahead.symm.trans same
    exact ⟨stands, whole.row⟩
  have never (none : ¬ ∃ body tail, Closes body tail) (body tail : List Char) :
      ¬ ClosesAt false false cs body tail := fun closes =>
    none ⟨body, tail, ahead.trans (congrArg _ closes.1), stands.regexBody closes⟩
  have reads := fun none => stands.rescanSlash_open (never none)
  refine ⟨⟨fun same => ?_, ?_⟩, ?_, fun none => ?_⟩
  · by_contra none
    obtain ⟨told, -⟩ := reads none
    exact absurd (told.symm.trans same) Array.push_ne_self
  · rintro ⟨body, tail, closes⟩
    obtain ⟨stands, row⟩ := closed closes
    exact (stands.rescanSlash_closed row).1
  · intro body tail closes
    obtain ⟨stands, row⟩ := closed closes
    exact (stands.rescanSlash_closed row).2
  · rw [ahead]
    exact reads none

/-- The token may have taken in the first character of the body, and a slash in a class does not close
it. -/
theorem slash_in_class_delimited :
    let s := atStart "/=[/]/g" .esNext .standard true
    Session.Reached s ⟨s.scan, []⟩ ∧ s.scan.token = .slashEqualsToken ∧
      s.scan.ahead = '/' :: (['=', '[', '/', ']'] ++ '/' :: ['g']) ∧ RegexBody ['=', '[', '/', ']'] ∧
      s.scan.rescanSlash.reported = s.scan.reported ∧
      s.scan.ReadsRegex s.scan.rescanSlash ['/', '=', '[', '/', ']', '/', 'g'] := by
  intro s
  have reached : Session.Reached s ⟨s.scan, []⟩ := Session.Reached.start.step .scan trivial
  have slash : s.scan.token = .slashEqualsToken := by decide +kernel
  have ahead : s.scan.ahead = '/' :: (['=', '[', '/', ']'] ++ '/' :: ['g']) := by decide +kernel
  have body : RegexBody ['=', '[', '/', ']'] := by
    refine ⟨.char (by decide) (by decide) (.ofClass (.char (by decide) (by decide) .nil) .nil), '=', rfl, ?_⟩
    decide
  obtain ⟨told, reads, -⟩ := rescanSlash_delimits "/=[/]/g" .esNext .standard true reached (.inr slash)
  exact ⟨reached, slash, ahead, body, told.mpr ⟨_, _, ahead, body⟩, (reads _ _ ⟨ahead, body⟩).2⟩

end Scanner

end ScriptFrontend
