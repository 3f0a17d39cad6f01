import ScriptFrontend.Proofs.Token.Reach
import ScriptFrontend.Proofs.Token.Shown
import ScriptFrontend.Token.Scanner
import Mathlib.Data.List.TakeWhile

/-!
# The tokens of a documentation comment

A token of a documentation comment is told by the characters that the window shows: some blanks, a line
break, an asterisk, or a piece of a line. No token goes over a line break, so the characters of a line
are read as tokens that make up just these characters.
-/

namespace ScriptFrontend

open Token

namespace Text

def isAsciiBlank (c : Char) : Bool := c == '\t' || c == '\x0b' || c == '\x0c' || c == ' '

/-- A carriage return or a line feed, the only line breaks of a documentation comment. -/
def isReturn (c : Char) : Bool := c == '\r' || c == '\n'

theorem isBlank_of_isAsciiBlank {c : Char} (h : isAsciiBlank c = true) : isBlank c = true := by
  simp only [isAsciiBlank, Bool.or_eq_true, beq_iff_eq] at h
  rcases h with ((rfl | rfl) | rfl) | rfl <;> decide

theorem utf8Size_of_isAsciiBlank {c : Char} (h : isAsciiBlank c = true) : c.utf8Size = 1 := by
  simp only [isAsciiBlank, Bool.or_eq_true, beq_iff_eq] at h
  rcases h with ((rfl | rfl) | rfl) | rfl <;> decide

theorem isBlank_of_isReturn {c : Char} (h : isReturn c = true) : isBlank c = false := by
  simp only [isReturn, Bool.or_eq_true, beq_iff_eq] at h
  rcases h with rfl | rfl <;> decide

theorem isIdentifierPart_of_isReturn {c : Char} (h : isReturn c = true) : isIdentifierPart c = false := by
  simp only [isReturn, Bool.or_eq_true, beq_iff_eq] at h
  rcases h with rfl | rfl <;> decide +kernel

theorem utf8Len_asciiBlanks {cs : List Char} (blank : ∀ c ∈ cs, isAsciiBlank c = true) :
    String.utf8Len cs = cs.length := by
  induction cs with
  | nil => rfl
  | cons c cs ih =>
    rw [List.forall_mem_cons] at blank
    rw [String.utf8Len_cons, ih blank.2, utf8Size_of_isAsciiBlank blank.1, List.length_cons]

end Text

namespace Kind

/-- The kind of a token that may stand in a line without a tag. -/
def isPiece (k : Kind) : Bool := k != .endOfFileToken && k != .atToken && k != .newLineTrivia

def beginsText (k : Kind) : Bool := k.isPiece && k != .whitespaceTrivia && k != .asteriskToken

theorem isPiece_of_beginsText {k : Kind} (h : k.beginsText = true) : k.isPiece = true := by
  simp only [beginsText, Bool.and_eq_true] at h
  exact h.1.1

end Kind

open Text (isAsciiBlank isReturn)

theorem Token.Window.nameKind_beginsText (word : String) (flags : TokenFlags) :
    (nameKind word flags).beginsText = true := by
  have words : ∀ w ∈ Kind.words, w.2.beginsText = true := by decide +kernel
  obtain same | ⟨w, mem, same⟩ := nameKind_eq_or_mem word flags
  · rw [same]
    rfl
  · rw [same]
    exact words w mem

/-- What is taken of two lists, if the second one begins with nothing to take. -/
theorem List.takeWhile_append_of_head {α : Type} {p : α → Bool} {rest : List α} (front : List α)
    (ends : rest.head?.all (!p ·) = true) : (front ++ rest).takeWhile p = front.takeWhile p := by
  induction front with
  | nil =>
    cases rest with
    | nil => rfl
    | cons x rest => simp_all
  | cons x front ih => rw [List.cons_append, List.takeWhile_cons, List.takeWhile_cons, ih]

namespace Scanner

variable {w : Window} {i : Nat} {c : Char} {cs front rest : List Char}

theorem docToken_end (h : w.Shows i []) : docToken w i = ⟨{ stop := i }, .endOfFileToken⟩ := by
  rw [docToken, h.char?_nil]

theorem docToken_blanks (h : w.Shows i (front ++ rest)) (some_blank : front ≠ [])
    (blank : ∀ c ∈ front, isAsciiBlank c = true) (ends : rest.head?.all (!Text.isBlank ·) = true) :
    docToken w i = ⟨{ stop := i + String.utf8Len front }, .whitespaceTrivia⟩ := by
  cases front with
  | nil => exact absurd rfl some_blank
  | cons c cs =>
    rw [List.forall_mem_cons] at blank
    have first := blank.1
    have all : ∀ c ∈ cs, Text.isBlank c = true := fun c mem => Text.isBlank_of_isAsciiBlank (blank.2 c mem)
    have taken : (cs ++ rest).takeWhile Text.isBlank = cs := by
      rw [List.takeWhile_append_of_head cs ends]
      exact List.takeWhile_eq_self_iff.mpr all
    unfold isAsciiBlank at first
    rw [List.cons_append] at h
    rw [docToken, h.char?_cons]
    dsimp only
    rw [if_pos first, h.next.skipChars_eq, taken, String.utf8Len_cons, Nat.add_assoc, Nat.add_comm c.utf8Size]

theorem docToken_asterisk (h : w.Shows i ('*' :: rest)) :
    docToken w i = ⟨{ stop := i + 1 }, .asteriskToken⟩ := by
  rw [docToken, h.char?_cons]
  rfl

/-- The characters are a line break before other characters: a carriage return with the line feed behind
it is one. -/
def IsBreak (front rest : List Char) : Prop :=
  front = ['\r', '\n'] ∨ front = ['\n'] ∨ front = ['\r'] ∧ rest.head? ≠ some '\n'

theorem docToken_break (h : w.Shows i (front ++ rest)) (isBreak : IsBreak front rest) :
    (docToken w i).stop = i + String.utf8Len front ∧ (docToken w i).kind = .newLineTrivia := by
  have one : ('\r' : Char).utf8Size = 1 := rfl
  rcases isBreak with rfl | rfl | ⟨rfl, no_feed⟩
  · have feed : w.byte (i + 1) = 0x0A := h.next.byte_one rfl
    rw [docToken, h.char?_cons]
    simp [one, feed]
    rfl
  · rw [docToken, h.char?_cons]
    exact ⟨rfl, rfl⟩
  · have next : w.Shows (i + 1) rest := h.next
    have no_feed : w.byte (i + 1) ≠ 0x0A := by
      cases rest with
      | nil =>
        rw [next.byte_nil]
        decide
      | cons d rest => exact next.byte_ne (k := 0) (d := '\n') rfl (by simpa using no_feed) d.utf8Size_pos
    rw [docToken, h.char?_cons]
    simp [one, no_feed]

theorem docMark?_beginsText {kind : Kind} (mark : docMark? c = some kind) (no_tag : c ≠ '@')
    (no_asterisk : c ≠ '*') : kind.beginsText = true := by
  unfold docMark? at mark
  split at mark
  case h_1 => exact absurd rfl no_tag
  case h_2 => exact absurd rfl no_asterisk
  case h_16 => exact nomatch mark
  all_goals
    cases mark
    rfl

theorem docMark?_isPiece {kind : Kind} (mark : docMark? c = some kind) (no_tag : c ≠ '@') :
    kind.isPiece = true := by
  by_cases asterisk : c = '*'
  · subst asterisk
    cases mark
    rfl
  · exact Kind.isPiece_of_beginsText (docMark?_beginsText mark no_tag asterisk)

/-- A token that begins in a line without a tag is some of the characters of the line. -/
theorem docToken_piece (h : w.Shows i (c :: cs ++ rest)) (line : ∀ d ∈ c :: cs, isReturn d = false)
    (no_tag : '@' ∉ c :: cs) (ends : rest.head?.all isReturn = true) :
    ∃ front back, c :: cs = front ++ back ∧ front ≠ [] ∧
      (docToken w i).stop = i + String.utf8Len front ∧ (docToken w i).kind.isPiece = true ∧
      (isAsciiBlank c = false → c ≠ '*' → (docToken w i).kind.beginsText = true) := by
  have next : w.Shows (i + c.utf8Size) (cs ++ rest) := h.next
  -- Characters that pass a test which no line break passes.
  have passed (p : Char → Bool) (fails : ∀ d, isReturn d = true → p d = false) :
      ∃ front back, c :: cs = front ++ back ∧ front ≠ [] ∧
        w.skipChars p (i + c.utf8Size) = i + String.utf8Len front := by
    refine ⟨c :: cs.takeWhile p, cs.dropWhile p, ?_, List.cons_ne_nil _ _, ?_⟩
    · rw [List.cons_append, List.takeWhile_append_dropWhile]
    · have stops : rest.head?.all (!p ·) = true := by
        cases rest with
        | nil => rfl
        | cons d rest => simp_all
      rw [next.skipChars_eq, List.takeWhile_append_of_head cs stops, String.utf8Len_cons, Nat.add_assoc,
        Nat.add_comm c.utf8Size]
  have alone : ∃ front back, c :: cs = front ++ back ∧ front ≠ [] ∧
      i + c.utf8Size = i + String.utf8Len front :=
    ⟨[c], cs, rfl, List.cons_ne_nil _ _, by rw [String.utf8Len_cons, String.utf8Len_nil, Nat.zero_add]⟩
  rw [List.forall_mem_cons] at line
  have first := line.1
  unfold isReturn at first
  rw [List.cons_append] at h
  rw [docToken, h.char?_cons]
  dsimp only
  by_cases blank : isAsciiBlank c = true
  · obtain ⟨front, back, split, some_char, stop⟩ := passed Text.isBlank fun d => Text.isBlank_of_isReturn
    have blank' := blank
    unfold isAsciiBlank at blank'
    rw [if_pos blank']
    exact ⟨front, back, split, some_char, stop, rfl, fun no => absurd blank (by rw [no]; decide)⟩
  have blank' := blank
  unfold isAsciiBlank at blank'
  rw [if_neg blank', if_neg (by rw [first]; decide)]
  cases mark : docMark? c with
  | some kind =>
    obtain ⟨front, back, split, some_char, stop⟩ := alone
    have known : c ≠ '@' := fun same => no_tag (same ▸ List.mem_cons_self)
    exact ⟨front, back, split, some_char, stop, docMark?_isPiece mark known,
      fun _ => docMark?_beginsText mark known⟩
  | none =>
    dsimp only
    split
    · have fails (d : Char) (h : isReturn d = true) : (w.isPart d || d == '-') = false := by
        simp only [Window.isPart, Text.isIdentifierPart_of_isReturn h, Bool.false_and, Bool.false_or]
        simp only [isReturn, Bool.or_eq_true, beq_iff_eq] at h
        rcases h with rfl | rfl <;> rfl
      obtain ⟨front, back, split, some_char, stop⟩ := passed _ fails
      have begins := Window.nameKind_beginsText
        (w.slice i (w.skipChars (fun d => w.isPart d || d == '-') (i + c.utf8Size))) .empty
      exact ⟨front, back, split, some_char, stop, Kind.isPiece_of_beginsText begins, fun _ _ => begins⟩
    · obtain ⟨front, back, split, some_char, stop⟩ := alone
      exact ⟨front, back, split, some_char, stop, rfl, fun _ _ => rfl⟩

end Scanner

end ScriptFrontend
