import ScriptFrontend.Grammar.DocToken
import ScriptFrontend.Proofs.Doc.Token
import ScriptFrontend.Proofs.Text.Boundary

/-!
# The lines of a documentation comment

A line is blanks, perhaps an asterisk with blanks behind it, and a text. The tokens of a line put its text
behind what was read so far; of the blanks they keep those that lie beyond the margin, which is the column
of the first text.

A comment whose text begins below its opening is read line by line. Each line is put behind the one before
it with the line break that parts them, and the first text sets the margin for the lines that follow.
-/

namespace ScriptFrontend

open Token
open Text (isAsciiBlank isReturn)

structure DocLine where
  indent : List Char
  starred : Bool
  blanks : List Char
  text : List Char
deriving DecidableEq, Repr

namespace DocLine

def ofChars (cs : List Char) : DocLine :=
  let rest := cs.dropWhile isAsciiBlank
  match rest with
  | '*' :: behind => ⟨cs.takeWhile isAsciiBlank, true, behind.takeWhile isAsciiBlank, behind.dropWhile isAsciiBlank⟩
  | _ => ⟨cs.takeWhile isAsciiBlank, false, [], rest⟩

def chars (l : DocLine) : List Char := l.indent ++ ((if l.starred then ['*'] else []) ++ (l.blanks ++ l.text))

def column (l : DocLine) : Nat := l.indent.length + (if l.starred then 1 else 0) + l.blanks.length

/-- The blanks that begin at a column and lie beyond the margin. -/
def beyond (margin column : Nat) (blanks : List Char) : List Char := blanks.drop (margin - column)

/-- What a comment keeps of a line. Before the first text there is no margin, and no blanks are kept. -/
def kept (l : DocLine) : Option Nat → List Char
  | none => l.text
  | some margin => beyond margin 0 l.indent ++ (beyond margin (l.indent.length + 1) l.blanks ++ l.text)

def marginAfter (l : DocLine) (margin : Option Nat) : Option Nat :=
  if l.text.isEmpty then margin else some (margin.getD l.column)

/-- A line whose text begins with neither a blank nor an asterisk. -/
structure IsPlain (l : DocLine) : Prop where
  indent : ∀ c ∈ l.indent, isAsciiBlank c = true
  blanks : ∀ c ∈ l.blanks, isAsciiBlank c = true
  unstarred : l.starred = false → l.blanks = []
  begins : l.text.head?.all (fun c => !Text.isBlank c && c != '*') = true
  line : ∀ c ∈ l.text, isReturn c = false
  no_tag : '@' ∉ l.text

end DocLine

namespace DocText

def chars (d : DocText) : List Char := d.parts.reverse.flatMap String.toList

def InLine (d : DocText) : Prop := d.state = .inText ∨ d.state = .inBackticks

variable {d : DocText} {kind : Kind}

theorem chars_push (d : DocText) (text : String) : (d.push text).chars = d.chars ++ text.toList := by
  simp [chars, push]

theorem chars_pushRaw (d : DocText) (text : String) : (d.pushRaw text).chars = d.chars ++ text.toList := by
  simp [chars, pushRaw]

/-- How reading a text moves what was read on. -/
structure Grows (d : DocText) (cs : List Char) (d' : DocText) : Prop where
  chars : d'.chars = d.chars ++ cs
  margin : d'.margin = some (d.margin.getD d.indent)
  torn : d'.torn = d.torn
  inLine : d'.InLine

theorem InLine.step (h : d.InLine) (piece : kind.isPiece = true) (text : String) :
    d.Grows text.toList (d.step kind text) := by
  simp only [Kind.isPiece, Bool.and_eq_true, bne_iff_ne] at piece
  have saved : (d.state == .inText || d.state == .inBackticks) = true := by
    rcases h with h | h <;> rw [h] <;> rfl
  have no_start : (kind == .asteriskToken && d.state == .lineStart) = false := by
    rcases h with h | h <;> rw [h] <;> exact Bool.and_false _
  have pushed : ∃ state, (state = .inText ∨ state = .inBackticks) ∧
      d.step kind text = { d.push text with state := state } := by
    unfold DocText.step
    split
    case h_1 => exact absurd rfl piece.2
    case h_2 =>
      rw [if_pos saved]
      exact ⟨d.state, h, rfl⟩
    case h_3 => exact ⟨_, by split <;> simp, rfl⟩
    case h_4 =>
      rw [if_neg (by rw [no_start]; decide)]
      exact ⟨_, by split <;> simp, rfl⟩
  obtain ⟨state, inLine, same⟩ := pushed
  rw [same]
  exact ⟨chars_push d text, rfl, rfl, inLine⟩

/-- A text begins with each token that is neither blank nor an asterisk. -/
theorem step_begins (begins : kind.beginsText = true) (text : String) : d.Grows text.toList (d.step kind text) := by
  simp only [Kind.beginsText, Kind.isPiece, Bool.and_eq_true, bne_iff_ne] at begins
  have pushed : ∃ state, (state = .inText ∨ state = .inBackticks) ∧
      d.step kind text = { d.push text with state := state } := by
    unfold DocText.step
    split
    case h_1 => exact absurd rfl begins.1.1.2
    case h_2 => exact absurd rfl begins.1.2
    case h_3 => exact ⟨_, by split <;> simp, rfl⟩
    case h_4 =>
      rw [if_neg (by simp [begins.2])]
      exact ⟨_, by split <;> simp, rfl⟩
  obtain ⟨state, inLine, same⟩ := pushed
  rw [same]
  exact ⟨chars_push d text, rfl, rfl, inLine⟩

def AtStart (d : DocText) : Prop := d.state = .lineStart ∨ d.state = .afterAsterisk

theorem AtStart.step_blanks (h : d.AtStart) {blanks : List Char}
    (blank : ∀ c ∈ blanks, isAsciiBlank c = true) :
    let d' := d.step .whitespaceTrivia (.ofList blanks)
    d'.chars = d.chars ++ d.margin.elim [] (DocLine.beyond · d.indent blanks) ∧ d'.margin = d.margin ∧
      d'.indent = d.indent + blanks.length ∧ d'.torn = d.torn ∧ d'.state = d.state := by
  intro d'
  have size : (String.ofList blanks).utf8ByteSize = blanks.length := by
    rw [String.utf8ByteSize_ofList, Text.utf8Len_asciiBlanks blank]
  have pushed : d' = d.pushBlanks (.ofList blanks) := by
    show d.step .whitespaceTrivia _ = _
    unfold DocText.step
    rcases h with h | h <;> rw [h] <;> rfl
  rw [pushed]
  cases found : d.cut? (.ofList blanks) with
  | none =>
    have pushed : d.pushBlanks (.ofList blanks) = { d with indent := d.indent + blanks.length } := by
      rw [pushBlanks, found, size]
    have none_left : d.margin.elim [] (DocLine.beyond · d.indent blanks) = [] := by
      unfold cut? at found
      cases set : d.margin with
      | none => rfl
      | some margin =>
        rw [set] at found
        simp only [size, gt_iff_lt, ite_eq_right_iff, reduceCtorEq, imp_false, not_lt] at found
        exact List.drop_eq_nil_of_le (by omega)
    rw [pushed, none_left, List.append_nil]
    exact ⟨rfl, rfl, rfl, rfl, rfl⟩
  | some cut =>
    have bounded : cut ≤ blanks.length ∧
        d.margin.elim [] (DocLine.beyond · d.indent blanks) = blanks.drop cut := by
      unfold cut? at found
      cases set : d.margin with
      | none => simp [set] at found
      | some margin =>
        rw [set] at found
        simp only [size, gt_iff_lt, Option.ite_none_right_eq_some, Option.some.injEq] at found
        obtain ⟨crosses, rfl⟩ := found
        refine ⟨Nat.min_le_right _ _, congrArg (List.drop · blanks) ?_⟩
        omega
    have taken : String.utf8Len (blanks.take cut) = cut := by
      rw [Text.utf8Len_asciiBlanks fun c mem => blank c (List.mem_of_mem_take mem), List.length_take,
        Nat.min_eq_left bounded.1]
    have split : (String.ofList blanks).toList = blanks.take cut ++ (blanks.drop cut ++ []) := by
      rw [String.toList_ofList, List.append_nil, List.take_append_drop]
    have kept : Text.dropTo (.ofList blanks) cut = .ofList (blanks.drop cut) := by
      have part := Text.slice_of_split split
      rw [List.take_append_drop, Text.utf8Len_asciiBlanks blank, taken] at part
      rw [Text.dropTo, size, part]
    have whole : Text.isBoundary (.ofList blanks) cut = true := by
      rw [Text.isBoundary_iff, ← taken]
      exact Text.boundary_of_split split
    have pushed : d.pushBlanks (.ofList blanks) = { d with
        indent := d.indent + blanks.length, parts := .ofList (blanks.drop cut) :: d.parts } := by
      rw [pushBlanks, found, size]
      simp [kept, whole]
    rw [pushed, bounded.2]
    exact ⟨by simp [chars], rfl, rfl, rfl, rfl⟩

/-- The tokens between two offsets of a window make one text into another. -/
inductive Turns (w : Window) : Nat → DocText → Nat → DocText → Prop where
  | refl {i : Nat} {d : DocText} : Turns w i d i d
  | step {i j : Nat} {d d' : DocText} (goes_on : (Scanner.docToken w i).kind ≠ .endOfFileToken)
      (no_tag : (Scanner.docToken w i).kind ≠ .atToken) (moves : i < (Scanner.docToken w i).stop)
      (rest : Turns w (Scanner.docToken w i).stop
        (d.step (Scanner.docToken w i).kind (w.slice i (Scanner.docToken w i).stop)) j d') :
      Turns w i d j d'

variable {w : Window} {i j k : Nat} {d' d'' : DocText} {cs front rest : List Char}

theorem Turns.trans (first : Turns w i d j d') (rest : Turns w j d' k d'') : Turns w i d k d'' := by
  induction first with
  | refl => exact rest
  | step goes_on no_tag moves _ ih => exact .step goes_on no_tag moves (ih rest)

theorem Turns.token (h : w.Shows i (front ++ rest)) (some_char : front ≠ [])
    (stop : (Scanner.docToken w i).stop = i + String.utf8Len front)
    (goes_on : (Scanner.docToken w i).kind ≠ .endOfFileToken)
    (no_tag : (Scanner.docToken w i).kind ≠ .atToken) :
    Turns w i d (i + String.utf8Len front) (d.step (Scanner.docToken w i).kind (.ofList front)) := by
  have wide : 0 < String.utf8Len front := Nat.pos_of_ne_zero fun none => some_char (String.utf8Len_eq_zero.mp none)
  refine .step goes_on no_tag (by omega) ?_
  rw [stop, h.slice]
  exact .refl

theorem InLine.turns (inLine : d.InLine) (set : d.margin.isSome = true) (h : w.Shows i (cs ++ rest))
    (line : ∀ c ∈ cs, isReturn c = false) (no_tag : '@' ∉ cs) (ends : rest.head?.all isReturn = true) :
    ∃ d', Turns w i d (i + String.utf8Len cs) d' ∧ d'.chars = d.chars ++ cs ∧ d'.margin = d.margin ∧
      d'.torn = d.torn := by
  induction hn : cs.length using Nat.strong_induction_on generalizing cs i d with
  | _ n ih =>
    subst hn
    cases cs with
    | nil => exact ⟨d, .refl, (List.append_nil _).symm, rfl, rfl⟩
    | cons c cs =>
      obtain ⟨front, back, split, some_char, stop, piece, -⟩ := Scanner.docToken_piece h line no_tag ends
      rw [split] at h line no_tag ih ⊢
      rw [List.append_assoc] at h
      have grows := inLine.step piece (.ofList front)
      rw [String.toList_ofList] at grows
      simp only [Kind.isPiece, Bool.and_eq_true, bne_iff_ne] at piece
      have shorter : back.length < (front ++ back).length := by
        have := List.length_pos_iff.mpr some_char
        rw [List.length_append]
        omega
      obtain ⟨d', turns, chars, margin, torn⟩ := ih _ shorter grows.inLine (by rw [grows.margin]; rfl)
        h.append (fun c mem => line c (List.mem_append_right _ mem))
        (fun mem => no_tag (List.mem_append_right _ mem)) rfl
      refine ⟨d', ?_, ?_, ?_, torn.trans grows.torn⟩
      · rw [String.utf8Len_append, ← Nat.add_assoc]
        exact (Turns.token h some_char stop piece.1.1 piece.1.2).trans turns
      · rw [chars, grows.chars, List.append_assoc]
      · rw [margin, grows.margin]
        obtain ⟨m, set⟩ := Option.isSome_iff_exists.mp set
        rw [set]
        rfl

theorem AtStart.turns_blanks (start : d.AtStart) {blanks : List Char} (h : w.Shows i (blanks ++ rest))
    (blank : ∀ c ∈ blanks, isAsciiBlank c = true) (ends : rest.head?.all (!Text.isBlank ·) = true) :
    ∃ d', Turns w i d (i + String.utf8Len blanks) d' ∧
      d'.chars = d.chars ++ d.margin.elim [] (DocLine.beyond · d.indent blanks) ∧ d'.margin = d.margin ∧
      d'.indent = d.indent + blanks.length ∧ d'.torn = d.torn ∧ d'.state = d.state := by
  by_cases some_blank : blanks = []
  · subst some_blank
    refine ⟨d, .refl, ?_, rfl, rfl, rfl, rfl⟩
    cases d.margin <;> simp [DocLine.beyond]
  · have token := Scanner.docToken_blanks h some_blank blank ends
    have turns := Turns.token (d := d) h some_blank (by rw [token]) (by simp [token]) (by simp [token])
    rw [token] at turns
    exact ⟨_, turns, start.step_blanks blank⟩

theorem turns_text (h : w.Shows i (cs ++ rest))
    (begins : cs.head?.all (fun c => !Text.isBlank c && c != '*') = true)
    (line : ∀ c ∈ cs, isReturn c = false) (no_tag : '@' ∉ cs) (ends : rest.head?.all isReturn = true) :
    ∃ d', Turns w i d (i + String.utf8Len cs) d' ∧ d'.chars = d.chars ++ cs ∧
      d'.margin = (if cs.isEmpty then d.margin else some (d.margin.getD d.indent)) ∧ d'.torn = d.torn := by
  cases cs with
  | nil => exact ⟨d, .refl, (List.append_nil _).symm, rfl, rfl⟩
  | cons c cs =>
    simp only [List.head?_cons, Option.all_some, Bool.and_eq_true, Bool.not_eq_true', bne_iff_ne] at begins
    have no_blank : isAsciiBlank c = false := by
      by_contra blank
      exact absurd (Text.isBlank_of_isAsciiBlank (Bool.not_eq_false _ ▸ blank)) (by simp [begins.1])
    obtain ⟨front, back, split, some_char, stop, piece, begin⟩ := Scanner.docToken_piece h line no_tag ends
    have grows := step_begins (d := d) (begin no_blank begins.2) (.ofList front)
    rw [split] at h line no_tag
    rw [List.append_assoc] at h
    rw [String.toList_ofList] at grows
    simp only [Kind.isPiece, Bool.and_eq_true, bne_iff_ne] at piece
    obtain ⟨d', turns, chars, margin, torn⟩ := grows.inLine.turns (by rw [grows.margin]; rfl)
      h.append (fun c mem => line c (List.mem_append_right _ mem))
      (fun mem => no_tag (List.mem_append_right _ mem)) ends
    refine ⟨d', ?_, ?_, margin.trans grows.margin, torn.trans grows.torn⟩
    · rw [split, String.utf8Len_append, ← Nat.add_assoc]
      exact (Turns.token h some_char stop piece.1.1 piece.1.2).trans turns
    · rw [chars, grows.chars, split, List.append_assoc]

theorem turns_asterisk (starred : Bool) (start : d.state = .lineStart)
    (h : w.Shows i ((if starred then ['*'] else []) ++ rest)) :
    ∃ d', Turns w i d (i + String.utf8Len (if starred then ['*'] else [])) d' ∧ d'.AtStart ∧
      d'.chars = d.chars ∧ d'.margin = d.margin ∧
      d'.indent = d.indent + (if starred then 1 else 0) ∧ d'.torn = d.torn := by
  cases starred with
  | false => exact ⟨d, .refl, .inl start, rfl, rfl, rfl, rfl⟩
  | true =>
    have token := Scanner.docToken_asterisk h
    have shown : w.Shows i (['*'] ++ rest) := h
    have turns := Turns.token (d := d) shown (List.cons_ne_nil _ _) (by rw [token]; rfl) (by simp [token])
      (by simp [token])
    have step : d.step .asteriskToken (.ofList ['*']) =
        { d with state := .afterAsterisk, indent := d.indent + 1 } := by
      unfold DocText.step
      dsimp only
      rw [start]
      rfl
    rw [token, step] at turns
    exact ⟨_, turns, .inr rfl, rfl, rfl, rfl, rfl⟩

theorem turns_line {l : DocLine} (plain : l.IsPlain) (start : d.state = .lineStart) (indent : d.indent = 0)
    (h : w.Shows i (l.chars ++ rest)) (ends : rest.head?.all isReturn = true) :
    ∃ d', Turns w i d (i + String.utf8Len l.chars) d' ∧ d'.chars = d.chars ++ l.kept d.margin ∧
      d'.margin = l.marginAfter d.margin ∧ d'.torn = d.torn := by
  have no_blank : (l.text ++ rest).head?.all (!Text.isBlank ·) = true := by
    have begins := plain.begins
    cases text : l.text with
    | nil =>
      cases rest with
      | nil => rfl
      | cons c rest => exact (Bool.not_eq_true' _).mpr (Text.isBlank_of_isReturn ends)
    | cons c cs =>
      rw [text] at begins
      exact (Bool.and_eq_true_iff.mp begins).1
  have no_blank' : ((if l.starred then ['*'] else []) ++ (l.blanks ++ l.text) ++ rest).head?.all
      (!Text.isBlank ·) = true := by
    cases starred : l.starred with
    | true => rfl
    | false =>
      rw [plain.unstarred starred]
      exact no_blank
  unfold DocLine.chars at h ⊢
  rw [List.append_assoc] at h
  obtain ⟨d₁, turns₁, chars₁, margin₁, indent₁, torn₁, state₁⟩ :=
    AtStart.turns_blanks (.inl start) h plain.indent no_blank'
  replace h := h.append
  rw [List.append_assoc] at h
  obtain ⟨d₂, turns₂, start₂, chars₂, margin₂, indent₂, torn₂⟩ :=
    turns_asterisk l.starred (state₁.trans start) h
  replace h := h.append
  rw [List.append_assoc] at h
  obtain ⟨d₃, turns₃, chars₃, margin₃, indent₃, torn₃, -⟩ := start₂.turns_blanks h plain.blanks no_blank
  obtain ⟨d₄, turns₄, chars₄, margin₄, torn₄⟩ :=
    turns_text (d := d₃) h.append plain.begins plain.line plain.no_tag ends
  have margin : d₃.margin = d.margin := margin₃.trans (margin₂.trans margin₁)
  have column : d₃.indent = l.column := by
    rw [indent₃, indent₂, indent₁, indent, Nat.zero_add]
    rfl
  refine ⟨d₄, ?_, ?_, ?_, torn₄.trans (torn₃.trans (torn₂.trans torn₁))⟩
  · have turns := turns₁.trans (turns₂.trans (turns₃.trans turns₄))
    simpa only [String.utf8Len_append, Nat.add_assoc] using turns
  · rw [chars₄, chars₃, chars₂, chars₁, margin₂, margin₁, indent₂, indent₁, indent]
    cases set : d.margin with
    | none => simp [DocLine.kept]
    | some margin =>
      cases starred : l.starred with
      | false => simp [DocLine.kept, DocLine.beyond, plain.unstarred starred]
      | true => simp [DocLine.kept]
  · rw [margin₄, margin, column]
    rfl

end DocText

/-! ## Lines one below the other -/

namespace DocLine

def split : List Char → List Char × List (List Char × List Char)
  | '\r' :: '\n' :: cs => ([], (['\r', '\n'], (split cs).1) :: (split cs).2)
  | c :: cs =>
    if isReturn c then ([], ([c], (split cs).1) :: (split cs).2) else (c :: (split cs).1, (split cs).2)
  | [] => ([], [])

def keptFrom : Option Nat → List (List Char × List Char) → List Char
  | _, [] => []
  | margin, (lineBreak, cs) :: rest =>
    let l := ofChars cs
    lineBreak ++ (l.kept margin ++ keptFrom (l.marginAfter margin) rest)

/-- What a comment keeps of its content: all behind its first line and the line break there. -/
def description (content : List Char) : List Char :=
  match (split content).2 with
  | [] => []
  | (_, cs) :: rest =>
    let l := ofChars cs
    l.kept none ++ keptFrom (l.marginAfter none) rest

/-- The content of a comment without tags whose first line is blank, and none of whose texts begins with a
blank or an asterisk. -/
structure IsDescription (content : List Char) : Prop where
  no_tag : '@' ∉ content
  opens : ∀ c ∈ (split content).1, isAsciiBlank c = true
  broken : (split content).2 ≠ []
  begins : ∀ l ∈ (split content).2, (ofChars l.2).text.head?.all (fun c => !Text.isBlank c && c != '*') = true

inductive Lines : List Char → List Char → List (List Char × List Char) → Prop where
  | last {line : List Char} (whole : ∀ c ∈ line, isReturn c = false) : Lines line line []
  | more {line lineBreak rest next : List Char} {others : List (List Char × List Char)}
      (whole : ∀ c ∈ line, isReturn c = false) (isBreak : Scanner.IsBreak lineBreak rest)
      (below : Lines rest next others) :
      Lines (line ++ (lineBreak ++ rest)) line ((lineBreak, next) :: others)

theorem Lines.cons {c : Char} {cs line : List Char} {others : List (List Char × List Char)}
    (h : Lines cs line others) (no_break : isReturn c = false) : Lines (c :: cs) (c :: line) others := by
  cases h with
  | last whole => exact .last (List.forall_mem_cons.mpr ⟨no_break, whole⟩)
  | more whole isBreak below => exact .more (List.forall_mem_cons.mpr ⟨no_break, whole⟩) isBreak below

theorem lines_split (cs : List Char) : Lines cs (split cs).1 (split cs).2 := by
  induction cs using split.induct with
  | case1 cs ih =>
    rw [split]
    exact (.more (List.forall_mem_nil _) (.inl rfl) ih : Lines ([] ++ (['\r', '\n'] ++ cs)) [] _)
  | case2 c cs alone isBreak ih =>
    rw [split, if_pos isBreak]
    · simp only [isReturn, Bool.or_eq_true, beq_iff_eq] at isBreak
      refine (.more (List.forall_mem_nil _) ?_ ih : Lines ([] ++ ([c] ++ cs)) [] _)
      rcases isBreak with rfl | rfl
      · refine .inr (.inr ⟨rfl, fun feed => ?_⟩)
        obtain ⟨rest, rfl⟩ := List.head?_eq_some_iff.mp feed
        exact alone rest rfl rfl
      · exact .inr (.inl rfl)
    · exact alone
  | case3 c cs alone no_break ih =>
    rw [split, if_neg no_break]
    · exact ih.cons (Bool.eq_false_of_not_eq_true no_break)
    · exact alone
  | case4 => exact .last (List.forall_mem_nil _)

theorem IsDescription.parts {content : List Char} (h : IsDescription content) :
    ∃ blanks lineBreak rest line others, content = blanks ++ (lineBreak ++ rest) ∧
      (∀ c ∈ blanks, isAsciiBlank c = true) ∧ Scanner.IsBreak lineBreak rest ∧ Lines rest line others ∧
      '@' ∉ rest ∧
      (∀ l ∈ line :: others.map (·.2),
        (ofChars l).text.head?.all (fun c => !Text.isBlank c && c != '*') = true) ∧
      description content =
        (ofChars line).kept none ++ keptFrom ((ofChars line).marginAfter none) others := by
  obtain ⟨no_tag, opens, broken, begins⟩ := h
  have lines := lines_split content
  unfold description
  generalize split content = parts at *
  obtain ⟨first, others⟩ := parts
  cases lines with
  | last => exact absurd rfl broken
  | @more _ lineBreak rest line others whole isBreak below =>
    refine ⟨first, lineBreak, rest, line, others, rfl, opens, isBreak, below, ?_, ?_, rfl⟩
    · exact fun mem => no_tag (List.mem_append_right _ (List.mem_append_right _ mem))
    · intro l mem
      have mem' : l ∈ ((lineBreak, line) :: others).map (·.2) := mem
      obtain ⟨l', found, rfl⟩ := List.mem_map.mp mem'
      exact begins l' found

theorem chars_ofChars (cs : List Char) : (ofChars cs).chars = cs := by
  have whole := List.takeWhile_append_dropWhile (p := isAsciiBlank) (l := cs)
  unfold ofChars
  dsimp only
  split
  next behind same =>
    rw [same] at whole
    simpa only [chars, if_true, List.takeWhile_append_dropWhile, List.singleton_append] using whole
  next => exact whole

theorem isPlain_ofChars {cs : List Char} (whole : ∀ c ∈ cs, isReturn c = false) (no_tag : '@' ∉ cs)
    (begins : (ofChars cs).text.head?.all (fun c => !Text.isBlank c && c != '*') = true) :
    (ofChars cs).IsPlain := by
  have within : ∀ c ∈ (ofChars cs).text, c ∈ cs := by
    intro c mem
    rw [← chars_ofChars cs, chars]
    simp [mem]
  refine ⟨?_, ?_, ?_, begins, fun c mem => whole c (within c mem), fun mem => no_tag (within _ mem)⟩
  all_goals
    unfold ofChars
    dsimp only
    split
  · exact fun c => List.mem_takeWhile_imp
  · exact fun c => List.mem_takeWhile_imp
  · exact fun c => List.mem_takeWhile_imp
  · exact fun c => nofun
  · exact nofun
  · exact fun _ => rfl

end DocLine

namespace DocText

variable {w : Window} {i : Nat} {d : DocText}

def below (d : DocText) (lineBreak : List Char) : DocText :=
  { d.pushRaw (.ofList lineBreak) with state := .lineStart, indent := 0 }

theorem chars_below (d : DocText) (lineBreak : List Char) : (d.below lineBreak).chars = d.chars ++ lineBreak := by
  rw [← String.toList_ofList (l := lineBreak), ← chars_pushRaw, String.toList_ofList]
  rfl

theorem turns_break {lineBreak rest : List Char} (h : w.Shows i (lineBreak ++ rest))
    (isBreak : Scanner.IsBreak lineBreak rest) :
    Turns w i d (i + String.utf8Len lineBreak) (d.below lineBreak) := by
  obtain ⟨stop, kind⟩ := Scanner.docToken_break h isBreak
  have some_char : lineBreak ≠ [] := by rcases isBreak with rfl | rfl | ⟨rfl, -⟩ <;> exact List.cons_ne_nil _ _
  have turns := Turns.token (d := d) h some_char stop (by simp [kind]) (by simp [kind])
  rw [kind] at turns
  exact turns

theorem head_of_isBreak {lineBreak rest : List Char} (isBreak : Scanner.IsBreak lineBreak rest) :
    (lineBreak ++ rest).head?.all isReturn = true := by
  rcases isBreak with rfl | rfl | ⟨rfl, -⟩ <;> rfl

/-- The tokens of some lines put what a comment keeps of the lines behind what was read before. -/
theorem turns_lines {cs line : List Char} {others : List (List Char × List Char)}
    (lines : DocLine.Lines cs line others) (no_tag : '@' ∉ cs)
    (begins : ∀ l ∈ line :: others.map (·.2),
      (DocLine.ofChars l).text.head?.all (fun c => !Text.isBlank c && c != '*') = true)
    (start : d.state = .lineStart) (indent : d.indent = 0) (h : w.Shows i cs) :
    ∃ d', Turns w i d w.stop d' ∧ d'.torn = d.torn ∧
      d'.chars = d.chars ++ ((DocLine.ofChars line).kept d.margin ++
        DocLine.keptFrom ((DocLine.ofChars line).marginAfter d.margin) others) := by
  induction lines generalizing i d with
  | @last line whole =>
    have plain := DocLine.isPlain_ofChars whole no_tag (begins _ List.mem_cons_self)
    have shown : w.Shows i ((DocLine.ofChars line).chars ++ []) := by
      rwa [DocLine.chars_ofChars, List.append_nil]
    obtain ⟨d', turns, chars, -, torn⟩ := turns_line plain start indent shown rfl
    rw [DocLine.chars_ofChars, ← h.stop_eq] at turns
    exact ⟨d', turns, torn, by rw [chars, DocLine.keptFrom, List.append_nil]⟩
  | @more line lineBreak rest next others whole isBreak below ih =>
    simp only [List.mem_append, not_or] at no_tag
    have plain := DocLine.isPlain_ofChars whole no_tag.1 (begins _ List.mem_cons_self)
    have shown : w.Shows i ((DocLine.ofChars line).chars ++ (lineBreak ++ rest)) := by
      rwa [DocLine.chars_ofChars]
    obtain ⟨d₁, turns₁, chars₁, margin₁, torn₁⟩ :=
      turns_line plain start indent shown (head_of_isBreak isBreak)
    rw [DocLine.chars_ofChars] at turns₁
    have turns₂ := turns_break (d := d₁) h.append isBreak
    obtain ⟨d₂, turns₂, torn₂, chars₂⟩ := ih (d := d₁.below lineBreak) no_tag.2.2
      (fun l mem => begins l (List.mem_cons_of_mem _ mem)) rfl rfl h.append.append
    have margin : (d₁.below lineBreak).margin = (DocLine.ofChars line).marginAfter d.margin := margin₁
    refine ⟨d₂, turns₁.trans ((turns_break h.append isBreak).trans turns₂), torn₂.trans torn₁, ?_⟩
    rw [chars₂, margin, chars_below, chars₁, DocLine.keptFrom]
    simp only [List.append_assoc]

end DocText

end ScriptFrontend
