import ScriptFrontend.Token.Number
import ScriptFrontend.Token.Quoted

/-!
# Tokens and trivia at an offset

`Window.trivia?` reads one piece of trivia: blanks, a line break, a comment, the first line of a
script, or the marker of a merge conflict. `Window.token` reads the token at an offset where no
trivia stands. A punctuation mark is the longest one that stands there, but that a greater-than sign
is always read alone.
-/

namespace ScriptFrontend.Token.Window

open Diagnostic (Fault)

def conflictLength : Nat := 7

def isConflictMarker (w : Window) (pos : Nat) : Bool :=
  let b := w.byte pos
  let atLineStart :=
    pos == 0 || Text.byteAt w.text (pos - 1) == 0x0A || Text.byteAt w.text (pos - 1) == 0x0D
  atLineStart && pos + conflictLength < w.stop &&
    (List.range conflictLength).all (fun k => w.byte (pos + k) == b) &&
    (b == 0x3D || w.byte (pos + conflictLength) == 0x20)

/-- The end of a conflict marker. The markers in the middle take the side after them along, up to
the next marker. -/
def conflictEnd (w : Window) (pos : Nat) : Nat :=
  let b := w.byte pos
  if b == 0x3C || b == 0x3E then w.lineEnd pos
  else go b (w.stop - pos) pos
where
  go (b : UInt8) : Nat → Nat → Nat
    | 0, k => k
    | fuel + 1, k =>
      let c := w.byte k
      if (c == 0x3D || c == 0x3E) && c != b && w.isConflictMarker k then k else go b fuel (k + 1)

/-- The first offset from `i` on where the word stands and ends before the end of the window. -/
def find? (w : Window) (word : String) (i : Nat) : Option Nat :=
  go (w.stop - i) i
where
  go : Nat → Nat → Option Nat
    | 0, _ => none
    | fuel + 1, k => if w.startsAt k word then some k else go fuel (k + 1)

def blockComment (w : Window) (pos : Nat) : Lexeme :=
  let isDoc := w.byte (pos + 2) == 0x2A && w.byte (pos + 3) != 0x2F
  let opened : TokenFlags := if isDoc then TokenFlags.precedingDoc else .empty
  let r : Reading :=
    match w.find? "*/" (pos + 2) with
    | some close => { stop := close + 2, flags := opened }
    | none =>
      { stop := w.stop, flags := opened ||| TokenFlags.unterminated
        errors := [⟨.unterminatedComment, w.stop, 0, none⟩] }
  let broken : TokenFlags :=
    if w.hasLineBreak (pos + 2) r.stop then TokenFlags.precedingLineBreak else .empty
  ⟨{ r with flags := r.flags ||| broken }, .multiLineCommentTrivia⟩

def trivia? (w : Window) (pos : Nat) : Option Lexeme :=
  match w.char? pos with
  | none => none
  | some c =>
    if c == '#' && pos == 0 && w.byte 1 == 0x21 then
      some ⟨{ stop := w.lineEnd pos }, .shebangTrivia⟩
    else if c == '/' && w.byte (pos + 1) == 0x2F then
      some ⟨{ stop := w.lineEnd (pos + 2) }, .singleLineCommentTrivia⟩
    else if c == '/' && w.byte (pos + 1) == 0x2A then some (w.blockComment pos)
    else if (c == '<' || c == '=' || c == '>' || c == '|') && w.isConflictMarker pos then
      some ⟨{ stop := w.conflictEnd pos, errors := [⟨.mergeConflict, pos, conflictLength, none⟩] },
        .conflictMarkerTrivia⟩
    else if Text.isLineBreak c then
      let stop := if c == '\r' && w.byte (pos + 1) == 0x0A then pos + 2 else pos + c.utf8Size
      some ⟨{ stop := stop, flags := TokenFlags.precedingLineBreak }, .newLineTrivia⟩
    else if Text.isBlank c then
      some ⟨{ stop := w.skipChars Text.isBlank (pos + c.utf8Size) }, .whitespaceTrivia⟩
    else none

def marksAt (w : Window) (c : Char) (pos : Nat) : List (String × Kind) :=
  match c with
  | '!' => [("!==", .exclamationEqualsEqualsToken), ("!=", .exclamationEqualsToken),
      ("!", .exclamationToken)]
  | '%' => [("%=", .percentEqualsToken), ("%", .percentToken)]
  | '&' => [("&&=", .ampersandAmpersandEqualsToken), ("&&", .ampersandAmpersandToken),
      ("&=", .ampersandEqualsToken), ("&", .ampersandToken)]
  | '(' => [("(", .openParenToken)]
  | ')' => [(")", .closeParenToken)]
  | '*' =>
    if w.inDocType then [("**=", .asteriskAsteriskEqualsToken), ("**", .asteriskAsteriskToken),
      ("*", .asteriskToken)]
    else [("**=", .asteriskAsteriskEqualsToken), ("**", .asteriskAsteriskToken),
      ("*=", .asteriskEqualsToken), ("*", .asteriskToken)]
  | '+' => [("++", .plusPlusToken), ("+=", .plusEqualsToken), ("+", .plusToken)]
  | ',' => [(",", .commaToken)]
  | '-' => [("--", .minusMinusToken), ("-=", .minusEqualsToken), ("-", .minusToken)]
  | '.' => [("...", .dotDotDotToken), (".", .dotToken)]
  | '/' => [("/=", .slashEqualsToken), ("/", .slashToken)]
  | ':' => [(":", .colonToken)]
  | ';' => [(";", .semicolonToken)]
  | '<' =>
    let rest := [("<<=", Kind.lessThanLessThanEqualsToken), ("<<", .lessThanLessThanToken),
      ("<=", .lessThanEqualsToken), ("<", .lessThanToken)]
    if w.variant == .jsx && w.byte (pos + 2) != 0x2A then ("</", .lessThanSlashToken) :: rest
    else rest
  | '=' => [("===", .equalsEqualsEqualsToken), ("==", .equalsEqualsToken),
      ("=>", .equalsGreaterThanToken), ("=", .equalsToken)]
  | '>' => [(">", .greaterThanToken)]
  | '?' =>
    let rest := [("??=", Kind.questionQuestionEqualsToken), ("??", .questionQuestionToken),
      ("?", .questionToken)]
    if Text.isDigit (w.byte (pos + 2)) then rest else ("?.", .questionDotToken) :: rest
  | '[' => [("[", .openBracketToken)]
  | ']' => [("]", .closeBracketToken)]
  | '^' => [("^=", .caretEqualsToken), ("^", .caretToken)]
  | '\x7b' => [("\x7b", .openBraceToken)]
  | '|' => [("||=", .barBarEqualsToken), ("||", .barBarToken), ("|=", .barEqualsToken),
      ("|", .barToken)]
  | '\x7d' => [("\x7d", .closeBraceToken)]
  | '~' => [("~", .tildeToken)]
  | '@' => [("@", .atToken)]
  | _ => []

def mark? (w : Window) (c : Char) (pos : Nat) : Option Lexeme :=
  ((w.marksAt c pos).find? fun m => w.startsAt pos m.1).map fun m =>
    ⟨{ stop := pos + m.1.utf8ByteSize }, m.2⟩

def isNumberStart (w : Window) (pos : Nat) : Bool :=
  Text.isDigit (w.byte pos) || (w.byte pos == 0x2E && Text.isDigit (w.byte (pos + 1)))

def token (w : Window) (pos : Nat) : Lexeme :=
  match w.char? pos with
  | none => ⟨{ stop := pos }, .endOfFileToken⟩
  | some c =>
    if w.isStart c then
      let r := w.nameParts pos (pos + c.utf8Size)
      ⟨r, nameKind r.value r.flags⟩
    else if w.isNumberStart pos then w.number pos
    else if c == '"' || c == '\'' then ⟨w.quoted pos false, .stringLiteral⟩
    else if c == '\x60' then w.template pos true
    else if c == '\\' then w.escapedName pos
    else if c == '#' then w.privateName pos
    else
      (w.mark? c pos).getD
        ⟨⟨pos + c.utf8Size, "", .empty, [⟨.invalidCharacter, pos, c.utf8Size, none⟩]⟩, .unknown⟩

end ScriptFrontend.Token.Window
