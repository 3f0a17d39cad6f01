import ScriptFrontend.Token.Mark

/-!
# The scanner

A scanner stands on a token of its window and moves on when it is asked to. The reader of the
grammar may ask for the current token to be read another way: a greater-than sign together with what
follows it, a slash as a regular expression, a brace as the continuation of a template, and the text
between the tags of an element. What a scanner stands on can be kept and taken up again.
-/

namespace ScriptFrontend

open Token

structure TokenState where
  pos : Nat
  fullStart : Nat
  tokenStart : Nat
  token : Kind
  value : String
  flags : TokenFlags
deriving Inhabited

structure Scanner extends TokenState where
  text : String
  stop : Nat
  target : ScriptTarget
  variant : LanguageVariant
  skipsTrivia : Bool
  /-- How many types of documentation comments are being read, one inside the other. -/
  docTypeDepth : Nat
  errors : Array ScanError
  /-- Where errors go instead, if someone listens. -/
  heard : Option (Array ScanError)
deriving Inhabited

namespace Scanner

def ofText (text : String) : Scanner where
  pos := 0
  fullStart := 0
  tokenStart := 0
  token := .unknown
  value := ""
  flags := .empty
  text := text
  stop := text.utf8ByteSize
  target := .esNext
  variant := .standard
  skipsTrivia := true
  docTypeDepth := 0
  errors := #[]
  heard := none

def window (s : Scanner) : Window := ⟨s.text, s.stop, s.target, s.variant, s.docTypeDepth > 0⟩

def moveTo (s : Scanner) (pos : Nat) : Scanner :=
  { s with pos := pos, fullStart := pos, tokenStart := pos, token := .unknown, value := "",
           flags := .empty }

/-- Reads only the part of the text between two offsets. -/
def restrict (s : Scanner) (start stop : Nat) : Scanner := { s with stop := stop }.moveTo start

def enterDocType (s : Scanner) : Scanner := { s with docTypeDepth := s.docTypeDepth + 1 }

def leaveDocType (s : Scanner) : Scanner := { s with docTypeDepth := s.docTypeDepth - 1 }

def tokenText (s : Scanner) : String := Text.slice s.text s.tokenStart s.pos

def hasFlag (s : Scanner) (flag : TokenFlags) : Bool := s.flags.has flag

def isIdentifier (s : Scanner) : Bool :=
  s.token == .identifier || (s.token.value > Kind.withKeyword.value && s.token.isToken)

def report (s : Scanner) (errors : List ScanError) : Scanner :=
  match s.heard with
  | some heard => { s with heard := some (heard ++ errors.toArray) }
  | none => { s with errors := s.errors ++ errors.toArray }

def forgetErrors (s : Scanner) : Scanner := { s with errors := #[] }

def takeErrors (s : Scanner) : List ScanError × Scanner := (s.errors.toList, s.forgetErrors)

def save (s : Scanner) : TokenState × Nat := (s.toTokenState, s.errors.size)

def restore (s : Scanner) (saved : TokenState × Nat) : Scanner :=
  { s with toTokenState := saved.1, errors := s.errors.extract 0 saved.2 }

/-- Stands on a lexeme that begins at `start`; the flags seen before stay. -/
def land (s : Scanner) (start : Nat) (l : Lexeme) : Scanner :=
  { s with pos := l.stop, tokenStart := start, token := l.kind, value := l.value,
           flags := s.flags ||| l.flags }.report l.errors

/-- The state before a token is read: nothing is known of it but where its trivia starts. -/
def fresh (s : Scanner) : Scanner := { s with fullStart := s.pos, flags := .empty, value := "" }

/-- Moves on to the next token, or to the next piece of trivia where that is asked for. -/
def scan (s : Scanner) : Scanner :=
  go (s.stop + 1 - s.pos) s.fresh
where
  go : Nat → Scanner → Scanner
    | 0, s => s.land s.pos (s.window.token s.pos)
    | fuel + 1, s =>
      match s.window.trivia? s.pos with
      | some l =>
        if s.skipsTrivia then
          go fuel ({ s with pos := l.stop, flags := s.flags ||| l.flags }.report l.errors)
        else s.land s.pos l
      | none => s.land s.pos (s.window.token s.pos)

def become (s : Scanner) (kind : Kind) (pos : Nat) : Scanner := { s with token := kind, pos := pos }

def greaterMarks : List (String × Kind) :=
  [(">>=", .greaterThanGreaterThanGreaterThanEqualsToken),
    (">>", .greaterThanGreaterThanGreaterThanToken), (">=", .greaterThanGreaterThanEqualsToken),
    (">", .greaterThanGreaterThanToken), ("=", .greaterThanEqualsToken)]

def rescanGreater (s : Scanner) : Scanner :=
  if s.token == .greaterThanToken then
    match greaterMarks.find? fun m => s.window.startsAt s.pos m.1 with
    | some m => s.become m.2 (s.pos + m.1.utf8ByteSize)
    | none => s
  else s

/-- Splits two less-than signs, so that the first opens a list of type arguments. -/
def rescanLess (s : Scanner) : Scanner :=
  if s.token == .lessThanLessThanToken then s.become .lessThanToken (s.tokenStart + 1) else s

/-- Where the body of a regular expression that starts at `pos` ends, and whether a slash ends it.
A slash in a class of characters or after a backslash does not. -/
def regexEnd (w : Window) (pos : Nat) : Nat × Bool :=
  go (w.stop - pos) pos false false
where
  go : Nat → Nat → Bool → Bool → Nat × Bool
    | 0, k, _, _ => (k, false)
    | fuel + 1, k, escaped, inClass =>
      match w.char? k with
      | none => (k, false)
      | some c =>
        if Text.isLineBreak c then (k, false)
        else
          let next := k + c.utf8Size
          if escaped then go fuel next false inClass
          else if c == '/' && !inClass then (next, true)
          else if c == '[' then go fuel next false true
          else if c == '\\' then go fuel next true inClass
          else if c == ']' then go fuel next false false
          else go fuel next false inClass

def rescanSlash (s : Scanner) : Scanner :=
  if s.token == .slashToken || s.token == .slashEqualsToken then
    let w := s.window
    let body := regexEnd w (s.tokenStart + 1)
    let stop := w.skipChars Text.isIdentifierPart body.1
    let s := { s with
      pos := stop
      value := w.slice s.tokenStart stop
      token := .regularExpressionLiteral }
    if body.2 then s
    else
      { s with flags := s.flags ||| TokenFlags.unterminated }.report
        [⟨.unterminatedRegex, s.tokenStart, body.1 - s.tokenStart, none⟩]
  else s

/-- Reads the current token as a template piece; escapes that stand for nothing are reported if
asked for. -/
def rescanTemplate (s : Scanner) (report : Bool) : Scanner :=
  s.land s.tokenStart (s.window.template s.tokenStart report)

/-- The text between tags from an offset on. It ends before a brace or a tag, and, unless it may go
over lines, at the first line break after something that is not blank. -/
def elementText (w : Window) (start : Nat) (overLines : Bool) : Lexeme :=
  go (w.stop - start) start 0 []
where
  finish (pos : Nat) (mark : Int) (errors : List ScanError) : Lexeme :=
    ⟨⟨pos, w.slice start pos, .empty, errors⟩,
      if mark == -1 then .jsxTextAllWhiteSpaces else .jsxText⟩
  /-- `mark` is zero while nothing was seen, -1 after a line break with only blanks, and else the
  place of a character that is not blank. -/
  go : Nat → Nat → Int → List ScanError → Lexeme
    | 0, pos, mark, errors => finish pos mark errors
    | fuel + 1, pos, mark, errors =>
      match w.char? pos with
      | none => finish pos mark errors
      | some c =>
        if c == '\x7b' || c == '<' then finish pos mark errors
        else
          let errors :=
            if c == '>' then errors ++ [⟨.bareGreaterThan, pos, 1, none⟩]
            else if c == '\x7d' then errors ++ [⟨.bareCloseBrace, pos, 1, none⟩]
            else errors
          if Text.isLineBreak c && mark == 0 then go fuel (pos + c.utf8Size) (-1) errors
          else if !overLines && Text.isLineBreak c && mark > 0 then finish pos mark errors
          else if !Text.isBlankOrLineBreak c then go fuel (pos + c.utf8Size) pos errors
          else go fuel (pos + c.utf8Size) mark errors

def scanElementContent (s : Scanner) (overLines : Bool) : Scanner :=
  let s := s.fresh
  let w := s.window
  let l : Lexeme :=
    match w.char? s.pos with
    | none => ⟨{ stop := s.pos }, .endOfFileToken⟩
    | some c =>
      if w.startsAt s.pos "</" then ⟨{ stop := s.pos + 2 }, .lessThanSlashToken⟩
      else if c == '<' then ⟨{ stop := s.pos + 1 }, .lessThanToken⟩
      else if c == '\x7b' then ⟨{ stop := s.pos + 1 }, .openBraceToken⟩
      else elementText w s.pos overLines
  s.land s.pos l

def rescanElementContent (s : Scanner) (overLines : Bool) : Scanner :=
  { s with pos := s.fullStart, tokenStart := s.fullStart }.scanElementContent overLines

def scanElementName (s : Scanner) : Scanner :=
  if s.token.isIdentifierOrWord then
    let r := go (s.stop + 1 - s.pos) { stop := s.pos, value := s.value, flags := s.flags }
    let value :=
      if r.flags.has TokenFlags.unicodeEscape then r.value else Text.slice s.text s.tokenStart r.stop
    { s with pos := r.stop, value := value, flags := r.flags, token := Window.nameKind value r.flags }
  else s
where
  go : Nat → Reading → Reading
    | 0, r => r
    | fuel + 1, r =>
      if s.window.byte r.stop == 0x2D then
        go fuel { r with stop := r.stop + 1, value := r.value.push '-' }
      else
        let part := s.window.nameParts r.stop r.stop
        if part.stop == r.stop then r
        else
          go fuel { r with
            stop := part.stop, value := r.value ++ part.value, flags := r.flags ||| part.flags }

/-- Moves on to the value of an attribute: a string without escapes, or any other token. -/
def scanAttributeValue (s : Scanner) : Scanner :=
  let s := { s with fullStart := s.pos }
  if s.window.byte s.pos == 0x22 || s.window.byte s.pos == 0x27 then
    { s with flags := .empty }.land s.pos ⟨s.window.quoted s.pos true, .stringLiteral⟩
  else s.scan

def rescanAttributeValue (s : Scanner) : Scanner :=
  { s with pos := s.fullStart, tokenStart := s.fullStart }.scanAttributeValue

def docMark? (c : Char) : Option Kind :=
  match c with
  | '@' => some .atToken
  | '*' => some .asteriskToken
  | '\x7b' => some .openBraceToken
  | '\x7d' => some .closeBraceToken
  | '[' => some .openBracketToken
  | ']' => some .closeBracketToken
  | '(' => some .openParenToken
  | ')' => some .closeParenToken
  | '<' => some .lessThanToken
  | '>' => some .greaterThanToken
  | '=' => some .equalsToken
  | ',' => some .commaToken
  | '.' => some .dotToken
  | '\x60' => some .backtickToken
  | '#' => some .hashToken
  | _ => none

/-- The token of a documentation comment at an offset. Blanks and line breaks are tokens, and names
may hold hyphens. -/
def docToken (w : Window) (pos : Nat) : Lexeme :=
  match w.char? pos with
  | none => ⟨{ stop := pos }, .endOfFileToken⟩
  | some c =>
    let next := pos + c.utf8Size
    if c == '\t' || c == '\x0b' || c == '\x0c' || c == ' ' then
      ⟨{ stop := w.skipChars Text.isBlank next }, .whitespaceTrivia⟩
    else if c == '\r' || c == '\n' then
      let stop := if c == '\r' && w.byte next == 0x0A then next + 1 else next
      ⟨{ stop := stop, flags := TokenFlags.precedingLineBreak }, .newLineTrivia⟩
    else
      match docMark? c with
      | some kind => ⟨{ stop := next }, kind⟩
      | none =>
        if w.isStart c then
          let stop := w.skipChars (fun d => w.isPart d || d == '-') next
          let value := w.slice pos stop
          ⟨{ stop := stop, value := value }, Window.nameKind value .empty⟩
        else ⟨{ stop := next }, .unknown⟩

def scanDoc (s : Scanner) : Scanner :=
  let s := s.fresh
  s.land s.pos (docToken s.window s.pos)

end Scanner

end ScriptFrontend
