import ScriptFrontend.Grammar.Signature
import ScriptFrontend.Text.Trivia
import ScriptFrontend.Tree.Kind

/-!
# Tokens and texts of documentation comments

The text is put together from tokens, among which blanks and line breaks count. An asterisk that
begins a line is no part of the text. The first line with a text sets the margin: on the lines after
it the blanks up to the margin are left out and those beyond it are kept.

Names may hold hyphens, and blanks are tokens that are skipped where they mean nothing, but for those
at the end of a comment. Types stand between braces.
-/

namespace ScriptFrontend

/-- Where in a documentation comment the text stands. -/
inductive DocState where
  | lineStart
  | afterAsterisk
  | inText
  | inBackticks
deriving DecidableEq, Repr, Inhabited

structure DocText where
  parts : List String := []
  indent : Nat
  margin : Option Nat := none
  state : DocState
  /-- The margin went through a blank that is more than one byte wide. -/
  torn : Bool := false
deriving Repr, Inhabited

namespace DocText

def isBlankText (s : String) : Bool := s.all Text.isUnicodeBlank

def push (d : DocText) (text : String) : DocText :=
  { d with
    parts := text :: d.parts
    indent := d.indent + text.utf8ByteSize
    margin := some (d.margin.getD d.indent) }

def pushRaw (d : DocText) (text : String) : DocText := { d with parts := text :: d.parts }

/-- How many bytes of some blanks lie before the margin, if the blanks go beyond it. -/
def cut? (d : DocText) (blanks : String) : Option Nat :=
  match d.margin with
  | some margin =>
    let size := blanks.utf8ByteSize
    if d.indent + size > margin then some (min (margin - d.indent) size) else none
  | none => none

/-- Adds the part of some blanks that lies beyond the margin. -/
def pushBlanks (d : DocText) (blanks : String) : DocText :=
  let d' := { d with indent := d.indent + blanks.utf8ByteSize }
  match d.cut? blanks with
  | some cut =>
    { d' with
      parts := Text.dropTo blanks cut :: d.parts
      torn := d.torn || !Text.isBoundary blanks cut }
  | none => d'

def endsInBlank (d : DocText) : Bool :=
  match d.parts with
  | [] => true
  | last :: _ => last.toList.getLast?.any Text.isUnicodeBlank

def dropLeadingBreaks (d : DocText) : DocText :=
  { d with parts := (d.parts.reverse.dropWhile fun p => p == "\n" || p == "\r\n").reverse }

def dropTrailingBlanks (d : DocText) : DocText := { d with parts := d.parts.dropWhile isBlankText }

def finish (d : DocText) : Option String :=
  let chars := (String.join d.parts.reverse).toList.reverse.dropWhile Text.isUnicodeBlank
  if chars.isEmpty then none else some (String.ofList chars.reverse)

def step (d : DocText) (kind : Kind) (text : String) : DocText :=
  match kind with
  | .newLineTrivia => { d.pushRaw text with state := .lineStart, indent := 0 }
  | .whitespaceTrivia =>
    if d.state == .inText || d.state == .inBackticks then d.push text else d.pushBlanks text
  | .backtickToken =>
    { d.push text with state := if d.state == .inBackticks then .inText else .inBackticks }
  | _ =>
    if kind == .asteriskToken && d.state == .lineStart then
      { d with state := .afterAsterisk, indent := d.indent + text.utf8ByteSize }
    else { d.push text with state := if d.state == .inBackticks then .inBackticks else .inText }

end DocText

end ScriptFrontend

namespace ScriptFrontend.Parse

open Diagnostic (Fault)

def skipDocToken : Parse Unit := do let _ ← nextDocToken

/-! ## Blanks -/

def isBlankToken : Parse Bool := tokenIn [.whitespaceTrivia, .newLineTrivia]

def isOnlyBlanks : Parse Bool := do
  for _ in rounds do
    match ← nextDocToken with
    | .endOfFileToken => return true
    | .whitespaceTrivia | .newLineTrivia => continue
    | _ => return false
  return false

def isAtLastBlanks : Parse Bool := isBlankToken <&&> lookAhead isOnlyBlanks

def skipBlanks : Parse Unit := do
  if ← isAtLastBlanks then return
  for _ in rounds do
    unless ← isBlankToken do break
    skipDocToken

/-- Skips blanks and the asterisks that begin lines. Gives back the part before the token of its
line, or nothing if no line break was skipped. -/
def skipBlanksAndAsterisks : Parse String := do
  if ← isAtLastBlanks then return ""
  let mut afterBreak ← afterLineBreak
  let mut seenBreak := false
  let mut indentStart ← tokenStart
  for _ in rounds do
    match ← token with
    | .asteriskToken =>
      if !afterBreak then break
      afterBreak := false
    | .whitespaceTrivia => pure ()
    | .newLineTrivia =>
      afterBreak := true
      seenBreak := true
      indentStart ← tokenEnd
    | _ => break
    skipDocToken
  if seenBreak then return Text.slice (← sourceText) indentStart (← tokenStart) else return ""

/-! ## Tokens and names -/

def optionalDoc (kind : Kind) : Parse Bool := do
  if ← tokenIs kind then
    skipDocToken
    return true
  return false

def requireDoc (kind : Kind) : Parse Unit := do
  unless ← optionalDoc kind do errorHere .expected [tokenName kind]

def docNameOr (fault : Option Fault) : Parse Node := do
  let kind ← token
  if !kind.isIdentifierOrWord then
    return ← missingNode .identifier fault.isNone (fault.getD .identifierExpected) []
  countIdentifier
  let text ← tokenText
  noteIdentifier text
  let n ← finishAt .identifier (← tokenStart) (← tokenEnd)
    (.identifier text (if kind == .identifier then none else some kind))
  skipDocToken
  return n

def docName : Parse Node := docNameOr none

def skipEmptyBrackets : Parse Unit := do
  if ← optional .openBracketToken then require .closeBracketToken

def docEntityName : Parse Node := do
  let pos ← nodePos
  let mut e ← docName
  skipEmptyBrackets
  for _ in rounds do
    unless ← optional .dotToken do break
    let right ← docName
    skipEmptyBrackets
    e ← finish .qualifiedName pos (.qualifiedName e right)
  return e

def docDeclaredName? : Parse (Option Node) := do
  unless ← isAnyWord do return none
  let pos ← nodePos
  let mut e ← docName
  for _ in rounds do
    unless ← optional .dotToken do break
    e ← finish .qualifiedName pos (.qualifiedName e (← docName))
  return some e

/-! ## Types between braces -/

def docTypeExpression (bracesOptional : Bool) : Parse Node := spanning .docTypeExpression do
  let braced ← if bracesOptional then optional .openBraceToken else expect .openBraceToken
  let t ← inside NodeFlags.doc docType
  if !bracesOptional || braced then requireDoc .closeBraceToken
  return .wrappedType false t

def docTypeExpression? : Parse (Option Node) := do
  let _ ← skipBlanksAndAsterisks
  if ← tokenIs .openBraceToken then return some (← docTypeExpression false)
  return none

/-! ## Text behind a tag -/

/-- An at sign that is a part of the text: between backticks, or inside of a word or before a
blank. -/
def isAtSignText (state : DocState) (afterBlank : Bool) : Parse Bool := do
  if state == .inBackticks then return true
  if state != .inText then return false
  if !afterBlank then return true
  lookAhead do
    skipDocToken
    isBlankToken

def tagText? (indent : Nat) (margin : Option String) : Parse (Option String) := do
  let mut d : DocText :=
    match margin with
    | none => { indent := indent, state := .lineStart }
    | some "" => { indent := indent, state := .afterAsterisk }
    | some m => { ({ indent := indent, state := .lineStart } : DocText).push m with
                  state := .afterAsterisk }
  let mut afterBlank := true
  for _ in rounds do
    let kind ← token
    let text ← tokenText
    if kind == .endOfFileToken then break
    if kind == .atToken then
      unless ← isAtSignText d.state afterBlank do break
      d := d.pushRaw text
    else d := d.step kind text
    afterBlank := kind == .whitespaceTrivia
    skipDocToken
  noteTorn d.torn
  return d.dropLeadingBreaks.dropTrailingBlanks.finish

/-- The text behind a tag from `start` to `stop`, whose parts may have gone over lines. -/
def trailingText? (start stop indent : Nat) (indentText : String) : Parse (Option String) := do
  let margin := if indentText.isEmpty then indent + (stop - start) else indent
  let kept := if Text.isBoundary indentText margin then Text.dropTo indentText margin else ""
  tagText? margin (some kept)

end ScriptFrontend.Parse
