import ScriptFrontend.Token.Window

/-!
# Strings and templates

The value of a string or of a template piece is its text with the escapes decoded. A template may
hold escapes that stand for nothing; where it is tagged they are no fault. Surrogates that do not
pair up stand for the replacement character.
-/

namespace ScriptFrontend.Token.Window

open Diagnostic (Fault)

/-- How escapes are treated: in a template, and reported there. -/
structure EscapeMode where
  inTemplate : Bool
  report : Bool

def replacement : Char := '\uFFFD'

def charOr (n : Nat) : String := ((charOf? n).getD replacement).toString

def refusedInTemplate (w : Window) (mode : EscapeMode) (start pos : Nat) : Reading where
  stop := pos
  flags := TokenFlags.invalidEscape
  errors :=
    if mode.report then [⟨.escapeNotAllowed, start, pos - start, some (w.slice start pos)⟩] else []

def refused (w : Window) (mode : EscapeMode) (fault : Fault) (start pos : Nat) : Reading :=
  if mode.inTemplate then w.refusedInTemplate mode start pos
  else { stop := pos, errors := [⟨fault, start, pos - start, none⟩] }

def bracedEscape (w : Window) (mode : EscapeMode) (start pos : Nat) : Reading :=
  let stop := w.skipBytes Text.isHexDigit pos
  let seen : Reading := { stop := stop, flags := TokenFlags.extendedUnicodeEscape }
  if stop == pos then seen.andThen (w.refused mode .hexDigitExpected start stop)
  else
    let n := Text.hexNumber (w.slice pos stop)
    let inRange :=
      if n > 0x10FFFF then seen.andThen (w.refused mode .escapeOutOfRange start stop)
      else seen
    let closed :=
      if w.byte stop == 0x7D then inRange.andThen { stop := stop + 1 }
      else inRange.andThen (w.refused mode .unterminatedEscape start stop)
    { closed with value := charOr n }

def fourHex? (w : Window) (pos : Nat) : Option Nat :=
  if w.skipBytes Text.isHexDigit pos < pos + 4 then none
  else some (Text.hexNumber (w.slice pos (pos + 4)))

def isHighSurrogate (n : Nat) : Bool := 0xD800 ≤ n && n ≤ 0xDBFF

def isLowSurrogate (n : Nat) : Bool := 0xDC00 ≤ n && n ≤ 0xDFFF

def unicodeEscape (w : Window) (mode : EscapeMode) (start pos : Nat) : Reading :=
  if w.byte pos == 0x7B then w.bracedEscape mode start (pos + 1)
  else
    match w.fourHex? pos with
    | none => w.refused mode .hexDigitExpected start pos
    | some n =>
      let single : Reading := ⟨pos + 4, charOr n, TokenFlags.unicodeEscape, []⟩
      if isHighSurrogate n && w.startsAt (pos + 4) "\\u" then
        match w.fourHex? (pos + 6) with
        | some low =>
          if isLowSurrogate low then
            { single with
              stop := pos + 10, value := charOr (0x10000 + (n - 0xD800) * 0x400 + (low - 0xDC00)) }
          else single
        | none => single
      else single

def octalEscape (w : Window) (mode : EscapeMode) (start pos : Nat) : Reading :=
  let limit := if w.byte pos ≤ 0x33 then pos + 3 else pos + 2
  let stop := min limit (w.skipBytes Text.isOctalDigit pos)
  let n := (w.slice pos stop).toList.foldl (fun n c => n * 8 + (c.toNat - 0x30)) 0
  let r : Reading := if mode.inTemplate then w.refusedInTemplate mode start stop else { stop := stop }
  { r with value := charOr n }

def hexEscape (w : Window) (mode : EscapeMode) (start pos : Nat) : Reading :=
  let stop := min (pos + 2) (w.skipBytes Text.isHexDigit pos)
  if stop < pos + 2 then
    { w.refused mode .hexDigitExpected start stop with value := w.slice start stop }
  else { stop := stop, value := charOr (Text.hexNumber (w.slice pos stop)) }

def letterEscape? (b : UInt8) : Option Char :=
  if b == 0x62 then some '\x08'
  else if b == 0x74 then some '\t'
  else if b == 0x6E then some '\n'
  else if b == 0x76 then some '\x0b'
  else if b == 0x66 then some '\x0c'
  else if b == 0x72 then some '\r'
  else if b == 0x27 then some '\''
  else if b == 0x22 then some '"'
  else none

/-- The escape whose backslash stands at `start`, with the text it stands for as value. -/
def escape (w : Window) (mode : EscapeMode) (start : Nat) : Reading :=
  let pos := start + 1
  match w.char? pos with
  | none => { stop := pos, errors := [⟨.unexpectedEnd, pos, 0, none⟩] }
  | some c =>
    let b := w.byte pos
    if b == 0x30 && !Text.isDigit (w.byte (pos + 1)) then { stop := pos + 1, value := "\x00" }
    else if Text.isOctalDigit b then w.octalEscape mode start pos
    else if b == 0x38 || b == 0x39 then
      let r : Reading :=
        if mode.inTemplate then w.refusedInTemplate mode start (pos + 1) else { stop := pos + 1 }
      { r with value := c.toString }
    else if b == 0x75 then w.unicodeEscape mode start (pos + 1)
    else if b == 0x78 then w.hexEscape mode start (pos + 1)
    else if b == 0x0D then
      { stop := if w.byte (pos + 1) == 0x0A then pos + 2 else pos + 1 }
    else if c == '\n' || c == '\u2028' || c == '\u2029' then { stop := pos + c.utf8Size }
    else
      match letterEscape? b with
      | some e => { stop := pos + 1, value := e.toString }
      | none => { stop := pos + c.utf8Size, value := c.toString }

/-- The string whose opening quote stands at `start`. The value of a JSX attribute has no escapes
and may go over lines. -/
def quoted (w : Window) (start : Nat) (isAttribute : Bool) : Reading :=
  go (w.stop - start) (start + 1) (start + 1) { stop := start + 1 }
where
  go : Nat → Nat → Nat → Reading → Reading
    | 0, pos, chunk, r => unterminated pos chunk r
    | fuel + 1, pos, chunk, r =>
      if w.stop ≤ pos then unterminated pos chunk r
      else
        let b := w.byte pos
        if b == w.byte start then
          { r with stop := pos + 1, value := r.value ++ w.slice chunk pos }
        else if b == 0x5C && !isAttribute then
          let e := w.escape ⟨false, true⟩ pos
          go fuel e.stop e.stop
            ⟨e.stop, r.value ++ w.slice chunk pos ++ e.value, r.flags ||| e.flags,
              r.errors ++ e.errors⟩
        else if (b == 0x0A || b == 0x0D) && !isAttribute then unterminated pos chunk r
        else go fuel (pos + 1) chunk r
  unterminated (pos chunk : Nat) (r : Reading) : Reading :=
    ⟨pos, r.value ++ w.slice chunk pos, r.flags ||| TokenFlags.unterminated,
      r.errors ++ [⟨.unterminatedString, pos, 0, none⟩]⟩

/-- The template piece that starts at `start`, after a backquote or after the brace that closes a
substitution. -/
def template (w : Window) (start : Nat) (report : Bool) : Lexeme :=
  go (w.stop - start) (start + 1) (start + 1) { stop := start + 1 }
where
  isFirst : Bool := Text.byteAt w.text start == 0x60
  lastKind : Kind := if isFirst then .noSubstitutionTemplateLiteral else .templateTail
  unterminated (pos chunk : Nat) (r : Reading) : Lexeme :=
    ⟨⟨pos, r.value ++ w.slice chunk pos, r.flags ||| TokenFlags.unterminated,
      r.errors ++ [⟨.unterminatedTemplate, pos, 0, none⟩]⟩, lastKind⟩
  go : Nat → Nat → Nat → Reading → Lexeme
    | 0, pos, chunk, r => unterminated pos chunk r
    | fuel + 1, pos, chunk, r =>
      if w.stop ≤ pos then unterminated pos chunk r
      else
        let b := w.byte pos
        if b == 0x60 then
          ⟨{ r with stop := pos + 1, value := r.value ++ w.slice chunk pos }, lastKind⟩
        else if b == 0x24 && w.byte (pos + 1) == 0x7B then
          ⟨{ r with stop := pos + 2, value := r.value ++ w.slice chunk pos },
            if isFirst then .templateHead else .templateMiddle⟩
        else if b == 0x5C then
          let e := w.escape ⟨true, report⟩ pos
          go fuel e.stop e.stop
            ⟨e.stop, r.value ++ w.slice chunk pos ++ e.value, r.flags ||| e.flags,
              r.errors ++ e.errors⟩
        else if b == 0x0D then
          let next := if w.byte (pos + 1) == 0x0A then pos + 2 else pos + 1
          go fuel next next { r with value := (r.value ++ w.slice chunk pos).push '\n' }
        else go fuel (pos + 1) chunk r

end ScriptFrontend.Token.Window
