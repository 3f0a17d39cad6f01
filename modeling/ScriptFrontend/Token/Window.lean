import ScriptFrontend.Diagnostic.Fault
import ScriptFrontend.Script
import ScriptFrontend.Text.Bytes
import ScriptFrontend.Tree.Flags

/-!
# The window that tokens are read through

Tokens are read from a text up to an end offset, for a version of the language. A reading is what
one step of that finds: where it stopped, the value of what was read, and the flags and faults it
gives rise to. This module reads names, with the escapes that may stand in them.
-/

namespace ScriptFrontend.Token

open Diagnostic (Fault)

/-- Something wrong with the text at a place. -/
structure ScanError where
  fault : Fault
  pos : Nat
  length : Nat
  arg : Option String := none
deriving DecidableEq, Repr, Inhabited

/-- A text up to an end, and the rules that it is read by. -/
structure Window where
  text : String
  stop : Nat
  target : ScriptTarget
  variant : LanguageVariant
  inDocType : Bool
deriving Inhabited

structure Reading where
  stop : Nat
  value : String := ""
  flags : TokenFlags := .empty
  errors : List ScanError := []
deriving Inhabited

/-- One reading after another: the second one's place and value, the flags and errors of both. -/
def Reading.andThen (r next : Reading) : Reading :=
  ⟨next.stop, next.value, r.flags ||| next.flags, r.errors ++ next.errors⟩

structure Lexeme extends Reading where
  kind : Kind
deriving Inhabited

namespace Window

@[inline]
def byte (w : Window) (i : Nat) : UInt8 := if i < w.stop then Text.byteAt w.text i else 0

@[inline]
def char? (w : Window) (i : Nat) : Option Char :=
  if i < w.stop then Text.charAt? w.text i else none

@[inline]
def slice (w : Window) (start stop : Nat) : String := Text.slice w.text start stop

def startsAt (w : Window) (i : Nat) (word : String) : Bool :=
  i + word.utf8ByteSize ≤ w.stop && Text.startsAt w.text i word

/-- Characters beyond the first plane need a version of the language that allows them. -/
def isPlain (w : Window) (c : Char) : Bool := c.toNat ≤ 0xFFFF || w.target.atLeast .es2015

def isStart (w : Window) (c : Char) : Bool := Text.isIdentifierStart c && w.isPlain c

def isPart (w : Window) (c : Char) : Bool := Text.isIdentifierPart c && w.isPlain c

/-- The first offset from `i` on whose byte fails the test. -/
def skipBytes (w : Window) (p : UInt8 → Bool) (i : Nat) : Nat :=
  go (w.stop - i) i
where
  go : Nat → Nat → Nat
    | 0, k => k
    | fuel + 1, k => if k < w.stop && p (w.byte k) then go fuel (k + 1) else k

/-- The first offset from `i` on whose character fails the test. -/
def skipChars (w : Window) (p : Char → Bool) (i : Nat) : Nat :=
  go (w.stop - i) i
where
  go : Nat → Nat → Nat
    | 0, k => k
    | fuel + 1, k =>
      match w.char? k with
      | some c => if p c then go fuel (k + c.utf8Size) else k
      | none => k

def breakAt (w : Window) (i : Nat) : Bool :=
  let b := w.byte i
  b == 0x0A || b == 0x0D ||
    (b == 0xE2 && (w.startsAt i "\u2028" || w.startsAt i "\u2029"))

/-- The first line break from `i` on, or the end. The end may lie inside a character, which is gone
over byte by byte. -/
def lineEnd (w : Window) (i : Nat) : Nat :=
  go (w.stop - i) i
where
  go : Nat → Nat → Nat
    | 0, k => k
    | fuel + 1, k => if w.breakAt k then k else go fuel (k + 1)

def hasLineBreak (w : Window) (start stop : Nat) : Bool :=
  { w with stop := stop }.lineEnd start < stop

def charOf? (n : Nat) : Option Char :=
  if h : n.isValidChar then some (Char.ofNatAux n h) else none

/-- An escape as it may stand in a name: the character, the length, and whether it has braces. -/
def nameEscape? (w : Window) (pos : Nat) : Option (Char × Nat × Bool) :=
  if !w.startsAt pos "\\u" then none
  else if w.byte (pos + 2) == 0x7B then
    let stop := w.skipBytes Text.isHexDigit (pos + 3)
    if stop == pos + 3 || w.byte stop != 0x7D then none
    else (charOf? (Text.hexNumber (w.slice (pos + 3) stop))).map fun c => (c, stop + 1 - pos, true)
  else
    let stop := w.skipBytes Text.isHexDigit (pos + 2)
    if stop < pos + 6 then none
    else
      (charOf? (Text.hexNumber (w.slice (pos + 2) (pos + 6)))).map fun c => (c, 6, false)

def escapeFlags (braced : Bool) : TokenFlags :=
  if braced then TokenFlags.unicodeEscape ||| TokenFlags.extendedUnicodeEscape
  else TokenFlags.unicodeEscape

def nameParts (w : Window) (start pos : Nat) : Reading :=
  go (w.stop - pos) pos start "" .empty
where
  go : Nat → Nat → Nat → String → TokenFlags → Reading
    | 0, pos, chunk, out, flags => ⟨pos, out ++ w.slice chunk pos, flags, []⟩
    | fuel + 1, pos, chunk, out, flags =>
      match w.char? pos with
      | none => ⟨pos, out ++ w.slice chunk pos, flags, []⟩
      | some c =>
        if w.isPart c then go fuel (pos + c.utf8Size) chunk out flags
        else
          match w.nameEscape? pos with
          | some (e, length, braced) =>
            if w.isPart e then
              go fuel (pos + length) (pos + length) ((out ++ w.slice chunk pos).push e)
                (flags ||| escapeFlags braced)
            else ⟨pos, out ++ w.slice chunk pos, flags, []⟩
          | none => ⟨pos, out ++ w.slice chunk pos, flags, []⟩

/-- What a name is: a word with a meaning of its own only if it is written without escapes. -/
def nameKind (value : String) (flags : TokenFlags) : Kind :=
  if flags.has TokenFlags.unicodeEscape then .identifier else (Kind.ofWord? value).getD .identifier

def escapedName (w : Window) (pos : Nat) : Lexeme :=
  match w.nameEscape? pos with
  | some (c, length, braced) =>
    if w.isStart c then
      let rest := w.nameParts (pos + length) (pos + length)
      let flags := escapeFlags braced ||| rest.flags
      ⟨⟨rest.stop, c.toString ++ rest.value, flags, []⟩, .identifier⟩
    else ⟨⟨pos + 1, "", .empty, [⟨.invalidCharacter, pos, 1, none⟩]⟩, .unknown⟩
  | none => ⟨⟨pos + 1, "", .empty, [⟨.invalidCharacter, pos, 1, none⟩]⟩, .unknown⟩

def privateName (w : Window) (pos : Nat) : Lexeme :=
  let stray : Lexeme := ⟨⟨pos + 1, "", .empty, [⟨.invalidCharacter, pos, 1, none⟩]⟩, .hashToken⟩
  match w.char? (pos + 1) with
  | some c =>
    if w.isStart c then ⟨w.nameParts pos (pos + 1 + c.utf8Size), .privateIdentifier⟩ else stray
  | none => stray

end Window

end ScriptFrontend.Token
