import ScriptFrontend.Text.Bytes

/-!
# Trivia and lines

Blanks, line breaks and comments between tokens are trivia. `skipTrivia` finds the first offset
after them. `LineMap` holds the offsets where lines start, for turning an offset into a line and a
column; only carriage return, line feed and the pair of them end a line here.
-/

namespace ScriptFrontend.Text

def isUnicodeBlank (c : Char) : Bool :=
  let n := c.toNat
  (0x09 ≤ n && n ≤ 0x0D) || n == 0x20 || n == 0x85 || n == 0xA0 || n == 0x1680 ||
    (0x2000 ≤ n && n ≤ 0x200A) || n == 0x2028 || n == 0x2029 || n == 0x202F || n == 0x205F ||
    n == 0x3000

/-- The first carriage return or line feed from an offset on, or the end of the text. -/
def lineEnd (s : String) (i : Nat) : Nat :=
  findByte s (fun b => b == 0x0A || b == 0x0D) i

def blockCommentEnd (s : String) (i : Nat) : Nat :=
  match findWord? s "*/" (i + 2) with
  | some close => close + 2
  | none => s.utf8ByteSize

def triviaStep? (s : String) (i : Nat) : Option Nat :=
  if i < s.utf8ByteSize then
    let b := byteAt s i
    if b == 0x20 || (0x09 ≤ b && b ≤ 0x0D) then some (i + 1)
    else if b == 0x2F && byteIs s (i + 1) 0x2F then some (lineEnd s i)
    else if b == 0x2F && byteIs s (i + 1) 0x2A then some (blockCommentEnd s i)
    else if b ≥ 0x80 then
      match charAt? s i with
      | some c => if isUnicodeBlank c || c == '\uFEFF' then some (i + c.utf8Size) else none
      | none => none
    else none
  else none

/-- The offset of the first significant character from `pos` on. A first line that starts with
`#!` is trivia as a whole. -/
def skipTrivia (s : String) (pos : Nat) : Nat :=
  let start := if pos == 0 && startsAt s 0 "#!" then lineEnd s 0 else pos
  go (s.utf8ByteSize - start) start
where
  go : Nat → Nat → Nat
    | 0, i => i
    | fuel + 1, i =>
      match triviaStep? s i with
      | some next => go fuel next
      | none => i

/-- The offsets at which the lines of a text start, in ascending order. -/
structure LineMap where
  starts : Array Nat
deriving Repr, Inhabited

namespace LineMap

def ofText (s : String) : LineMap :=
  ⟨go s.utf8ByteSize 0 #[0]⟩
where
  go : Nat → Nat → Array Nat → Array Nat
    | 0, _, acc => acc
    | fuel + 1, i, acc =>
      if i < s.utf8ByteSize then
        let b := byteAt s i
        if b == 0x0D then
          let next := if byteIs s (i + 1) 0x0A then i + 2 else i + 1
          go fuel next (acc.push next)
        else if b == 0x0A then go fuel (i + 1) (acc.push (i + 1))
        else go fuel (i + 1) acc
      else acc

def lineOf (m : LineMap) (pos : Nat) : Nat :=
  go (m.starts.size - 1) 0
where
  go : Nat → Nat → Nat
    | 0, line => line
    | fuel + 1, line => if m.starts.getD (line + 1) 0 ≤ pos then go fuel (line + 1) else line

def lineAndColumn (m : LineMap) (pos : Nat) : Nat × Nat :=
  let line := m.lineOf pos
  (line, pos - m.starts.getD line 0)

end LineMap

end ScriptFrontend.Text
