/-!
# Byte offsets into a text

Every position of the library is a byte offset into the UTF-8 form of a text. This module reads a
text at such an offset: the byte, the character that starts there, and the part between two
offsets. Offsets past the end are answered, never refused: there is no byte and no character, and
a part ends where the text ends.
-/

namespace ScriptFrontend.Text

/-- The byte at offset `i`; zero past the end. -/
@[inline]
def byteAt (s : String) (i : Nat) : UInt8 :=
  if h : (⟨i⟩ : String.Pos.Raw) < s.rawEndPos then s.getUTF8Byte ⟨i⟩ h else 0

@[inline]
def byteIs (s : String) (i : Nat) (b : UInt8) : Bool :=
  i < s.utf8ByteSize && byteAt s i == b

@[inline]
def charAt? (s : String) (i : Nat) : Option Char :=
  if i < s.utf8ByteSize then some (String.Pos.Raw.get s ⟨i⟩) else none

/-- The part of the text between two offsets. -/
@[inline]
def slice (s : String) (start stop : Nat) : String :=
  String.Pos.Raw.extract s ⟨start⟩ ⟨stop⟩

@[inline]
def dropTo (s : String) (start : Nat) : String :=
  slice s start s.utf8ByteSize

def isBoundary (s : String) (i : Nat) : Bool :=
  if i < s.utf8ByteSize then byteAt s i &&& 0xC0 != 0x80 else i == s.utf8ByteSize

def startsAt (s : String) (i : Nat) (word : String) : Bool :=
  go word.utf8ByteSize 0
where
  go : Nat → Nat → Bool
    | 0, _ => true
    | fuel + 1, k => byteIs s (i + k) (byteAt word k) && go fuel (k + 1)

/-- The first offset from `i` on that meets the test, or the end of the text. -/
def findByte (s : String) (p : UInt8 → Bool) (i : Nat) : Nat :=
  go (s.utf8ByteSize - i) i
where
  go : Nat → Nat → Nat
    | 0, k => k
    | fuel + 1, k => if p (byteAt s k) then k else go fuel (k + 1)

def findWord? (s word : String) (i : Nat) : Option Nat :=
  go (s.utf8ByteSize + 1 - i) i
where
  go : Nat → Nat → Option Nat
    | 0, _ => none
    | fuel + 1, k => if startsAt s k word then some k else go fuel (k + 1)

def contains (s word : String) : Bool := (findWord? s word 0).isSome

def lineStart (s : String) : Nat → Nat
  | 0 => 0
  | i + 1 => if byteIs s i 0x0a then i + 1 else lineStart s i

end ScriptFrontend.Text
