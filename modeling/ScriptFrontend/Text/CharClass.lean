import ScriptFrontend.Text.IdentifierRanges

/-!
# Character classes of the language

Which characters end a line, separate tokens, and form identifiers. A dollar sign and a low line
count as letters; the zero-width joiners may continue an identifier.
-/

namespace ScriptFrontend.Text

def isLineBreak (c : Char) : Bool :=
  c == '\n' || c == '\r' || c == '\u2028' || c == '\u2029'

def isBlank (c : Char) : Bool :=
  c == ' ' || c == '\t' || c == '\u000B' || c == '\u000C' || c == '\u00A0' || c == '\u0085' ||
    c == '\u1680' || ('\u2000' ≤ c && c ≤ '\u200B') || c == '\u202F' || c == '\u205F' ||
    c == '\u3000' || c == '\uFEFF'

def isBlankOrLineBreak (c : Char) : Bool := isBlank c || isLineBreak c

def isIdentifierStart (c : Char) : Bool :=
  c == '_' || c == '$' || c.isAlpha || (c.toNat > 0x7F && inRanges identifierStartRanges c.toNat)

def isIdentifierPart (c : Char) : Bool :=
  isIdentifierStart c || c.isDigit || c == '\u200C' || c == '\u200D' ||
    (c.toNat > 0x7F && inRanges identifierExtendRanges c.toNat)

def isIdentifierText (s : String) : Bool :=
  match s.toList with
  | [] => false
  | c :: rest => isIdentifierStart c && rest.all isIdentifierPart

def isDigit (b : UInt8) : Bool := 0x30 ≤ b && b ≤ 0x39

def isOctalDigit (b : UInt8) : Bool := 0x30 ≤ b && b ≤ 0x37

def isBinaryDigit (b : UInt8) : Bool := b == 0x30 || b == 0x31

def isHexDigit (b : UInt8) : Bool :=
  isDigit b || (0x41 ≤ b && b ≤ 0x46) || (0x61 ≤ b && b ≤ 0x66)

def hexValue (b : UInt8) : Nat :=
  if isDigit b then b.toNat - 0x30
  else if 0x41 ≤ b && b ≤ 0x46 then b.toNat - 0x37
  else b.toNat - 0x57

def hexNumber (digits : String) : Nat :=
  digits.toUTF8.toList.foldl (fun n b => n * 16 + hexValue b) 0

def asciiLower (s : String) : String := String.ofList (s.toList.map Char.toLower)

end ScriptFrontend.Text
