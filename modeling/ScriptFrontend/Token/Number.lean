import ScriptFrontend.Token.Window

/-!
# Numeric literals

Decimal numbers keep their text without separators. Numbers with another base are given by their
decimal value while it fits into 128 bits, and by their own text beyond that. A literal that ends in
`n` is a big integer.
-/

namespace ScriptFrontend.Token.Window

open Diagnostic (Fault)

def digits (w : Window) (isValid : UInt8 → Bool) (pos : Nat) : Reading :=
  let r := go (w.stop - pos) pos false false { stop := pos }
  if r.stop > pos && Text.byteAt w.text (r.stop - 1) == 0x5F then
    { r with errors := r.errors ++ [⟨.separatorNotAllowed, r.stop - 1, 1, none⟩] }
  else r
where
  /-- `allowed`: a separator may follow; `repeated`: one stands right before. -/
  go : Nat → Nat → Bool → Bool → Reading → Reading
    | 0, pos, _, _, r => { r with stop := pos }
    | fuel + 1, pos, allowed, repeated, r =>
      if w.byte pos == 0x5F then
        let flags := r.flags ||| TokenFlags.containsSeparator
        if allowed then go fuel (pos + 1) false true { r with flags := flags }
        else
          let fault := if repeated then Fault.repeatedSeparator else .separatorNotAllowed
          go fuel (pos + 1) false repeated
            { r with flags := flags, errors := r.errors ++ [⟨fault, pos, 1, none⟩] }
      else if isValid (w.byte pos) then go fuel (pos + 1) true false r
      else { r with stop := pos }

def withoutSeparators (s : String) : String := String.ofList (s.toList.filter (· != '_'))

def afterNumber (w : Window) (pos : Nat) : Reading :=
  match w.char? pos with
  | some c =>
    if w.isStart c then
      let r := w.nameParts pos (pos + c.utf8Size)
      { stop := pos, flags := r.flags, errors := [⟨.identifierAfterNumber, pos, r.stop - pos, none⟩] }
    else { stop := pos }
  | none => { stop := pos }

/-- The literal with a value, read up to `pos` with flags and errors so far. -/
def finishNumber (w : Window) (pos : Nat) (value : String) (flags : TokenFlags)
    (errors : List ScanError) (mayBeBig : Bool) : Lexeme :=
  if mayBeBig && w.byte pos == 0x6E then
    let r := w.afterNumber (pos + 1)
    ⟨⟨pos + 1, value ++ "n", flags ||| r.flags, errors ++ r.errors⟩, .bigIntLiteral⟩
  else
    let r := w.afterNumber pos
    ⟨⟨pos, value, flags ||| r.flags, errors ++ r.errors⟩, .numericLiteral⟩

def numberIn (base : Nat) (digits : String) : Nat :=
  digits.toList.foldl (fun n c => n * base + Text.hexValue c.toNat.toUInt8) 0

/-- The decimal value of digits in a base, or the given text where it has more than 128 bits. -/
def decimalOr (base : Nat) (digits written : String) : String :=
  let n := numberIn base digits
  if n < Nat.pow 2 128 then toString n else written

def radixNumber (w : Window) (start base : Nat) (isValid : UInt8 → Bool) (flag : TokenFlags)
    (missing : Fault) : Lexeme :=
  let r := w.digits isValid (start + 2)
  let written := withoutSeparators (w.slice (start + 2) r.stop)
  let flags := flag ||| r.flags
  if written.isEmpty then
    w.finishNumber r.stop "0" flags (r.errors ++ [⟨missing, r.stop, 0, none⟩]) true
  else
    w.finishNumber r.stop (decimalOr base written (w.slice start r.stop)) flags r.errors true

def legacyOctal? (w : Window) (start : Nat) : Option Lexeme :=
  let stop := w.skipBytes Text.isDigit (start + 1)
  if w.skipBytes Text.isOctalDigit (start + 1) == stop then
    let value := decimalOr 8 (w.slice (start + 1) stop) (w.slice start stop)
    some (w.finishNumber stop value TokenFlags.octal [] false)
  else none

def exponent (w : Window) (pos : Nat) : Reading :=
  if w.byte pos == 0x65 || w.byte pos == 0x45 then
    let start := if w.byte (pos + 1) == 0x2B || w.byte (pos + 1) == 0x2D then pos + 2 else pos + 1
    let r := w.digits Text.isDigit start
    let errors := if r.stop == start then r.errors ++ [⟨.digitExpected, start, 0, none⟩] else r.errors
    ⟨r.stop, "", TokenFlags.scientific ||| r.flags, errors⟩
  else { stop := pos }

def decimalNumber (w : Window) (start : Nat) : Lexeme :=
  let whole := if w.byte start == 0x2E then { stop := start } else w.digits Text.isDigit start
  let hasPoint := w.byte whole.stop == 0x2E
  let part := if hasPoint then w.digits Text.isDigit (whole.stop + 1) else { stop := whole.stop }
  let power := w.exponent part.stop
  let isInteger := !hasPoint && power.stop == part.stop
  w.finishNumber power.stop (withoutSeparators (w.slice start power.stop))
    (whole.flags ||| part.flags ||| power.flags) (whole.errors ++ part.errors ++ power.errors)
    isInteger

/-- The numeric literal at an offset where a digit, or a point before a digit, stands. -/
def number (w : Window) (start : Nat) : Lexeme :=
  let second := w.byte (start + 1)
  if w.byte start == 0x30 then
    if second == 0x78 || second == 0x58 then
      w.radixNumber start 16 Text.isHexDigit TokenFlags.hexSpecifier .hexDigitExpected
    else if second == 0x62 || second == 0x42 then
      w.radixNumber start 2 Text.isBinaryDigit TokenFlags.binarySpecifier .binaryDigitExpected
    else if second == 0x6F || second == 0x4F then
      w.radixNumber start 8 Text.isOctalDigit TokenFlags.octalSpecifier .octalDigitExpected
    else if Text.isDigit second then
      (w.legacyOctal? start).getD (w.decimalNumber start)
    else w.decimalNumber start
  else w.decimalNumber start

end ScriptFrontend.Token.Window
