/-!
# Numbers of double precision

A finite number is a whole number of at most 53 bits times a power of two. Everything else is rounded
to the nearest such number, and to the one with an even mantissa where two are as near. What is too
large becomes infinite.
-/

namespace ScriptFrontend

/-- A number `mantissa * 2 ^ exponent`, or one beyond the largest of them. -/
inductive Double where
  | finite (mantissa exponent : Int)
  | infinite (negative : Bool)
deriving DecidableEq, Repr, Inhabited

namespace Double

def leastExponent : Int := -1074

def greatestExponent : Int := 971

def twos (n : Nat) : Nat := Nat.pow 2 n

def tens (n : Nat) : Nat := Nat.pow 10 n

def zero : Double := .finite 0 leastExponent

def withSign (negative : Bool) (n : Nat) : Int := if negative then -n else n

/-- The whole number nearest to `n / d`, the even one of two. -/
def nearest (n d : Nat) : Nat :=
  let q := n / d
  let r := 2 * (n % d)
  if r < d || (r == d && q % 2 == 0) then q else q + 1

def unscaled (n d : Nat) (e : Int) : Nat × Nat :=
  if 0 ≤ e then (n, d * twos e.toNat) else (n * twos (-e).toNat, d)

/-- The exponent of the numbers around the positive fraction `n / d`. -/
def exponentOf (n d : Nat) : Int :=
  let e := (n.log2 : Int) - d.log2 - 52
  let (a, b) := unscaled n d e
  max (if a < twos 52 * b then e - 1 else e) leastExponent

def ofRatio (negative : Bool) (n d : Nat) : Double :=
  if n = 0 then zero
  else
    let e := exponentOf n d
    let (a, b) := unscaled n d e
    let m := nearest a b
    let (m, e) := if m == twos 53 then (twos 52, e + 1) else (m, e)
    if greatestExponent < e then .infinite negative else .finite (withSign negative m) e

def ofNat (n : Nat) : Double := ofRatio false n 1

def neg : Double → Double
  | .finite m e => .finite (-m) e
  | .infinite negative => .infinite !negative

def succ : Double → Double
  | .finite m e =>
    let d : Nat := twos (-e).toNat
    let n : Int := m * twos e.toNat + d
    ofRatio (n < 0) n.natAbs d
  | .infinite negative => .infinite negative

def ratio (m e : Int) : Nat × Nat := (m.natAbs * twos e.toNat, twos (-e).toNat)

/-! ## Reading -/

def ofDecimal (digits : Nat) (exponent : Int) : Double :=
  let magnitude : Int := (Nat.toDigits 10 digits).length + exponent
  if digits = 0 || magnitude < -330 then zero
  else if magnitude > 310 then .infinite false
  else ofRatio false (digits * tens exponent.toNat) (tens (-exponent).toNat)

def digitValue? (radix : Nat) (c : Char) : Option Nat :=
  let value :=
    if c.isDigit then some (c.toNat - 48)
    else if 'a' ≤ c && c ≤ 'f' then some (c.toNat - 87)
    else none
  value.filter (· < radix)

def digitsValue? (radix : Nat) (cs : List Char) : Option Nat :=
  if cs.isEmpty then none
  else cs.foldlM (fun n c => (digitValue? radix c).map (n * radix + ·)) 0

def ofDigits? (radix : Nat) (cs : List Char) : Option Double :=
  ((digitsValue? radix cs).filter (· < twos 64)).map ofNat

def exponentValue? : List Char → Option Int
  | '-' :: cs => (digitsValue? 10 cs).map (-·)
  | '+' :: cs => (digitsValue? 10 cs).map (·)
  | cs => (digitsValue? 10 cs).map (·)

def ofDecimalText? (cs : List Char) : Option Double := do
  let (mantissa, rest) := cs.span (· != 'e')
  let (whole, fraction) := mantissa.span (· != '.')
  let fraction := fraction.drop 1
  let digits ← digitsValue? 10 (whole ++ fraction)
  let exponent ← if rest.isEmpty then some 0 else exponentValue? (rest.drop 1)
  return ofDecimal digits (exponent - fraction.length)

def ofLiteral? (text : String) : Option Double :=
  let cs := (text.toList.filter (· != '_')).map Char.toLower
  let whole :=
    match cs with
    | '0' :: 'x' :: digits => ofDigits? 16 digits
    | '0' :: 'o' :: digits => ofDigits? 8 digits
    | '0' :: 'b' :: digits => ofDigits? 2 digits
    | _ => none
  whole <|> ofDecimalText? cs

/-! ## Writing -/

/-- How many digits a positive fraction has before the point; for each zero behind the point that
comes before the first other digit, one less than none. -/
def wholeDigits (n d : Nat) : Int :=
  if d ≤ n then (Nat.toDigits 10 (n / d)).length
  else 1 - ((List.range 330).find? fun j => d ≤ n * tens j).getD 0

def positional (digits : Nat) (exponent : Int) : String :=
  let cs := Nat.toDigits 10 digits
  let zeros (n : Nat) := List.replicate n '0'
  let places := (-exponent).toNat
  String.ofList <|
    if 0 ≤ exponent then cs ++ zeros exponent.toNat
    else if places < cs.length then cs.take (cs.length - places) ++ '.' :: cs.drop (cs.length - places)
    else '0' :: '.' :: zeros (places - cs.length) ++ cs

/-- A decimal number of `count` digits; a power of ten is written with one of them. -/
def atPlaces (count digits : Nat) (exponent : Int) : Nat × Int :=
  if digits == tens count then (1, exponent + count) else (digits, exponent)

/-- The decimal number with `count` digits that is read as the fraction `n / d` again: the nearer one
of two, and the larger one where they are as near. -/
def withDigits? (n d count : Nat) : Option (Nat × Int) :=
  let exponent := wholeDigits n d - count
  let a := n * tens (-exponent).toNat
  let b := d * tens exponent.toNat
  let below := a / b
  let isRead (digits : Nat) := ofDecimal digits exponent == ofRatio false n d
  let found :=
    match isRead below, isRead (below + 1) with
    | true, true => some (if 2 * (a % b) < b then below else below + 1)
    | true, false => some below
    | false, true => some (below + 1)
    | false, false => none
  found.map (atPlaces count · exponent)

/-- The decimal number with the fewest digits that is read as a positive fraction again. -/
def shortest (n d : Nat) : Nat × Int :=
  ((List.range 17).findSome? fun i => withDigits? n d (i + 1)).getD (n / d, 0)

def signText (negative : Bool) : String := if negative then "-" else ""

def toText : Double → String
  | .infinite negative => signText negative ++ "inf"
  | .finite m e =>
    let (n, d) := ratio m e
    if n % d == 0 && n / d < tens 15 then signText (m < 0) ++ toString (n / d)
    else
      let (digits, exponent) := shortest n d
      signText (m < 0) ++ positional digits exponent

end Double

end ScriptFrontend
