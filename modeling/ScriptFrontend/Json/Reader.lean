/-!
# Reading JSON

A text is JSON if it is one value with nothing but blanks around it. Lists and objects have commas
between their items only, and the control characters of a string are escaped. An escape in a string
may stand for half of a character; such a string is read, but has no text. Members keep their order
and are kept even where two have one name.
-/

namespace ScriptFrontend

/-- A value as it was written. The text of a number is not kept. -/
inductive JsonText where
  | null
  | bool (value : Bool)
  | number
  | string (text : Option String)
  | array (items : List JsonText)
  | object (members : List (Option String × JsonText))
deriving Inhabited

namespace JsonText

def isBlank (c : Char) : Bool := c == ' ' || c == '\n' || c == '\t' || c == '\r'

def skipBlanks (cs : List Char) : List Char := cs.dropWhile isBlank

def behind? : List Char → List Char → Option (List Char)
  | [], cs => some cs
  | _, [] => none
  | w :: word, c :: cs => if w == c then behind? word cs else none

/-! ## Numbers -/

def skipDigits? (cs : List Char) : Option (List Char) :=
  if cs.head?.any (·.isDigit) then some (cs.dropWhile (·.isDigit)) else none

def skipWhole? : List Char → Option (List Char)
  | '0' :: cs => if cs.head?.any (·.isDigit) then none else some cs
  | cs => skipDigits? cs

def skipFraction? : List Char → Option (List Char)
  | '.' :: cs => skipDigits? cs
  | cs => some cs

def skipSign : List Char → List Char
  | '+' :: cs => cs
  | '-' :: cs => cs
  | cs => cs

def skipExponent? : List Char → Option (List Char)
  | 'e' :: cs => skipDigits? (skipSign cs)
  | 'E' :: cs => skipDigits? (skipSign cs)
  | cs => some cs

def number? (cs : List Char) : Option (JsonText × List Char) := do
  let cs := (behind? ['-'] cs).getD cs
  let cs ← skipExponent? (← skipFraction? (← skipWhole? cs))
  return (.number, cs)

/-! ## Strings -/

/-- A piece of a string: a character, or half of one. -/
inductive Unit16 where
  | char (c : Char)
  | high (n : Nat)
  | low (n : Nat)
deriving DecidableEq, Repr

def hexValue? (c : Char) : Option Nat :=
  if c.isDigit then some (c.toNat - 48)
  else if 'a' ≤ c && c ≤ 'f' then some (c.toNat - 87)
  else if 'A' ≤ c && c ≤ 'F' then some (c.toNat - 55)
  else none

def unitOf (n : Nat) : Unit16 :=
  if 0xd800 ≤ n && n < 0xdc00 then .high n
  else if 0xdc00 ≤ n && n < 0xe000 then .low n
  else .char (Char.ofNat n)

def escape? : List Char → Option (Unit16 × List Char)
  | '"' :: cs => some (.char '"', cs)
  | '\\' :: cs => some (.char '\\', cs)
  | '/' :: cs => some (.char '/', cs)
  | 'b' :: cs => some (.char '\x08', cs)
  | 'f' :: cs => some (.char '\x0c', cs)
  | 'n' :: cs => some (.char '\n', cs)
  | 'r' :: cs => some (.char '\r', cs)
  | 't' :: cs => some (.char '\t', cs)
  | 'u' :: a :: b :: c :: d :: cs => do
    let n ← [a, b, c, d].foldlM (fun n x => (hexValue? x).map (16 * n + ·)) 0
    some (unitOf n, cs)
  | _ => none

/-- The pieces of a string from behind its first quote on, and the rest behind its last. -/
def units : Nat → List Char → Option (List Unit16 × List Char)
  | 0, _ => none
  | _, [] => none
  | _, '"' :: cs => some ([], cs)
  | fuel + 1, '\\' :: cs => do
    let (unit, cs) ← escape? cs
    let (rest, cs) ← units fuel cs
    return (unit :: rest, cs)
  | fuel + 1, c :: cs =>
    if c.toNat < 0x20 then none
    else do
      let (rest, cs) ← units fuel cs
      return (.char c :: rest, cs)

/-- The characters of pieces, if both halves of each stand side by side. -/
def characters? : List Unit16 → Option (List Char)
  | [] => some []
  | .char c :: rest => (characters? rest).map (c :: ·)
  | .high h :: .low l :: rest =>
    (characters? rest).map (Char.ofNat (0x10000 + (h - 0xd800) * 0x400 + (l - 0xdc00)) :: ·)
  | _ => none

def string? (fuel : Nat) (cs : List Char) : Option (Option String × List Char) := do
  let cs ← behind? ['"'] cs
  let (pieces, cs) ← units fuel cs
  return ((characters? pieces).map String.ofList, cs)

/-! ## Values -/

def mark? (c : Char) (cs : List Char) : Option (List Char) := behind? [c] (skipBlanks cs)

mutual

def value? : Nat → List Char → Option (JsonText × List Char)
  | 0, _ => none
  | fuel + 1, cs =>
    match skipBlanks cs with
    | 'n' :: cs => (behind? ['u', 'l', 'l'] cs).map (.null, ·)
    | 't' :: cs => (behind? ['r', 'u', 'e'] cs).map (.bool true, ·)
    | 'f' :: cs => (behind? ['a', 'l', 's', 'e'] cs).map (.bool false, ·)
    | '"' :: cs => (string? fuel ('"' :: cs)).map fun (text, cs) => (.string text, cs)
    | '[' :: cs =>
      match mark? ']' cs with
      | some cs => some (.array [], cs)
      | none => (items? fuel cs).map fun (items, cs) => (.array items, cs)
    | '\x7b' :: cs =>
      match mark? '\x7d' cs with
      | some cs => some (.object [], cs)
      | none => (members? fuel cs).map fun (members, cs) => (.object members, cs)
    | cs => number? cs

def items? : Nat → List Char → Option (List JsonText × List Char)
  | 0, _ => none
  | fuel + 1, cs => do
    let (item, cs) ← value? fuel cs
    match mark? ',' cs with
    | some cs =>
      let (rest, cs) ← items? fuel cs
      return (item :: rest, cs)
    | none => return ([item], ← mark? ']' cs)

def members? : Nat → List Char → Option (List (Option String × JsonText) × List Char)
  | 0, _ => none
  | fuel + 1, cs => do
    let (key, cs) ← string? fuel (skipBlanks cs)
    let (item, cs) ← value? fuel (← mark? ':' cs)
    match mark? ',' cs with
    | some cs =>
      let (rest, cs) ← members? fuel cs
      return ((key, item) :: rest, cs)
    | none => return ([(key, item)], ← mark? '\x7d' cs)

end

def parse? (text : String) : Option JsonText := do
  let (value, rest) ← value? (2 * text.length + 2) text.toList
  if (skipBlanks rest).isEmpty then some value else none

/-! ## Records -/

/-- The fields of a record by their names. A record is an object, which may have other members but
none twice, or a list of all fields in order. -/
def fields? (names : List String) : JsonText → Option (List JsonText)
  | .array items => if items.length == names.length then some items else none
  | .object members => do
    let keys ← members.mapM (·.1)
    if names.any fun name => 1 < keys.count name then none
    return names.map fun name => (members.lookup (some name)).getD .null
  | _ => none

def optional? {α : Type} (read : JsonText → Option α) : JsonText → Option (Option α)
  | .null => some none
  | v => (read v).map some

def text? : JsonText → Option String
  | .string text => text
  | _ => none

def bool? : JsonText → Option Bool
  | .bool value => some value
  | _ => none

def texts? : JsonText → Option (List String)
  | .array items => items.mapM text?
  | _ => none

end JsonText

end ScriptFrontend
