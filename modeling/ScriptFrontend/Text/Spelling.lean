import ScriptFrontend.Number.Double
import ScriptFrontend.Text.CharClass

/-!
# Words close to a misspelled one

The distance of two words is the cost of turning one into the other by putting characters in, taking
them out and replacing them. A character costs one, replacing one by another two, and replacing one by
the same letter in another case a tenth. Costs are numbers of double precision, and every sum is
rounded to one, so that the last bit decides between words that are as close. A suggestion is the
closest of some words, the first of several, if it is close enough for the length of the word.
-/

namespace ScriptFrontend.Text

/-- A cost in units of `2 ^ -56`, the finest that a tenth is made of. -/
structure Cost where
  units : Nat
deriving DecidableEq, Repr, Inhabited

namespace Cost

/-- The nearest cost whose units have at most 53 bits and zeros behind them. -/
def rounded (n : Nat) : Cost :=
  let unit := Double.twos (n.log2 - 52)
  ⟨Double.nearest n unit * unit⟩

def ofNat (n : Nat) : Cost := ⟨n * Double.twos 56⟩

def tenth : Cost := ⟨Double.nearest (Double.twos 56) 10⟩

def add (a b : Cost) : Cost := rounded (a.units + b.units)

def sub (a b : Cost) : Cost := rounded (a.units - b.units)

def min (a b : Cost) : Cost := if a.units ≤ b.units then a else b

end Cost

/-- The letters are the same but for their case. The sign for kelvin is a large letter as well. -/
def sameLetter (a b : Char) : Bool :=
  lower a == lower b
where
  lower (c : Char) : Char := if c == '\u212A' then 'k' else c.toLower

def replacementCost (a b : Char) : Cost := if sameLetter a b then .tenth else .ofNat 2

/-- The next row of the table of distances. `above` is the row before it, from the column on whose
first entry is `corner`, and `left` is the entry of the new row under the corner. -/
def nextRow (a : Char) : List Char → Cost → List Cost → Cost → List Cost
  | b :: bs, corner, up :: above, left =>
    let cost :=
      if a == b then corner
      else ((up.add (.ofNat 1)).min (left.add (.ofNat 1))).min (corner.add (replacementCost a b))
    cost :: nextRow a bs up above cost
  | _, _, _, _ => []

/-- The table of distances row by row: `row` holds the distances of the first `n` characters of a word
to all beginnings of `b`, and the rest of the word follows. -/
def lastRow (b : List Char) : Nat → List Char → List Cost → List Cost
  | _, [], row => row
  | n, c :: rest, row =>
    match row with
    | [] => []
    | corner :: above =>
      let left := Cost.ofNat (n + 1)
      lastRow b (n + 1) rest (left :: nextRow c b corner above left)

def distance (a b : String) : Cost :=
  let first := (List.range (b.length + 1)).map Cost.ofNat
  ((lastRow b.toList 0 a.toList first).getLast?).getD (.ofNat 0)

/-- The closest of some words. The lengths may differ by two characters or a third of the length, and
the distance stays below two fifths of the length and one character. -/
def closestWord? (word : String) (candidates : List String) : Option String :=
  let size := word.length
  let maxDifference := max 2 (size * 34 / 100)
  let start : Cost × Option String := (.ofNat (size * 4 / 10 + 1), none)
  (candidates.foldl (fun (best, found) candidate =>
    let length := candidate.length
    if length - size > maxDifference || size - length > maxDifference || candidate == word then
      (best, found)
    else if length < 3 && asciiLower candidate != asciiLower word then (best, found)
    else
      let d := distance word candidate
      if d.units ≤ (best.sub .tenth).units then (d, some candidate) else (best, found)) start).2

end ScriptFrontend.Text
