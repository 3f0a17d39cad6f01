import ScriptFrontend.Text.Path

/-!
# Patterns of paths

A star stands for any part of a name, a question mark for one character of it, and two stars before a
slash for any number of directories. A pattern that matches a directory also covers everything below
it.
-/

namespace ScriptFrontend

inductive GlobPart where
  | char (c : Char)
  | one
  | star
  | anything
  | directories
deriving DecidableEq, Repr

structure Glob where
  parts : List GlobPart
deriving DecidableEq, Repr

namespace Glob

def partsOf : List Char → List GlobPart
  | [] => []
  | '*' :: '*' :: '/' :: cs => .directories :: partsOf cs
  | '*' :: '*' :: cs => .anything :: partsOf cs
  | '*' :: cs => .star :: partsOf cs
  | '?' :: cs => .one :: partsOf cs
  | c :: cs => .char c :: partsOf cs

def dropHere : List Char → List Char
  | '.' :: '/' :: cs => dropHere cs
  | cs => cs

/-- The pattern of a text. What leads to the same directory is left out at its start, and slashes at
its end; backslashes separate names as slashes do. -/
def ofText (text : String) : Glob :=
  let cs := ((dropHere text.toList).reverse.dropWhile (· == '/')).reverse
  ⟨partsOf (cs.map fun c => if c == '\\' then '/' else c)⟩

/-- What parts of a pattern say of a text. -/
structure Outcome where
  isMatch : Bool
  isMatchBehind : Bool
deriving DecidableEq, Repr, Inhabited

def firstOf (row : List Outcome) : Outcome := row.headD ⟨false, false⟩

def endRow : List GlobPart → List Outcome
  | [] => [⟨true, false⟩]
  | part :: parts =>
    let row := endRow parts
    let isMatch :=
      match part with
      | .char _ | .one => false
      | .star | .anything | .directories => (firstOf row).isMatch
    ⟨isMatch, false⟩ :: row

def rowBefore (c : Char) (text : List Char) : List GlobPart → List Outcome → List Outcome
  | [], _ => [⟨c == '/' && !text.contains '\n', false⟩]
  | _, [] => []
  | part :: parts, old :: olds =>
    let row := rowBefore c text parts olds
    let isMatch :=
      match part with
      | .char d => c == d && (firstOf olds).isMatch
      | .one => c != '/' && (firstOf olds).isMatch
      | .star => (firstOf row).isMatch || (c != '/' && old.isMatch)
      | .anything => (firstOf row).isMatch || (c != '\n' && old.isMatch)
      | .directories => (firstOf row).isMatch || (c != '/' && old.isMatchBehind)
    ⟨isMatch, if c == '/' then old.isMatch else old.isMatchBehind⟩ :: row

def rowOf (parts : List GlobPart) : List Char → List Outcome
  | [] => endRow parts
  | c :: cs => rowBefore c cs parts (rowOf parts cs)

def matchesPath (g : Glob) (path : String) : Bool := (firstOf (rowOf g.parts path.toList)).isMatch

end Glob

namespace Path

/-- The directories above a relative path and the path itself, from the top. -/
def prefixes (path : String) : List String :=
  let names := pieces path
  (List.range names.length).map fun i => ofPieces (names.take (i + 1))

def sourceExtensions : List String := ["ts", "tsx", "mts", "cts", "js", "jsx", "mjs", "cjs"]

def isSource (path : String) : Bool :=
  (extension? path).any fun e => sourceExtensions.contains (e.map Char.toLower)

/-- The sources among the files below a directory, given by their paths from there, that some pattern
includes and none excludes, in order. What is below an excluded directory is excluded too. -/
def discover (files included excluded : List String) : List String :=
  let included := included.map Glob.ofText
  let excluded := excluded.map Glob.ofText
  let isExcluded (path : String) := excluded.any (·.matchesPath path)
  (files.filter fun path =>
    isSource path && !(prefixes path).any isExcluded && included.any (·.matchesPath path)).mergeSort le

end Path

end ScriptFrontend
