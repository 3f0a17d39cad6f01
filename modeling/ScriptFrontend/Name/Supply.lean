import Std.Data.HashSet

/-!
# New names

A supply knows the names that are taken: those of a file, and those it gave out. It searches a
sequence of different names for the first one that is free, so that looking at one more name than
are taken always finds one.
-/

namespace ScriptFrontend

structure NameSupply where
  used : Std.HashSet String := {}
  nextTemporary : Nat := 0
deriving Inhabited

namespace NameSupply

def ofNames (names : List String) : NameSupply := { used := Std.HashSet.ofList names }

def isFree (s : NameSupply) (name : String) : Bool := !s.used.contains name

def take (s : NameSupply) (name : String) : NameSupply := { s with used := s.used.insert name }

def stem (base : String) : String := if base.endsWith "_" then base else base ++ "_"

/-- The first free name of a base with a number, which starts at one. -/
def unique (s : NameSupply) (base : String) : String × NameSupply :=
  let candidate (i : Nat) := stem base ++ toString (i + 1)
  let i := ((List.range (s.used.size + 1)).find? fun i => s.isFree (candidate i)).getD 0
  (candidate i, s.take (candidate i))

/-- The temporary name with a number: small letters except for two, and then numbers. -/
def temporaryName? (n : Nat) : Option String :=
  if n < 26 then
    let letter := Char.ofNat ('a'.toNat + n)
    if letter == 'i' || letter == 'n' then none else some (String.ofList ['_', letter])
  else some ("_" ++ toString (n - 26))

/-- The next free temporary name. Names that were passed over are not looked at again. -/
def temporary (s : NameSupply) : String × NameSupply :=
  let candidates := List.range' s.nextTemporary (s.used.size + 3)
  let found := candidates.findSome? fun n =>
    ((temporaryName? n).filter s.isFree).map fun name => (n, name)
  match found with
  | some (n, name) => (name, { s.take name with nextTemporary := n + 1 })
  | none => ("_", s)

end NameSupply

def isNameChar (c : Char) : Bool := c.isAlphanum || c == '_'

def moduleStem (moduleName : String) : String :=
  let cs := moduleName.toList
  let last := (cs.reverse.takeWhile fun c => c != '/' && c != '\\').reverse
  if last.isEmpty then "module"
  else
    let lead := if last.head?.any (·.isDigit) then ['_'] else []
    String.ofList (lead ++ last.map fun c => if isNameChar c then c else '_')

end ScriptFrontend
