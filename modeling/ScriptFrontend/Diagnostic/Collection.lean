import ScriptFrontend.Diagnostic.Basic

/-!
# Collections of diagnostics

Diagnostics stand in the order in which they were recorded. Beside the list a collection counts,
per offset, how many of them start there; `addUniqueStart` refuses one that starts where another
does, and taking diagnostics away frees their offsets.
-/

namespace ScriptFrontend.Diagnostic

structure Collection where
  items : Array Diagnostic := #[]
  /-- How many recorded diagnostics start at an offset. -/
  starts : List (Nat × Nat) := []
deriving Repr, Inhabited

namespace Collection

def empty : Collection := {}

def countStart (start : Nat) : List (Nat × Nat) → List (Nat × Nat)
  | [] => [(start, 1)]
  | (k, n) :: rest => if k = start then (k, n + 1) :: rest else (k, n) :: countStart start rest

def forgetStart (start : Nat) : List (Nat × Nat) → List (Nat × Nat)
  | [] => []
  | (k, n) :: rest =>
    if k = start then (if n ≤ 1 then rest else (k, n - 1) :: rest)
    else (k, n) :: forgetStart start rest

def add (c : Collection) (d : Diagnostic) : Collection where
  items := c.items.push d
  starts := match d.start? with
    | some start => countStart start c.starts
    | none => c.starts

def hasStart (c : Collection) (start : Nat) : Bool := c.starts.any (·.1 == start)

/-- Records the diagnostic unless another one starts where it does, and tells whether it did. -/
def addUniqueStart (c : Collection) (d : Diagnostic) : Bool × Collection :=
  match d.start? with
  | some start => if c.hasStart start then (false, c) else (true, c.add d)
  | none => (true, c.add d)

def size (c : Collection) : Nat := c.items.size

def isEmpty (c : Collection) : Bool := c.items.isEmpty

def hasErrors (c : Collection) : Bool := c.items.any isError

def errorCount (c : Collection) : Nat := c.items.toList.countP isError

def modifyLast (c : Collection) (f : Diagnostic → Diagnostic) : Bool × Collection :=
  if c.items.isEmpty then (false, c)
  else (true, { c with items := c.items.modify (c.items.size - 1) f })

def splitOff (c : Collection) (n : Nat) : List Diagnostic × Collection :=
  let removed := (c.items.extract n c.items.size).toList
  (removed,
    { items := c.items.extract 0 n
      starts := (removed.filterMap start?).foldl (fun s start => forgetStart start s) c.starts })

def truncate (c : Collection) (n : Nat) : Collection := (c.splitOff n).2

def extend (c other : Collection) : Collection := other.items.foldl add c

def placeLe (a b : Diagnostic) : Bool :=
  match a.file, b.file with
  | none, some _ => true
  | some _, none => false
  | none, none => a.start?.getD 0 ≤ b.start?.getD 0
  | some f, some g =>
    if f = g then a.start?.getD 0 ≤ b.start?.getD 0 else decide (f < g)

/-- Sorted by file and start; diagnostics of one place keep their order. -/
def sort (c : Collection) : Collection :=
  { c with items := (c.items.toList.mergeSort placeLe).toArray }

end Collection

end ScriptFrontend.Diagnostic
