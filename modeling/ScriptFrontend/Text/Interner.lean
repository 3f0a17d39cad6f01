/-!
# Interned names and grouped values

An `Interner` numbers distinct names in the order of their first appearance. A `MultiMap` groups
values by key: keys stand in the order of their first insertion, and the values of a key in the
order of theirs.
-/

namespace ScriptFrontend

structure Interner where
  names : Array String := #[]
deriving Repr, Inhabited

namespace Interner

def empty : Interner := ⟨#[]⟩

def size (t : Interner) : Nat := t.names.size

def handle? (t : Interner) (name : String) : Option Nat := t.names.finIdxOf? name |>.map (·.val)

def intern (t : Interner) (name : String) : Nat × Interner :=
  match t.handle? name with
  | some i => (i, t)
  | none => (t.size, ⟨t.names.push name⟩)

def resolve (t : Interner) (i : Nat) : String := t.names.getD i ""

end Interner

structure MultiMap (α β : Type) where
  groups : List (α × List β) := []
deriving Repr, Inhabited

namespace MultiMap

variable {α β : Type} [BEq α]

def empty : MultiMap α β := ⟨[]⟩

def isEmpty (m : MultiMap α β) : Bool := m.groups.isEmpty

def size (m : MultiMap α β) : Nat := m.groups.length

def get? (m : MultiMap α β) (key : α) : Option (List β) := m.groups.lookup key

def contains (m : MultiMap α β) (key : α) : Bool := (m.get? key).isSome

def insertInto (key : α) (value : β) : List (α × List β) → List (α × List β)
  | [] => [(key, [value])]
  | (k, vs) :: rest =>
    if k == key then (k, vs ++ [value]) :: rest else (k, vs) :: insertInto key value rest

def insert (m : MultiMap α β) (key : α) (value : β) : MultiMap α β :=
  ⟨insertInto key value m.groups⟩

def getD (m : MultiMap α β) (key : α) : List β := (m.get? key).getD []

end MultiMap

end ScriptFrontend
