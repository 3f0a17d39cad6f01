import ScriptFrontend.Tree.Form

/-!
# Outlines of trees

An outline is a tree as a table: one row per node and per list, each before its children, with its
depth. Documentation comments follow the children of the node they hang on.
-/

namespace ScriptFrontend

inductive RowSubject where
  | node (kind : Kind) (shape : Shape) (id : Nat) (isDoc : Bool)
  | list (trailingComma : Bool) (missing : Bool)
deriving DecidableEq, Repr, Inhabited

structure Row where
  depth : Nat
  pos : Nat
  stop : Nat
  flags : NodeFlags
  subject : RowSubject
deriving DecidableEq, Repr, Inhabited

namespace Node

mutual

def outlineAt (depth : Nat) (isDoc : Bool) : Node → List Row
  | .mk h s slots docs _ =>
    ⟨depth, h.pos, h.stop, h.flags, .node h.kind s h.id isDoc⟩ ::
      (outlineSlots (depth + 1) slots ++ outlineItems (depth + 1) true docs)

def outlineSlots (depth : Nat) : List Slot → List Row
  | [] => []
  | slot :: rest => outlineSlot depth slot ++ outlineSlots depth rest

def outlineSlot (depth : Nat) : Slot → List Row
  | .absent => []
  | .node n => outlineAt depth false n
  | .list head items =>
    ⟨depth, head.pos, head.stop, .empty, .list head.trailingComma head.missing⟩ ::
      outlineItems (depth + 1) false items

def outlineItems (depth : Nat) (isDoc : Bool) : List Node → List Row
  | [] => []
  | n :: rest => outlineAt depth isDoc n ++ outlineItems depth isDoc rest

end

def outline (n : Node) : List Row := n.outlineAt 0 false

end Node

namespace Row

/-- A row without what depends on how the tree came to be: the numbers of nodes and the kept
answers about errors. -/
def essence (r : Row) : Row :=
  { r with
    flags := r.flags.without (NodeFlags.subtreeHasError ||| NodeFlags.subtreeChecked)
    subject := match r.subject with
      | .node kind shape _ isDoc => .node kind shape 0 isDoc
      | subject => subject }

end Row

/-- Two trees are the same but for the numbers of their nodes and the kept answers about errors. -/
def Node.sameOutline (a b : Node) : Bool :=
  a.outline.map Row.essence == b.outline.map Row.essence

end ScriptFrontend
