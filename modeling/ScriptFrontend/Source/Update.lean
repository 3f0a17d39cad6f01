import ScriptFrontend.Source.File
import ScriptFrontend.Tree.Relocation

/-!
# Updating a source file

After an edit a file is read again with its old tree at hand, so that list elements that the edit does
not touch are taken over. A description of the edit whose sizes do not fit the texts leads to a full
reading; so does, where checks are asked for, a tree that cannot be moved to the new text.
-/

namespace ScriptFrontend.SourceFile

/-- The change leads from one text to the other: it ends inside the old one and their sizes fit, and
with checks the texts agree before and behind it. -/
def describes (c : Text.Change) (oldText newText : String) (checks : Bool) : Bool :=
  let oldSize := oldText.utf8ByteSize
  let newSize := newText.utf8ByteSize
  c.span.stop ≤ oldSize && oldSize + c.newLength == newSize + c.span.length &&
    (!checks ||
      (c.span.start ≤ oldSize && sameBytes c.span.start 0 0 &&
        sameBytes (oldSize - c.span.stop) c.span.stop c.newSpan.stop))
where
  /-- The same bytes stand in both texts from two offsets on. -/
  sameBytes : Nat → Nat → Nat → Bool
    | 0, _, _ => true
    | count + 1, i, j =>
      Text.byteAt oldText i == Text.byteAt newText j && sameBytes count (i + 1) (j + 1)

def readAgain (f : SourceFile) (text : String) : SourceFile :=
  parse f.fileName text f.target f.kind true

/-- Reads a new text with an old tree at hand that was moved to it. -/
def readWith (f : SourceFile) (root : Node) (text : String) : SourceFile :=
  ofScript (.initial f.fileName text f.target f.kind (some (.ofRoot root)) f.nextId) true

def update (f : SourceFile) (text : String) (c : Text.Change) (checks : Bool) : SourceFile :=
  if !describes c f.text text checks then f.readAgain text
  else if c.isUnchanged then f
  else if f.statements.isEmpty then f.readAgain text
  else
    let affected := f.root.affectedBy c
    let r := Relocation.ofChange affected
    let root := f.root.relocated r
    let fits := describes affected f.text text checks &&
      (!checks || root.isFaithful r f.text text none)
    if fits then f.readWith root text else f.readAgain text

end ScriptFrontend.SourceFile
