import ScriptFrontend.Grammar.State
import ScriptFrontend.Token.Comment

/-!
# What leads a declaration

A declaration begins with its modifiers, and documentation comments may stand before it. In files
without types such comments are read and hang on the node that they document. What is wrong in them
is kept apart from the diagnostics of the file.
-/

namespace ScriptFrontend

namespace Node

/-- The documentation comments before a node that end inside of it. Some nodes also take those that
trail the token before. -/
def docComments (n : Node) (text : String) : List Comment :=
  let leading := Comment.leading text n.pos
  let comments :=
    match n.kind with
    | .parameter | .typeParameter | .functionExpression | .arrowFunction | .parenthesizedExpression
    | .variableDeclaration | .exportSpecifier => Comment.trailing text n.pos ++ leading
    | _ => leading
  comments.filter fun c => c.stop ≤ n.stop && c.isDoc text

end Node

/-- What was read of a declaration before its own first word. -/
structure Lead where
  pos : Nat
  hasDoc : Bool
  modifiers : Option NodeList := none
deriving Inhabited

namespace Lead

def has (l : Lead) (kind : Kind) : Bool :=
  match l.modifiers with
  | some m => m.items.any (·.kind == kind)
  | none => false

def addFlags (l : Lead) (flags : NodeFlags) : Lead :=
  { l with modifiers := l.modifiers.map fun m => { m with items := m.items.map (·.addFlags flags) } }

end Lead

namespace Parse

/-- Keeps a diagnostic of a documentation comment, unless the same one is kept already. -/
def noteDocDiagnostic (kept : List Diagnostic) (d : Diagnostic) : List Diagnostic :=
  if kept.any fun e => e.start? == d.start? && e.code == d.code then kept else kept ++ [d]

/-- Reads a documentation comment and goes back to where the reading stood. -/
def docComment (c : Comment) : Parse (Option Node) := do
  let before ← get
  set { before with contextFlags := before.contextFlags ||| NodeFlags.doc, cursor := none }
  let doc ← call? (.docComment c.pos c.stop)
  modify fun s =>
    let (reported, diagnostics) := s.diagnostics.splitOff before.diagnostics.size
    { s with
      contextFlags := before.contextFlags
      diagnostics := diagnostics
      docDiagnostics := reported.foldl noteDocDiagnostic s.docDiagnostics
      cursor := before.cursor
      errorPending := before.errorPending
      scanner :=
        (s.scanner.restrict 0 s.scanner.text.utf8ByteSize).restore before.scanner.save }
  return doc

def docComments : List Comment → Parse (List Node)
  | [] => return []
  | c :: rest => do
    let doc ← docComment c
    return doc.toList ++ (← docComments rest)

def withDocs (hasDoc : Bool) (n : Node) : Parse Node := do
  if !hasDoc then return n
  unless ← isJavaScript do return n
  match n.docComments (← sourceText) with
  | [] => return n
  | comments => return n.withDocs (← docComments comments)

def lead : Parse Lead := do
  return ⟨← nodePos, (← tokenFlags).has TokenFlags.precedingDoc, none⟩

def finishLed (l : Lead) (kind : Kind) (form : Form) : Parse Node := do
  withDocs l.hasDoc (← finish kind l.pos form)

/-- Runs a reading and finishes the node it read from where it began. -/
def spanning (kind : Kind) (p : Parse Form) : Parse Node := do
  let pos ← nodePos
  let form ← p
  finish kind pos form

def documented (kind : Kind) (p : Parse Form) : Parse Node := do
  let l ← lead
  let form ← p
  finishLed l kind form

end Parse

end ScriptFrontend
