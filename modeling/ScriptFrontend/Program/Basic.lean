import ScriptFrontend.Diagnostic.Collection
import ScriptFrontend.Output.Emit
import ScriptFrontend.Source.Update

/-!
# Programs

A program is a row of source files by their paths, in the order in which they came. A file that is
given a new text is read with its old tree at hand, and keeps its place.
-/

namespace ScriptFrontend

/-- How the tree of a file came to be. -/
inductive UpdateKind where
  | parsed
  /-- The text was read with an old tree at hand. -/
  | incremental
  | unchanged
deriving DecidableEq, Repr, Inhabited

def UpdateKind.name : UpdateKind → String
  | .parsed => "Parsed"
  | .incremental => "Incremental"
  | .unchanged => "Unchanged"

structure Program where
  options : Options
  /-- The files in order, by paths that lead to different places. -/
  files : List (String × SourceFile) := []
deriving Inhabited

namespace Program

def samePath (a b : String) : Bool := Path.components a == Path.components b

def file? (p : Program) (path : String) : Option SourceFile :=
  (p.files.find? (samePath path ·.1)).map (·.2)

def parse (p : Program) (path text : String) : SourceFile :=
  SourceFile.parse path text p.options.target .unknown p.options.setsParents

def updated (p : Program) (f : SourceFile) (text : String) : SourceFile :=
  f.update text (Text.Change.between f.text text) p.options.checksEdits

def replace (p : Program) (path : String) (f : SourceFile) : Program :=
  { p with files := p.files.map fun (key, old) => if samePath path key then (key, f) else (key, old) }

def setSource (p : Program) (path text : String) : UpdateKind × Program :=
  match p.file? path with
  | none => (.parsed, { p with files := p.files ++ [(path, p.parse path text)] })
  | some f =>
    if f.text == text then (.unchanged, p)
    else
      let f := p.updated f text
      (if f.counts.incremental then .incremental else .parsed, p.replace path f)

def removeSource (p : Program) (path : String) : Bool × Program :=
  ((p.file? path).isSome, { p with files := p.files.filter fun (key, _) => !samePath path key })

def isTorn (p : Program) : Bool := p.files.any (·.2.torn)

def diagnostics (p : Program) : Diagnostic.Collection :=
  ((p.files.flatMap (·.2.diagnostics)).foldl (fun c d => c.add d) Diagnostic.Collection.empty).sort

def emitFile? (p : Program) (path : String) : Option (Except Registration.Error Output) :=
  (p.file? path).map (Output.ofFile p.options)

end Program

end ScriptFrontend
