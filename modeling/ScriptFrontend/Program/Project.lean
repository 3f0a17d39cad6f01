import ScriptFrontend.Options.Config
import ScriptFrontend.Program.Basic
import ScriptFrontend.Program.FileTree

/-!
# Projects

A project is a configuration file with its inputs in a tree of files. A program is loaded from the
inputs, read again where a file changed, and its outputs are written back into the tree.
-/

namespace ScriptFrontend

/-- What went wrong with the files of a program. -/
inductive CompileError where
  | read
  | write
  | registration (path : String) (error : Registration.Error)
deriving DecidableEq, Repr

def CompileError.message? : CompileError → Option String
  | .read | .write => none
  | .registration path e => some s!"cannot transform '{path}': {e.message}"

structure Project where
  options : Options
  inputs : List String
deriving DecidableEq, Repr, Inhabited

def Project.ofTree (t : FileTree) (path : String) : Except ConfigError Project := do
  let some text := t.read? path | throw .unreadable
  let config ← Config.ofText text
  let directory := (Path.parent? path).getD ""
  let options ← config.resolve directory
  return ⟨options, config.inputs directory ((t.below directory).map (·.1))⟩

namespace Program

/-- Reads a file of the tree, again if it is in the program already. -/
def reload (p : Program) (t : FileTree) (path : String) : Except CompileError (UpdateKind × Program) :=
  match t.read? path with
  | some text => .ok (p.setSource path text)
  | none => .error .read

def load (project : Project) (t : FileTree) : Except CompileError Program :=
  project.inputs.foldlM (fun p path => (p.reload t path).map (·.2)) { options := project.options }

def writeAll (t : FileTree) : List OutputFile → Bool × FileTree
  | [] => (true, t)
  | f :: rest =>
    let (isWritten, t) := t.write f.path f.text
    if isWritten then writeAll t rest else (false, t)

/-- The outputs of some files, up to the first error, and the tree with what was written till then. -/
def emitAll (options : Options) :
    List (String × SourceFile) → FileTree → Except CompileError (List Output) × FileTree
  | [], t => (.ok [], t)
  | (path, f) :: rest, t =>
    match Output.ofFile options f with
    | .error e => (.error (.registration path e), t)
    | .ok out =>
      let (isWritten, t) := if options.noEmit then (true, t) else writeAll t out.files
      if !isWritten then (.error .write, t)
      else
        let (outputs, t) := emitAll options rest t
        (outputs.map (out :: ·), t)

/-- Writes the outputs of all files into the tree, unless the options forbid it. -/
def emit (p : Program) (t : FileTree) : Except CompileError (List Output) × FileTree :=
  emitAll p.options p.files t

end Program

end ScriptFrontend
