import ScriptFrontend.Json.Reader
import ScriptFrontend.Options.Basic
import ScriptFrontend.Options.Glob

/-!
# Configuration files

A configuration file is a JSON text with options and with the files that they are for: a list of
them, or patterns of paths to include and to exclude. Without patterns all sources below the
directory of the file are included, and what was installed or put out there before is excluded.
-/

namespace ScriptFrontend

open JsonText (optional? text? bool? texts?)

structure WrittenOptions where
  target : Option String := none
  module : Option String := none
  jsx : Option String := none
  outDir : Option String := none
  rootDir : Option String := none
  checksEdits : Option Bool := none
  setsParents : Option Bool := none
  noEmit : Option Bool := none
deriving DecidableEq, Repr, Inhabited

structure Config where
  options : WrittenOptions := {}
  files : Option (List String) := none
  included : Option (List String) := none
  excluded : Option (List String) := none
deriving DecidableEq, Repr, Inhabited

inductive ConfigError where
  | unreadable
  /-- The text is not JSON, or a value has the wrong type. -/
  | malformed
  | invalid (value : Options.InvalidValue)
deriving DecidableEq, Repr

namespace WrittenOptions

def fieldNames : List String :=
  ["target", "module", "jsx", "outDir", "rootDir", "aggressiveChecks", "setParentNodes", "noEmit"]

def ofJson? (v : JsonText) : Option WrittenOptions := do
  let [target, module, jsx, outDir, rootDir, checksEdits, setsParents, noEmit] ←
    v.fields? fieldNames | none
  return {
    target := ← optional? text? target
    module := ← optional? text? module
    jsx := ← optional? text? jsx
    outDir := ← optional? text? outDir
    rootDir := ← optional? text? rootDir
    checksEdits := ← optional? bool? checksEdits
    setsParents := ← optional? bool? setsParents
    noEmit := ← optional? bool? noEmit }

def ofText (text : String) : Except ConfigError WrittenOptions :=
  match (JsonText.parse? text).bind ofJson? with
  | some options => .ok options
  | none => .error .malformed

def word {α : Type} (fallback : α) (read : String → Except Options.InvalidValue α) :
    Option String → Except Options.InvalidValue α
  | none => .ok fallback
  | some value => read value

def resolve (w : WrittenOptions) (directory : String) : Except Options.InvalidValue Options := do
  let defaults : Options := {}
  return {
    target := ← word defaults.target Options.targetOf w.target
    module := ← word defaults.module Options.moduleOf w.module
    jsx := ← word defaults.jsx Options.jsxOf w.jsx
    outDir := w.outDir.map (Path.join directory)
    rootDir := w.rootDir.map (Path.join directory)
    checksEdits := w.checksEdits.getD defaults.checksEdits
    setsParents := w.setsParents.getD defaults.setsParents
    noEmit := w.noEmit.getD defaults.noEmit }

end WrittenOptions

namespace Config

def fieldNames : List String := ["compilerOptions", "files", "include", "exclude"]

def ofJson? (v : JsonText) : Option Config := do
  let [options, files, included, excluded] ← v.fields? fieldNames | none
  return {
    options := (← optional? WrittenOptions.ofJson? options).getD {}
    files := ← optional? texts? files
    included := ← optional? texts? included
    excluded := ← optional? texts? excluded }

def ofText (text : String) : Except ConfigError Config :=
  match (JsonText.parse? text).bind ofJson? with
  | some config => .ok config
  | none => .error .malformed

def resolve (c : Config) (directory : String) : Except ConfigError Options :=
  match c.options.resolve directory with
  | .ok options => .ok options
  | .error e => .error (.invalid e)

def includedPatterns (c : Config) : List String := c.included.getD ["**/*"]

/-- What is excluded if nothing is said: what was installed, and the directory for outputs. -/
def excludedPatterns (c : Config) : List String :=
  c.excluded.getD ("node_modules" :: c.options.outDir.toList)

/-- The inputs of a configuration file in a directory with some files below it. Files that are listed
count in their order, whether they are there or not. -/
def inputs (c : Config) (directory : String) (below : List String) : List String :=
  let names := c.files.getD (Path.discover below c.includedPatterns c.excludedPatterns)
  names.map (Path.join directory)

end Config

end ScriptFrontend
