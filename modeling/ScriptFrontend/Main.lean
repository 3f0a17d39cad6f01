import ScriptFrontend.CommandLine
import ScriptFrontend.Program.Basic
import ScriptFrontend.Tree.Dump

/-!
# The program

Reads files or the inputs of a configuration file, reports what is wrong with them, and writes their
outputs. The program ends with 0 if all went well, with 1 if it could not be run, and with 2 if a file
has errors.
-/

namespace ScriptFrontend.Main

def fail (message : String) : IO UInt32 := do
  IO.eprintln message
  return 1

partial def filesBelow (root relative : String) : IO (List String) := do
  let directory := (← IO.currentDir) / Path.join root relative
  let entries ← try directory.readDir catch _ => pure #[]
  let mut out := []
  for entry in entries do
    let path := Path.join relative entry.fileName
    if ← entry.path.isDir then out := out ++ (← filesBelow root path)
    else out := out ++ [path]
  return out

def isDirectory (path : String) : IO Bool := do return ← ((← IO.currentDir) / path).isDir

def fileExists (path : String) : IO Bool := do return ← ((← IO.currentDir) / path).pathExists

def configPath? (c : CommandLine) : IO (Option String) := do
  match c.project with
  | some path =>
    return some (if ← isDirectory path then Path.join path "tsconfig.json" else path)
  | none =>
    if c.files.isEmpty && (← fileExists "tsconfig.json") then return some "tsconfig.json"
    else return none

def readConfig (c : CommandLine) : IO (Except String (Options × List String)) := do
  match ← configPath? c with
  | none => return .ok (c.override {}, c.files)
  | some path =>
    let directory := (Path.parent? path).getD ""
    let text ← try pure (some (← IO.FS.readFile path)) catch _ => pure none
    let some text := text | return .error s!"failed to read project '{path}'"
    let resolved := do
      let config ← Config.ofText text
      return (config, ← config.resolve directory)
    match resolved with
    | .error (.invalid e) => return .error e.message
    | .error _ => return .error s!"failed to read project '{path}'"
    | .ok (config, options) =>
      let below ← filesBelow directory ""
      let inputs := if c.files.isEmpty then config.inputs directory below else c.files
      return .ok (c.override options, inputs)

/-- Reads all inputs; fails with the path of the first that cannot be read. -/
def load (options : Options) (inputs : List String) : IO (Except String Program) := do
  let mut program : Program := { options }
  for path in inputs do
    let text ← try pure (some (← IO.FS.readFile path)) catch _ => pure none
    match text with
    | some text => program := (program.setSource path text).2
    | none => return .error path
  return .ok program

def write (f : OutputFile) : IO Unit := do
  match Path.parent? f.path with
  | some directory => if directory != "" then IO.FS.createDirAll directory
  | none => pure ()
  IO.FS.writeFile f.path f.text

/-- Reports errors, prints trees and writes outputs. -/
def build (c : CommandLine) (p : Program) : IO UInt32 := do
  for (_, f) in p.files do
    f.diagnostics.forM fun d => IO.eprintln d.render
    if c.printsTree then IO.println f.root.toJson.compact
  for (path, f) in p.files do
    match Output.ofFile p.options f with
    | .error e => return ← fail s!"cannot transform '{path}': {e.message}"
    | .ok out => if !p.options.noEmit then out.files.forM write
  return if p.files.any (·.2.hasErrors) then 2 else 0

def run (words : List String) : IO UInt32 := do
  match CommandLine.parse words with
  | .error e => fail e.message
  | .ok c =>
    match ← readConfig c with
    | .error message => fail message
    | .ok (options, inputs) =>
      if inputs.isEmpty then return ← fail "no input files"
      if c.listsFiles then inputs.forM IO.println
      match ← load options inputs with
      | .error path => fail s!"cannot read '{path}'"
      | .ok p => if p.isTorn then fail "a text was cut inside of a character" else build c p

end ScriptFrontend.Main

def main (words : List String) : IO UInt32 := ScriptFrontend.Main.run words
