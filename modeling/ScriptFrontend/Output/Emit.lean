import ScriptFrontend.Options.Basic
import ScriptFrontend.Print.Statement
import ScriptFrontend.Registration.Module

/-!
# Output of files

A file is written as a script with what is lowered in it in its place, and in its registered form
where the options ask for it. Declaration files and JSON have no output. The output stands next to the
source, or below a directory for outputs.
-/

namespace ScriptFrontend

structure LoweredFile where
  file : SourceFile
  scopes : ScopeTable
  facts : ModuleFacts
  lowering : Lowering

namespace LoweredFile

def ofFile (file : SourceFile) : LoweredFile :=
  let scopes := ScopeTable.ofTree file.root
  { file, scopes, facts := .ofFile file.root scopes, lowering := .ofTree file.root }

def substitution (l : LoweredFile) : Substitution := l.lowering.substitution l.scopes

def script (l : LoweredFile) (style : PrintStyle) : String :=
  printStatements style l.file.text l.substitution l.file.statements

/-- The registered form of the file; none if the file stays a script. -/
def registered? (l : LoweredFile) (style : PrintStyle) :
    Except Registration.Error (Option String) :=
  if Registration.isRegistered l.file then do
    let (statements, c) ← Registration.ofFile l.file l.scopes l.facts l.lowering
    let substitution := l.substitution.orElse (Registration.substitution c)
    return some (printStatements style l.file.text substitution statements)
  else return none

end LoweredFile

structure OutputFile where
  path : String
  text : String
deriving DecidableEq, Repr, Inhabited

structure Output where
  text : String := ""
  isRegistered : Bool := false
  files : List OutputFile := []
deriving DecidableEq, Repr, Inhabited

namespace Output

def extensionOf (jsx : JsxKind) (kind : ScriptKind) (extension : String) : String :=
  match Text.asciiLower extension with
  | "mts" | "mjs" => "mjs"
  | "cts" | "cjs" => "cjs"
  | _ => if jsx = .preserve && (kind = .tsx || kind = .jsx) then "jsx" else "js"

def pathOf (options : Options) (source : String) (kind : ScriptKind) : String :=
  let extension := extensionOf options.jsx kind ((Path.extension? source).getD "")
  match options.outDir with
  | none => Path.withExtension source extension
  | some outDir =>
    let kept :=
      match options.rootDir with
      | some root => (Path.below? source root).getD source
      | none => (Path.fileName? source).getD source
    Path.join outDir (Path.withExtension kept extension)

def hasOutput (f : SourceFile) : Bool := !f.isDeclarationFile && f.kind != .json

def ofFile (options : Options) (f : SourceFile) : Except Registration.Error Output := do
  if !hasOutput f then return {}
  let lowered := LoweredFile.ofFile f
  let registered ←
    match options.module with
    | .system => lowered.registered? {}
    | .asWritten => pure none
  let text := registered.getD (lowered.script {})
  return {
    text, isRegistered := registered.isSome, files := [⟨pathOf options f.fileName f.kind, text⟩] }

end Output

end ScriptFrontend
