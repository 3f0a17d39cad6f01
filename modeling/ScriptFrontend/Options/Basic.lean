import ScriptFrontend.Script
import ScriptFrontend.Text.Path

/-!
# Options

What to read, lower and write files as. Options are given as words in small or capital letters, and
directories relative to that of the file that the options are written in.
-/

namespace ScriptFrontend

inductive ModuleKind where
  | asWritten
  | system
deriving DecidableEq, Repr, Inhabited

def ModuleKind.name : ModuleKind → String
  | .asWritten => "none"
  | .system => "system"

/-- What files with elements are written as; elements themselves stay as they are. -/
inductive JsxKind where
  | asScript
  | preserve
deriving DecidableEq, Repr, Inhabited

def JsxKind.name : JsxKind → String
  | .asScript => "None"
  | .preserve => "Preserve"

namespace Options

structure InvalidValue where
  option : String
  value : String
  expected : String
deriving DecidableEq, Repr

def InvalidValue.message (e : InvalidValue) : String :=
  s!"argument for '{e.option}' must be one of {e.expected}, got '{e.value}'"

def moduleOf (value : String) : Except InvalidValue ModuleKind :=
  match Text.asciiLower value with
  | "none" | "es2015" | "es6" | "es2020" | "es2022" | "esnext" | "preserve" => .ok .asWritten
  | "system" => .ok .system
  | _ => .error ⟨"module", value, "'none', 'system', 'esnext'"⟩

def jsxOf (value : String) : Except InvalidValue JsxKind :=
  match Text.asciiLower value with
  | "none" => .ok .asScript
  | "preserve" => .ok .preserve
  | _ => .error ⟨"jsx", value, "'preserve'"⟩

def targetOf (value : String) : Except InvalidValue ScriptTarget :=
  match Text.asciiLower value with
  | "es3" => .ok .es3
  | "es5" => .ok .es5
  | "es6" | "es2015" => .ok .es2015
  | "es2016" => .ok .es2016
  | "es2017" => .ok .es2017
  | "es2018" => .ok .es2018
  | "es2019" => .ok .es2019
  | "es2020" => .ok .es2020
  | "es2021" => .ok .es2021
  | "es2022" => .ok .es2022
  | "esnext" | "latest" => .ok .esNext
  | _ => .error ⟨"target", value, "'es3', 'es5', 'es2015' ... 'es2022', 'esnext'"⟩

end Options

structure Options where
  target : ScriptTarget := .esNext
  module : ModuleKind := .system
  jsx : JsxKind := .asScript
  /-- Where outputs go; next to their sources where nothing is said. -/
  outDir : Option String := none
  rootDir : Option String := none
  checksEdits : Bool := false
  setsParents : Bool := true
  noEmit : Bool := false
deriving DecidableEq, Repr, Inhabited

end ScriptFrontend
