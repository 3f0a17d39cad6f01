import ScriptFrontend.Text.CharClass

/-!
# Kinds of scripts

What a file is read as: the kind of script, which its name decides unless it is given, the language
variant that goes with it, and the version of the language.
-/

namespace ScriptFrontend

inductive LanguageVariant where
  | standard
  | jsx
deriving DecidableEq, Repr, Inhabited

def LanguageVariant.name : LanguageVariant → String
  | .standard => "Standard"
  | .jsx => "JSX"

inductive ScriptKind where
  | unknown
  | js
  | jsx
  | ts
  | tsx
  | external
  | json
deriving DecidableEq, Repr, Inhabited

namespace ScriptKind

def name : ScriptKind → String
  | .unknown => "Unknown"
  | .js => "JS"
  | .jsx => "JSX"
  | .ts => "TS"
  | .tsx => "TSX"
  | .external => "External"
  | .json => "JSON"

def all : List ScriptKind := [.unknown, .js, .jsx, .ts, .tsx, .external, .json]

def ofName? (name : String) : Option ScriptKind := all.find? (·.name == name)

def afterLastDot? (s : String) : Option String :=
  match s.toList.splitOn '.' with
  | [] | [_] => none
  | parts => parts.getLast?.map String.ofList

/-- The kind that the end of a file name stands for; TypeScript where it stands for none. -/
def ofFileName (file : String) : ScriptKind :=
  match (afterLastDot? (Text.asciiLower file)).getD "" with
  | "js" | "cjs" | "mjs" => .js
  | "jsx" => .jsx
  | "tsx" => .tsx
  | "json" => .json
  | _ => .ts

def resolve (k : ScriptKind) (file : String) : ScriptKind :=
  if k = .unknown then ofFileName file else k

def variant : ScriptKind → LanguageVariant
  | .tsx | .jsx | .js | .json => .jsx
  | _ => .standard

def isJavaScript : ScriptKind → Bool
  | .js | .jsx => true
  | _ => false

end ScriptKind

/-- Versions of the language, oldest first. -/
inductive ScriptTarget where
  | es3
  | es5
  | es2015
  | es2016
  | es2017
  | es2018
  | es2019
  | es2020
  | es2021
  | es2022
  | esNext
  | json
deriving DecidableEq, Repr

namespace ScriptTarget

instance : Inhabited ScriptTarget := ⟨.esNext⟩

def name : ScriptTarget → String
  | .es3 => "ES3"
  | .es5 => "ES5"
  | .es2015 => "ES2015"
  | .es2016 => "ES2016"
  | .es2017 => "ES2017"
  | .es2018 => "ES2018"
  | .es2019 => "ES2019"
  | .es2020 => "ES2020"
  | .es2021 => "ES2021"
  | .es2022 => "ES2022"
  | .esNext => "ESNext"
  | .json => "JSON"

def all : List ScriptTarget :=
  [.es3, .es5, .es2015, .es2016, .es2017, .es2018, .es2019, .es2020, .es2021, .es2022, .esNext,
    .json]

def ofName? (name : String) : Option ScriptTarget := all.find? (·.name == name)

def atLeast (t u : ScriptTarget) : Bool := u.ctorIdx ≤ t.ctorIdx

end ScriptTarget

end ScriptFrontend
