/-!
# Paths

A path is a text of names with slashes between them. A slash at its start leads to the root. Empty
names and single dots inside a path mean nothing; two dots are a name as any other.
-/

namespace ScriptFrontend.Path

def pieces (path : String) : List String := (path.toList.splitOn '/').map String.ofList

def isBlank (piece : String) : Bool := piece == "" || piece == "."

def isAbsolute (path : String) : Bool := path.startsWith "/"

/-- What a path starts at, where it says so: the root, or the current directory. -/
def anchor? (path : String) : Option String :=
  if isAbsolute path then some "/"
  else if (pieces path).head? == some "." then some "."
  else none

def body (path : String) : List String :=
  if (anchor? path).isSome then (pieces path).tail else pieces path

def components (path : String) : List String :=
  (anchor? path).toList ++ (body path).filter (!isBlank ·)

def ofPieces (pieces : List String) : String := String.intercalate "/" pieces

def trimmed (pieces : List String) : List String := (pieces.reverse.dropWhile isBlank).reverse

def fileName? (path : String) : Option String :=
  (trimmed (body path)).getLast?.filter (· != "..")

/-- A name without its extension, and the extension. A dot at the start of a name starts none. -/
def splitName (name : String) : String × Option String :=
  match (name.toList.splitOn '.').reverse with
  | extension :: last :: rest =>
    let stem := String.ofList (['.'].intercalate (rest.reverse ++ [last]))
    if stem == "" then (name, none) else (stem, some (String.ofList extension))
  | _ => (name, none)

def extension? (path : String) : Option String := (fileName? path).bind fun name => (splitName name).2

/-- The path with another extension for its last name; a path without a name stays as it is. -/
def withExtension (path extension : String) : String :=
  match fileName? path with
  | none => path
  | some name =>
    ofPieces ((trimmed (pieces path)).dropLast ++ [(splitName name).1 ++ "." ++ extension])

/-- Goes down from the first names of a path along others. -/
def descend : List String → List String → Option (List String)
  | body, [] => some body
  | body, name :: rest =>
    match body.dropWhile isBlank with
    | [] => none
    | first :: body => if first == name then descend body rest else none

def below? (path base : String) : Option String :=
  let names := (body base).filter (!isBlank ·)
  if (components base).isEmpty then
    let kept := (anchor? path).toList.map fun a => if a == "/" then "" else a
    let rest := ofPieces (kept ++ trimmed (body path))
    some (if rest == "" && isAbsolute path then "/" else rest)
  else if anchor? path != anchor? base then none
  else (descend (body path) names).map fun rest => ofPieces (trimmed (rest.dropWhile isBlank))

def join (base path : String) : String :=
  if isAbsolute path then path
  else if base == "" || base.endsWith "/" then base ++ path
  else base ++ "/" ++ path

def parent? (path : String) : Option String :=
  match trimmed (body path) with
  | [] => if anchor? path == some "." then some "" else none
  | names =>
    let rest := trimmed names.dropLast
    some <|
      if isAbsolute path then "/" ++ ofPieces rest
      else ofPieces ((anchor? path).toList ++ rest)

def le (a b : String) : Bool := !(components b < components a)

end ScriptFrontend.Path
