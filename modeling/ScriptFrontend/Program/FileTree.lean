import ScriptFrontend.Text.Path

/-!
# Trees of files

A tree of files keeps directories, and texts, by the names on the way from the root. A path leads
through directories only: what stands before a slash has to be there, also where two dots lead back
out of it. A file is written after the directories on the way to it are made, and the ones that were
made stay even where the file cannot be written.
-/

namespace ScriptFrontend

structure FileTree where
  directories : List (List String) := []
  files : List (List String × String) := []
deriving DecidableEq, Repr, Inhabited

namespace FileTree

def longestName : Nat := 255

def longestPath : Nat := 4095

def textAt? (t : FileTree) (place : List String) : Option String := t.files.lookup place

def isDirectory (t : FileTree) (place : List String) : Bool :=
  place.isEmpty || t.directories.contains place

/-- A path that can lead nowhere: one that is too long, or that holds the character of code zero. -/
def isRefused (path : String) : Bool := longestPath < path.utf8ByteSize || path.contains '\x00'

/-- Goes on from a place along one piece of a path. Nothing has to be where it leads. -/
def follow? (t : FileTree) (place : List String) (piece : String) : Option (List String) :=
  if !t.isDirectory place then none
  else if Path.isBlank piece then some place
  else if piece == ".." then some place.dropLast
  else if piece.utf8ByteSize ≤ longestName then some (place ++ [piece])
  else none

def place? (t : FileTree) (path : String) : Option (List String) :=
  if path.isEmpty || isRefused path then none
  else (Path.pieces path).foldlM t.follow? []

def read? (t : FileTree) (path : String) : Option String := (t.place? path).bind t.textAt?

/-- Goes on from a place along some pieces of a path, and makes the directories that are not there. -/
def makeWay : FileTree → List String → List String → Bool × FileTree
  | t, _, [] => (true, t)
  | t, place, piece :: rest =>
    match t.follow? place piece with
    | none => (false, t)
    | some next =>
      if t.isDirectory next then makeWay t next rest
      else if (t.textAt? next).isSome then (false, t)
      else makeWay { t with directories := t.directories ++ [next] } next rest

def makeDirectory (t : FileTree) (path : String) : Bool × FileTree :=
  if path.isEmpty then (true, t)
  else if isRefused path then (false, t)
  else t.makeWay [] (Path.pieces path)

def put (t : FileTree) (path text : String) : Bool × FileTree :=
  match t.place? path with
  | none => (false, t)
  | some place =>
    if t.isDirectory place then (false, t)
    else (true, { t with files := t.files.filter (·.1 != place) ++ [(place, text)] })

/-- Writes a file, with the directories on the way; whether that could be done, and the tree after
it. -/
def write (t : FileTree) (path text : String) : Bool × FileTree :=
  let (isThere, t) := t.makeDirectory ((Path.parent? path).getD "")
  if isThere then t.put path text else (false, t)

def addAll (t : FileTree) (files : List (String × String)) : FileTree :=
  files.foldl (fun t (path, text) => (t.write path text).2) t

def below (t : FileTree) (directory : String) : List (String × String) :=
  match (t.place? directory).filter t.isDirectory with
  | none => []
  | some place =>
    t.files.filterMap fun (way, text) =>
      if place.isPrefixOf way then some (Path.ofPieces (way.drop place.length), text) else none

def changes (t old : FileTree) (directory : String) : List (String × String) :=
  let before := old.below directory
  ((t.below directory).filter fun (path, text) => before.lookup path != some text).mergeSort
    fun a b => !(b.1 < a.1)

end FileTree

end ScriptFrontend
