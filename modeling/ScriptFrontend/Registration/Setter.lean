import ScriptFrontend.Registration.Context

/-!
# Setters

A setter is called with the object of a module that the registered module depends on. It keeps the
object under the local names of the imports, and exports what is exported from there. What is
exported by a star goes through a helper, which leaves out the default and the names that the module
exports itself.
-/

namespace ScriptFrontend.Registration

open Made

/-- The members of an object of exports that are read from the object of a module. -/
def reexported (clause : Node) (parameter : String) : List Node :=
  match clause.form with
  | .list _ l => l.items.filterMap fun s =>
    match s.form with
    | .specifier false propertyName name => do
      let exported ← name.nameText?
      let imported ← (propertyName.getD name).nameText?
      return property (stringLiteral exported)
        (element (identifier parameter) (stringLiteral imported))
    | _ => none
  | _ => []

def assignLocal (name parameter : String) : Node :=
  expressionStatement (assignment (identifier name) (identifier parameter))

def exportSetter (c : Context) (star : Option String) (clause : Option Node) (parameter : String) :
    List Node :=
  match clause with
  | none =>
    star.toList.map fun name =>
      expressionStatement (call (identifier name) [identifier parameter])
  | some clause =>
    if clause.kind == .namespaceExport then
      (clause.name?.bind Node.nameText?).toList.map fun name =>
        exportStatement c name (identifier parameter)
    else
      let properties := reexported clause parameter
      if properties.isEmpty then []
      else [expressionStatement (call (identifier c.exporter) [object properties true])]

def entrySetter (c : Context) (star : Option String) (parameter : String) (n : Node) : List Node :=
  let assigned := (c.local? n).toList.map (assignLocal · parameter)
  match n.form with
  | .importDeclaration p => if p.clause.isSome then assigned else []
  | .importEquals p =>
    let exported := if n.isExported then p.name.identifierText?.toList else []
    assigned ++ exported.map fun name => exportStatement c name (identifier parameter)
  | .exportDeclaration p => exportSetter c star p.clause parameter
  | _ => []

def setter (c : Context) (star : Option String) (d : Dependency) (names : NameSupply) :
    Node × NameSupply :=
  let (parameter, names) := names.unique ((d.entries.head?.bind c.local?).getD "")
  (function [parameter] (d.entries.flatMap (entrySetter c star parameter)), names)

def setters (c : Context) (star : Option String) :
    List Dependency → NameSupply → List Node × NameSupply
  | [], names => ([], names)
  | d :: rest, names =>
    let (f, names) := setter c star d names
    let (fs, names) := setters c star rest names
    (f :: fs, names)

def ownExports (c : Context) (names : NameSupply) : Option (String × Node) × NameSupply :=
  let exported := c.facts.exportedNames.filter (· != "default")
  if exported.isEmpty && c.facts.specifiers.isEmpty then (none, names)
  else
    let (table, names) := names.unique "exportedNames"
    let entries := exported.map fun name => property (stringLiteral name) (token .trueKeyword)
    let declaration := variableDeclaration (identifier table) (some (object entries true))
    (some (table, varStatement [declaration]), names)

def starCondition (table : Option String) : Node :=
  let named := binary (identifier "n") .exclamationEqualsEqualsToken (stringLiteral "default")
  match table with
  | none => named
  | some table =>
    let own := call (member (identifier table) "hasOwnProperty") [identifier "n"]
    binary named .ampersandAmpersandToken (unary .exclamationToken own)

def starFunction (c : Context) (star : String) (table : Option String) : Node :=
  let m := identifier "m"
  let n := identifier "n"
  let exports := identifier "exports"
  let copy := expressionStatement (assignment (element exports n) (element m n))
  functionDeclaration star ["m"]
    [varStatement [variableDeclaration exports (some (object [] false))],
      forIn "n" m [ifStatement (starCondition table) copy],
      expressionStatement (call (identifier c.exporter) [exports])]

def starHelper (c : Context) (names : NameSupply) : (List Node × Option String) × NameSupply :=
  if c.facts.hasExportStar then
    let (table, names) := ownExports c names
    let (star, names) := names.unique "exportStar"
    ((table.toList.map (·.2) ++ [starFunction c star (table.map (·.1))], some star), names)
  else (([], none), names)

end ScriptFrontend.Registration
