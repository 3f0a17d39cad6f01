import ScriptFrontend.Lowering.File
import ScriptFrontend.Name.Supply
import ScriptFrontend.Scope.Module

/-!
# Dependencies of a module

A module is registered with a loader by the names of the modules that it depends on. Imports, and
exports with a source, are grouped by that name. Each has a local name for the object of its module:
its own name where it binds the whole module, and otherwise a new one.
-/

namespace ScriptFrontend.Registration

/-- Imports, and exports with a source, that name the same module. -/
structure Dependency where
  moduleName : String
  entries : List Node

/-- What the registered form of a module refers to. -/
structure Context where
  scopes : ScopeTable
  facts : ModuleFacts
  lowering : Lowering
  exporter : String
  /-- The name of the object that describes the module to itself. -/
  context : String
  /-- The local name of an import, or of an export with a source, by the number of its node. -/
  locals : Std.HashMap Nat String := {}
  /-- The local name behind a part of an import that binds a name, by the number of its node. -/
  bindings : Std.HashMap Nat String := {}

namespace Context

def local? (c : Context) (n : Node) : Option String :=
  if n.isSynthesized then none else c.locals[n.id]?

end Context

def moduleName? (n : Node) : Option String :=
  match n.form with
  | .importDeclaration p => p.source.literalText?
  | .exportDeclaration p => p.source.bind Node.literalText?
  | .importEquals p => p.reference.expression?.bind Node.literalText?
  | _ => none

def isNamespaceImport (n : Node) : Bool := n.kind == .namespaceImport

def bindsNothing (n : Node) : Bool :=
  match n.form with
  | .importDeclaration p =>
    match p.clause.map Node.form with
    | some (.importClause _ _ _) => false
    | _ => true
  | _ => false

def wholeName? (n : Node) : Option String :=
  match n.form with
  | .importDeclaration p =>
    match p.clause.map Node.form with
    | some (.importClause _ none (some bindings)) =>
      if isNamespaceImport bindings then bindings.declaredText? else none
    | _ => none
  | .importEquals p => p.name.identifierText?
  | .exportDeclaration p => (p.clause.filter (·.kind == .namespaceExport)).bind Node.declaredText?
  | _ => none

def localName (n : Node) (moduleName : String) (names : NameSupply) : Option String × NameSupply :=
  if bindsNothing n then (none, names)
  else
    match wholeName? n with
    | some name => (some name, names)
    | none =>
      let (name, names) := names.unique (moduleStem moduleName)
      (some name, names)

def readBindings (n : Node) (name : String) : List Node :=
  match n.form with
  | .importDeclaration p =>
    match p.clause with
    | none => []
    | some clause =>
      match clause.form with
      | .importClause _ clauseName bindings =>
        let named :=
          match bindings with
          | none => []
          | some b =>
            if isNamespaceImport b then (if b.declaredText? == some name then [] else [b])
            else
              match b.form with
              | .list _ l => l.items
              | _ => []
        (if clauseName.isSome then [clause] else []) ++ named
      | _ => []
  | _ => []

def addEntry (n : Node) (moduleName : String) : List Dependency → List Dependency
  | [] => [⟨moduleName, [n]⟩]
  | d :: rest =>
    if d.moduleName == moduleName then { d with entries := d.entries ++ [n] } :: rest
    else d :: addEntry n moduleName rest

def dependencies (imports : List Node) (c : Context) (names : NameSupply) :
    List Dependency × Context × NameSupply :=
  imports.foldl (fun (groups, c, names) n =>
    match moduleName? n with
    | none => (groups, c, names)
    | some moduleName =>
      let (name?, names) := localName n moduleName names
      let c :=
        match name? with
        | none => c
        | some name =>
          { c with
            locals := c.locals.insert n.id name
            bindings := (readBindings n name).foldl (fun m b => m.insert b.id name) c.bindings }
      (addEntry n moduleName groups, c, names)) ([], c, names)

def exportCall (c : Context) (name : String) (value : Node) : Node :=
  Made.call (Made.identifier c.exporter) [Made.stringLiteral name, value]

def exportStatement (c : Context) (name : String) (value : Node) : Node :=
  Made.expressionStatement (exportCall c name value)

end ScriptFrontend.Registration
