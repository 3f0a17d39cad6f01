import ScriptFrontend.Scope.Binding
import ScriptFrontend.Text.Interner

/-!
# What a module imports and exports

The imports of a file with a source, the names that it exports, and which declarations they stand
for. Types and declarations without a value do not count. A name that is exported twice counts once.
-/

namespace ScriptFrontend

structure ModuleFacts where
  imports : List Node := []
  specifiers : MultiMap String Node := .empty
  exportedAs : MultiMap Nat String := .empty
  exportedNames : List String := []
  exportEquals : Option Node := none
  hasExportStar : Bool := false
  hasExportDefault : Bool := false
deriving Inhabited

namespace ModuleFacts

def exportNames (m : ModuleFacts) (declaration : Node) : List String :=
  m.exportedAs.getD declaration.parsed.id

def addImport (m : ModuleFacts) (n : Node) : ModuleFacts := { m with imports := m.imports ++ [n] }

def addExport (m : ModuleFacts) (declaration : Node) (name : String) : ModuleFacts :=
  { m with exportedAs := m.exportedAs.insert declaration.id name }

def isNew (m : ModuleFacts) (name : String) : Bool := !m.exportedNames.contains name

def addName (m : ModuleFacts) (name : String) : ModuleFacts :=
  if m.isNew name then { m with exportedNames := m.exportedNames ++ [name] } else m

def addNameOf (m : ModuleFacts) (declaration : Node) (name : String) : ModuleFacts :=
  if m.isNew name then (m.addName name).addExport declaration name else m

def addSpecifier (t : ScopeTable) (hasSource : Bool) (m : ModuleFacts) (n : Node) : ModuleFacts :=
  match n.form with
  | .specifier false propertyName name =>
    match name.nameText? with
    | none => m
    | some exported =>
      if !m.isNew exported then m
      else
        let m := m.addName exported
        if hasSource then m
        else
          let localName := propertyName.getD name
          let m :=
            match localName.nameText? with
            | some text => { m with specifiers := m.specifiers.insert text n }
            | none => m
          match t.importOf? localName <|> t.valueOf? localName with
          | some declaration => m.addExport declaration exported
          | none => m
  | _ => m

def addExportDeclaration (t : ScopeTable) (m : ModuleFacts) (n : Node)
    (p : Form.ExportDeclaration) : ModuleFacts :=
  if p.typeOnly then m
  else
    match p.source, p.clause with
    | none, none => m
    | some _, none => { m.addImport n with hasExportStar := true }
    | source, some clause =>
      let m := if source.isSome then m.addImport n else m
      match clause.form with
      | .list _ l => l.items.foldl (addSpecifier t source.isSome) m
      | .named name =>
        match source, name.nameText? with
        | some _, some text => m.addNameOf n text
        | _, _ => m
      | _ => m

def addFunctionOrClass (m : ModuleFacts) (n : Node) (modifiers : ModifierFlags) : ModuleFacts :=
  if modifiers.has ModifierFlags.isDefault then
    if m.hasExportDefault then m else { m.addExport n "default" with hasExportDefault := true }
  else
    match n.name?.bind Node.identifierText? with
    | some name => m.addNameOf n name
    | none => m

def addStatement (t : ScopeTable) (m : ModuleFacts) (n : Node) : ModuleFacts :=
  let modifiers := n.modifierFlags
  let isExported := modifiers.has ModifierFlags.isExported
  if modifiers.has ModifierFlags.isAmbient then m
  else
    match n.form with
    | .importDeclaration p =>
      match p.clause.map Node.form with
      | some (.importClause true _ _) => m
      | _ => m.addImport n
    | .importEquals p =>
      if p.typeOnly then m
      else if p.reference.kind == .externalModuleReference then m.addImport n
      else if isExported then (p.name.identifierText?.toList).foldl addName m
      else m
    | .exportDeclaration p => addExportDeclaration t m n p
    | .exportAssignment isEquals _ _ =>
      if isEquals then { m with exportEquals := m.exportEquals <|> some n }
      else { m with hasExportDefault := true }
    | .variableStatement _ l =>
      if !isExported then m
      else
        let names := l.listedVariables.flatMap fun v =>
          match v.form with
          | .variableDeclaration p => p.name.boundTexts
          | _ => []
        names.foldl addName m
    | .functionLike _ | .classLike _ =>
      if isExported && (n.kind == .functionDeclaration || n.kind == .classDeclaration) then
        addFunctionOrClass m n modifiers
      else m
    | .enumeration _ _ _ | .module _ _ _ =>
      if isExported then ((n.name?.bind Node.identifierText?).toList).foldl addName m else m
    | _ => m

def ofFile (root : Node) (t : ScopeTable) : ModuleFacts :=
  (((root.statements?).map (·.items)).getD []).foldl (addStatement t) {}

end ModuleFacts

end ScriptFrontend
