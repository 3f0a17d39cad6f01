import ScriptFrontend.Print.Name

/-!
# Printing imports and exports

What is imported or exported as a type only is left out, and a declaration of which nothing else is
left prints nothing. `import x = require("m")` prints as a call, and `import x = A.B` as a variable.
-/

namespace ScriptFrontend.Print

def runSpecifiers (n : Node) : List Node :=
  match n.form with
  | .list _ l => l.items.filter fun s =>
    match s.form with
    | .specifier typeOnly _ _ => !typeOnly
    | _ => true
  | _ => []

def bracedRow (print : Node → Print Unit) (items : List Node) : Print Unit := do
  if items.isEmpty then write "\x7b\x7d"
  else
    write "\x7b "
    separated ", " print items
    write " \x7d"

def specifier (n : Node) : Print Unit := do
  let .specifier _ propertyName specifierName := n.form | return
  propertyName.forM fun other => do
    exportedName other
    write " as "
  exportedName specifierName

def importAttribute (n : Node) : Print Unit := do
  let .importAttribute key value := n.form | return
  propertyName key
  write ": "
  expression value

def importAttributes (n : Node) : Print Unit := do
  let .list _ l := n.form | return
  write (if (← sourceText n).startsWith "assert" then " assert " else " with ")
  bracedRow importAttribute l.items

def moduleSource (source : Node) (attributes : Option Node) : Print Unit := do
  literal source
  attributes.forM importAttributes
  write ";"

def namedBindings (n : Node) : Print Unit := do
  match n.form with
  | .named space =>
    write "* as "
    name space
  | _ => bracedRow specifier (runSpecifiers n)

def runBindings (bindings : Option Node) : Option Node :=
  bindings.filter fun n => n.kind == .namespaceImport || !(runSpecifiers n).isEmpty

def importDeclaration (p : Form.ImportDeclaration) : Print Unit := do
  match p.clause with
  | none =>
    write "import "
    moduleSource p.source p.attributes
  | some clause =>
    let .importClause false clauseName bindings := clause.form | return
    let bindings := runBindings bindings
    if clauseName.isNone && bindings.isNone then return
    write "import "
    clauseName.forM name
    if clauseName.isSome && bindings.isSome then write ", "
    bindings.forM namedBindings
    write " from "
    moduleSource p.source p.attributes

def exportSource (source attributes : Option Node) : Print Unit := do
  match source with
  | none => write ";"
  | some source =>
    write " from "
    moduleSource source attributes

def exportDeclaration (p : Form.ExportDeclaration) : Print Unit := do
  if p.typeOnly then return
  match p.clause with
  | none => write "export *"
  | some clause =>
    match clause.form with
    | .named space =>
      write "export * as "
      exportedName space
    | form =>
      let specifiers := runSpecifiers clause
      let wasEmpty :=
        match form with
        | .list _ l => l.isEmpty
        | _ => false
      if specifiers.isEmpty && !wasEmpty then return
      write "export "
      bracedRow specifier specifiers
  exportSource p.source p.attributes

def entityName : Node → Print Unit
  | .mk _ .qualifiedName [.node left, .node right] _ _ => do
    entityName left
    write "."
    name right
  | n => expression n

def importEquals (n : Node) (p : Form.ImportEquals) : Print Unit := do
  if p.typeOnly then return
  if n.hasModifier ModifierFlags.isExported then write "export "
  if p.reference.kind == .externalModuleReference then
    write "const "
    name p.name
    write " = require("
    p.reference.expression?.forM literal
    write ");"
  else
    write "var "
    name p.name
    write " = "
    entityName p.reference
    write ";"

end ScriptFrontend.Print
