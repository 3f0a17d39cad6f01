import ScriptFrontend.Registration.Binding

/-!
# The body of a registered module

Functions go in front of the body and are exported there; classes and variables are declared there
and assigned in the body. Exports of enumerations and namespaces are held until the mark at the end of
the declaration. Statements that contain others are made anew, so that variables of the module
inside them are declared in front too.
-/

namespace ScriptFrontend.Registration

open Made

def isHoistable (l : Node) : Bool := l.isFunctionVariables

def expand (c : Context) (n : Node) : List Node := (c.lowering.replacement? n).getD [n]

/-! ## Statements inside others -/

/-- The head of a loop over keys or values, without the declaration of its variable. -/
def loopHead (l : Node) : Register Node := do
  if !isHoistable l then return l
  let _ ← hoistVariables l
  let first :=
    match l.form with
    | .list _ declarations => declarations.items.head?.bind Node.name?
    | _ => none
  return first.getD l

def loopStart (start : Option Node) : Register (Option Node) :=
  match start with
  | none => return none
  | some l => if isHoistable l then return commas? (← hoistVariables l) else return some l

/-- What is left of a statement in a list inside another one, where `visit` makes statements anew. -/
def listStatement (visit : Node → Register Node) (n : Node) : Register (List Node) := do
  match n.form with
  | .marker => return []
  | .variableStatement _ l =>
    if isHoistable l && !n.isAmbient then
      return (assignmentStatement? n (← hoistVariables l)).toList
    else return [← visit n]
  | _ => return [← visit n]

def statementList (visit : Node → Register Node) (l : NodeList) : Register NodeList := do
  let c ← read
  let mut out := []
  for n in l.items do
    for n in expand c n do
      out := out ++ (← listStatement visit n)
  return list out

def clause (visit : Node → Register Node) (n : Node) : Register Node :=
  match n.form with
  | .caseClause e l => return n.remade (.caseClause e (← statementList visit l))
  | _ => return n

def caseBlock (visit : Node → Register Node) (n : Node) : Register Node :=
  match n.form with
  | .list multiLine l => return n.remade (.list multiLine (list (← l.items.mapM (clause visit))))
  | _ => return n

def handler (visit : Node → Register Node) (n : Node) : Register Node :=
  match n.form with
  | .catchClause binding body => return n.remade (.catchClause binding (← visit body))
  | _ => return n

/-- Makes a statement that contains others anew, down to a depth. -/
def nested : Nat → Node → Register Node
  | 0, n => return n
  | depth + 1, n => do
    let visit := nested depth
    match n.form with
    | .block multiLine l => return n.remade (.block multiLine (← statementList visit l))
    | .ifElse e yes no => return n.remade (.ifElse e (← visit yes) (← no.mapM visit))
    | .doLoop body e => return n.remade (.doLoop (← visit body) e)
    | .whileLoop e body => return n.remade (.whileLoop e (← visit body))
    | .forLoop p =>
      let start ← loopStart p.start
      return n.remade (.forLoop { p with start, body := ← visit p.body })
    | .forEach p =>
      let start ← loopHead p.start
      return n.remade (.forEach { p with start, body := ← visit p.body })
    | .withObject e body => return n.remade (.withObject e (← visit body))
    | .labeled label body => return n.remade (.labeled label (← visit body))
    | .tryCatch body h finalizer =>
      return n.remade
        (.tryCatch (← visit body) (← h.mapM (handler visit)) (← finalizer.mapM visit))
    | .switch e cases => return n.remade (.switch e (← caseBlock visit cases))
    | _ => return n

/-! ## Statements of the module -/

def importExports (c : Context) (n : Node) : List Node :=
  match n.form with
  | .importDeclaration p =>
    ((p.clause.map Node.importBindings).getD []).flatMap fun (name, declaration) =>
      (c.facts.exportNames declaration).map fun exported => exportStatement c exported name
  | _ => []

/-- The name of a function or class; a new one where the export has none. -/
def localOf (n : Node) : Register String :=
  match n.declaredText? with
  | some name => return name
  | none => newName "default"

def exportsOf (c : Context) (n : Node) (name : String) : List Node :=
  (c.facts.exportNames n).map fun exported => exportStatement c exported (identifier name)

def hoistFunction (n : Node) : Register Unit := do
  if n.body?.isNone then return
  let c ← read
  let name ← localOf n
  let removed := ModifierFlags.isExported ||| ModifierFlags.isDefault
  let copied := n.copied .functionDeclaration (some (n.name?.getD (identifier name))) removed
  modify fun s => { s with functions := s.functions ++ copied :: exportsOf c n name }

def classStatements (n : Node) : Register (List Node) := do
  let c ← read
  let name ← localOf n
  hoist name
  let copied := n.copied .classExpression (n.name?.map fun _ => identifier name)
    (FlagSet.full.without ModifierFlags.isDecorator)
  let assigned := (expressionStatement (assignment (identifier name) copied)).withOrigin n
  return assigned :: exportsOf c n name

def declarationExports (c : Context) (n : Node) (name : String) : List Node :=
  let own := if n.isExported then [name] else []
  let all := (c.facts.exportNames n).foldl
    (fun names name => if names.contains name then names else names ++ [name]) own
  all.map fun exported => exportStatement c exported (identifier name)

def hold (n : Node) (exports : List Node) : List (Node × List Node) → List (Node × List Node)
  | [] => [(n, exports)]
  | (m, held) :: rest =>
    if m.id == n.id then (m, held ++ exports) :: rest else (m, held) :: hold n exports rest

def deferExports (n : Node) : Register Unit := do
  let c ← read
  n.declaredText?.forM fun name =>
    modify fun s => { s with deferred := hold n (declarationExports c n name) s.deferred }

def release (n : Node) : Register (List Node) :=
  modifyGet fun s =>
    (((s.deferred.find? (·.1.id == n.id)).map (·.2)).getD [],
      { s with deferred := s.deferred.eraseP (·.1.id == n.id) })

/-- Declares the variables of a statement in front of the body. The variable of an enumeration or
namespace brings the exports of the declaration. -/
def variableStatements (n : Node) : Register (List Node) := do
  match n.origin.filter Lower.isContainer with
  | some declaration =>
    (n.statementVariables.filterMap Node.declaredText?).forM hoist
    deferExports declaration
    return []
  | none =>
    let .variableStatement _ l := n.form | return []
    return (assignmentStatement? n (← hoistVariables l)).toList

def hoistLocal (n : Node) : Register Unit := do
  ((← read).local? n).forM hoist

def statement (depth : Nat) (n : Node) : Register (List Node) := do
  if n.isAmbient then return []
  let c ← read
  match n.kind with
  | .importDeclaration =>
    hoistLocal n
    return importExports c n
  | .importEqualsDeclaration =>
    hoistLocal n
    return []
  | .exportDeclaration | .interfaceDeclaration | .typeAliasDeclaration | .notEmittedStatement =>
    return []
  | .exportAssignment =>
    match n.form with
    | .exportAssignment false _ e => return [exportStatement c "default" e]
    | _ => return [n]
  | .functionDeclaration =>
    hoistFunction n
    return []
  | .classDeclaration => classStatements n
  | .variableStatement => variableStatements n
  | .mergeDeclarationMarker =>
    n.origin.forM deferExports
    return []
  | .endOfDeclarationMarker =>
    match n.origin with
    | some declaration => release declaration
    | none => return []
  | _ => return [← nested depth n]

def body (depth : Nat) (items : List Node) : Register (List Node) := do
  let c ← read
  let mut out := []
  for n in items do
    for n in expand c n do
      out := out ++ (← statement depth n)
  return out

end ScriptFrontend.Registration
