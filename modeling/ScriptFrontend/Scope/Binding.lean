import ScriptFrontend.Scope.Table

/-!
# Binding the names of a tree

The scopes of a tree are made from the outside in. Before the statements of a scope are visited its
names are declared: variables of functions in the nearest function, namespace or file, and all others
in the list of statements that holds them. Identifiers that are values are then resolved from the
scope that they stand in. Visiting a node visits its children by the same function, which is given
from outside.
-/

namespace ScriptFrontend

namespace Node

def listedVariables (n : Node) : List Node :=
  match n.form with
  | .list _ l => if n.kind == .variableDeclarationList then l.items else []
  | _ => []

def isBlockVariables (n : Node) : Bool :=
  n.kind == .variableDeclarationList && n.flags.meets NodeFlags.blockScoped

def isFunctionVariables (n : Node) : Bool :=
  n.kind == .variableDeclarationList && !n.flags.meets NodeFlags.blockScoped

mutual

/-- The names that a name or a pattern binds, each with its element; the name alone stands for
itself. -/
def boundNames (declaration : Node) : Node → List (Node × Node)
  | .mk h (.identifier text word) slots docs origin =>
    [(.mk h (.identifier text word) slots docs origin, declaration)]
  | .mk h (.list _) slots _ _ =>
    if h.kind == .objectBindingPattern || h.kind == .arrayBindingPattern then boundNamesSlots slots
    else []
  | _ => []

def boundNamesSlots : List Slot → List (Node × Node)
  | [.list _ items] => boundNamesItems items
  | _ => []

def boundNamesItems : List Node → List (Node × Node)
  | [] => []
  | .mk h .bindingElement [a, b, .node name, d] docs origin :: rest =>
    boundNames (.mk h .bindingElement [a, b, .node name, d] docs origin) name ++ boundNamesItems rest
  | _ :: rest => boundNamesItems rest

end

end Node

def Node.boundTexts (n : Node) : List String := (n.boundNames n).filterMap (·.1.identifierText?)

def Kind.nestsStatements : Kind → Bool
  | .forStatement | .forInStatement | .forOfStatement | .block | .ifStatement | .doStatement
  | .whileStatement | .labeledStatement | .withStatement | .switchStatement | .caseBlock
  | .caseClause | .defaultClause | .tryStatement | .catchClause => true
  | _ => false

namespace Node

def ownFunctionVariables (n : Node) : List (Node × Bool) :=
  match n.form with
  | .variableStatement _ l =>
    if l.isFunctionVariables then [(l, n.hasModifier ModifierFlags.isExported)] else []
  | .forLoop p => (p.start.toList.filter isFunctionVariables).map (·, false)
  | .forEach p => if p.start.isFunctionVariables then [(p.start, false)] else []
  | _ => []

mutual

def functionVariables : Node → List (Node × Bool)
  | .mk h s slots docs origin =>
    ownFunctionVariables (.mk h s slots docs origin) ++
      if h.kind.nestsStatements then functionVariablesSlots slots else []

def functionVariablesSlots : List Slot → List (Node × Bool)
  | [] => []
  | slot :: rest => functionVariablesSlot slot ++ functionVariablesSlots rest

def functionVariablesSlot : Slot → List (Node × Bool)
  | .absent => []
  | .node n => n.functionVariables
  | .list _ items => functionVariablesItems items

def functionVariablesItems : List Node → List (Node × Bool)
  | [] => []
  | n :: rest => n.functionVariables ++ functionVariablesItems rest

end

mutual

def height : Node → Nat
  | .mk _ _ slots _ _ => heightSlots slots + 1

def heightSlots : List Slot → Nat
  | [] => 0
  | slot :: rest => max (heightSlot slot) (heightSlots rest)

def heightSlot : Slot → Nat
  | .absent => 0
  | .node n => n.height
  | .list _ items => heightItems items

def heightItems : List Node → Nat
  | [] => 0
  | n :: rest => max n.height (heightItems rest)

end

def isIntrinsicName (name : String) : Bool :=
  (name.toList.head?.any fun c => c.isLower) || name.contains '-'

def isIntrinsicTag (n : Node) : Bool :=
  match n.identifierText? with
  | some text => isIntrinsicName text
  | none => n.kind != .propertyAccessExpression

def importBindings (clause : Node) : List (Node × Node) :=
  match clause.form with
  | .importClause _ name bindings =>
    let byDefault := (name.map (·, clause)).toList
    let named :=
      match bindings with
      | none => []
      | some b =>
        match b.form with
        | .named name => [(name, b)]
        | .list _ l => l.items.filterMap fun s =>
          match s.form with
          | .specifier false _ name => some (name, s)
          | _ => none
        | _ => []
    byDefault ++ named
  | _ => []

end Node

structure BindState where
  table : ScopeTable
  current : Nat := 0
deriving Inhabited

/-- A computation that binds names; it reads how a node is visited. -/
abbrev Bind := ReaderT (Node → StateM BindState Unit) (StateM BindState)

namespace Bind

def visit (n : Node) : Bind Unit := fun visitNode => visitNode n

def visit? (n : Option Node) : Bind Unit := n.forM visit

def visitAll (ns : List Node) : Bind Unit := ns.forM visit

def visitList? (l : Option NodeList) : Bind Unit := l.forM fun l => visitAll l.items

def visitChildren (n : Node) : Bind Unit := visitAll n.children

def modifyTable (f : ScopeTable → ScopeTable) : Bind Unit :=
  modify fun s => { s with table := f s.table }

/-! ## Scopes and declarations -/

def inScope (kind : ScopeKind) (container : Node) (p : Bind Unit) : Bind Unit := do
  let outer := (← get).current
  modify fun s =>
    { table := s.table.addScope ⟨kind, container, [], some outer⟩, current := s.table.scopes.size }
  p
  modify fun s => { s with current := outer }

def refer (name : Node) : Bind Unit := do
  let current := (← get).current
  modifyTable fun t => t.refer current name

def declare (name declaration : Node) (flags : SymbolFlags) (isExported : Bool) : Bind Unit := do
  let current := (← get).current
  modifyTable fun t => t.declare current name declaration flags isExported

def declareBound (scope : Nat) (name declaration : Node) (flags : SymbolFlags)
    (isExported : Bool) : Bind Unit :=
  modifyTable fun t => (Node.boundNames declaration name).foldl
    (fun t (name, declaration) => t.declare scope name declaration flags isExported) t

def declareVariables (scope : Nat) (l : Node) (flags : SymbolFlags) (isExported : Bool) :
    Bind Unit :=
  l.listedVariables.forM fun v =>
    match v.form with
    | .variableDeclaration p => declareBound scope p.name v flags isExported
    | _ => pure ()

def declareFunctionVariables (statements : List Node) : Bind Unit := do
  let s ← get
  let scope := s.table.variableScope s.current
  for (l, isExported) in statements.flatMap Node.functionVariables do
    declareVariables scope l SymbolFlags.functionVariable isExported

def declareImport (n : Node) : Bind Unit := do
  let .importDeclaration p := n.form | return
  let some clause := p.clause | return
  if let .importClause false _ _ := clause.form then
    for (name, binding) in clause.importBindings do
      declare name binding SymbolFlags.importedName false

def declareImportEquals (n : Node) (isExported : Bool) : Bind Unit :=
  match n.form with
  | .importEquals p =>
    if p.typeOnly then pure ()
    else if p.reference.kind == .externalModuleReference then
      declare p.name n SymbolFlags.importedName isExported
    else declare p.name n SymbolFlags.functionVariable isExported
  | _ => pure ()

def declareNamed (n : Node) (flags : SymbolFlags) (isExported : Bool) : Bind Unit :=
  n.name?.forM fun name => declare name n flags isExported

def declareStatement (n : Node) : Bind Unit := do
  let isExported := n.hasModifier ModifierFlags.isExported
  match n.kind with
  | .variableStatement =>
    match n.form with
    | .variableStatement _ l =>
      if l.isBlockVariables then
        declareVariables (← get).current l SymbolFlags.blockVariable isExported
    | _ => pure ()
  | .functionDeclaration => declareNamed n SymbolFlags.function isExported
  | .classDeclaration => declareNamed n SymbolFlags.classValue isExported
  | .enumDeclaration => declareNamed n SymbolFlags.enumeration isExported
  | .moduleDeclaration =>
    if n.name?.any (·.kind == .identifier) then
      declareNamed n SymbolFlags.namespaceValue isExported
  | .importDeclaration => declareImport n
  | .importEqualsDeclaration => declareImportEquals n isExported
  | _ => pure ()

/-! ## Visits -/

def statements (items : List Node) : Bind Unit := do
  items.forM declareStatement
  visitAll items

def functionStatements (items : List Node) : Bind Unit := do
  declareFunctionVariables items
  statements items

def propertyName (name : Node) : Bind Unit :=
  if name.kind == .computedPropertyName then visitChildren name else pure ()

def boundName (name : Node) : Bind Unit := do
  match name.form with
  | .identifier _ _ =>
    unless (← get).table.resolved.contains name.id do refer name
  | .list _ l => visitAll l.items
  | _ => pure ()

def entityName : Node → Bind Unit
  | .mk _ .qualifiedName (.node left :: _) _ _ => entityName left
  | n => if n.identifierText?.isSome then refer n else pure ()

def function (n : Node) : Bind Unit := do
  let .functionLike p := n.form | return
  visitList? p.modifiers
  let isNamedByValue := n.kind == .functionExpression || n.kind == .functionDeclaration
  if !isNamedByValue then p.name.forM propertyName
  inScope .function n do
    if n.kind == .functionExpression then
      p.name.forM fun name => declare name n SymbolFlags.function false
    let current := (← get).current
    let parameters := p.parameters.items.filterMap fun parameter =>
      match parameter.form with
      | .parameter parts => some (parameter, parts)
      | _ => none
    for (parameter, parts) in parameters do
      declareBound current parts.name parameter SymbolFlags.parameter false
    for (_, parts) in parameters do
      visitList? parts.modifiers
      boundName parts.name
      visit? parts.value
    match p.body with
    | some body =>
      if body.kind == .block then functionStatements ((body.statements?.map (·.items)).getD [])
      else visit body
    | none => pure ()

def classBody (n : Node) (p : Form.ClassLike) : Bind Unit := do
  for clause in (p.heritage.map (·.items)).getD [] do
    match clause.form with
    | .heritageClause .extendsKeyword types => visitAll types.items
    | _ => pure ()
  inScope .block n (visitAll p.members.items)

def classLike (n : Node) : Bind Unit := do
  let .classLike p := n.form | return
  visitList? p.modifiers
  match n.kind, p.name with
  | .classExpression, some name => inScope .block n do
    declare name n SymbolFlags.classValue false
    classBody n p
  | _, _ => classBody n p

def enumeration (n : Node) : Bind Unit := do
  let .enumeration _ _ members := n.form | return
  inScope .enumeration n do
    for member in members.items do
      if let .enumMember name _ := member.form then
        if name.kind != .computedPropertyName then
          declare name member SymbolFlags.enumMember true
    visitAll members.items

def namespaceBody : Node → Bind Unit
  | .mk h .module [a, .node name, .node body] docs origin =>
    if name.kind != .identifier then pure ()
    else inScope .namespaceBody (.mk h .module [a, .node name, .node body] docs origin) do
      match body.form with
      | .block _ l => functionStatements l.items
      | .module _ inner _ =>
        declare inner body SymbolFlags.namespaceValue true
        namespaceBody body
      | _ => pure ()
  | _ => pure ()

def loop (n : Node) : Bind Unit := inScope .block n do
  let start :=
    match n.form with
    | .forLoop p => p.start
    | .forEach p => some p.start
    | _ => none
  if let some l := start.filter Node.isBlockVariables then
    declareVariables (← get).current l SymbolFlags.blockVariable false
  visitChildren n

def cases (n : Node) : Bind Unit := inScope .block n do
  let .list _ clauses := n.form | return
  for clause in clauses.items do
    (((clause.statements?).map (·.items)).getD []).forM declareStatement
  for clause in clauses.items do
    if let .caseClause e l := clause.form then
      visit? e
      visitAll l.items

def catchClause (n : Node) : Bind Unit := do
  let .catchClause binding body := n.form | return
  inScope .block n do
    if let some v := binding then
      if let .variableDeclaration p := v.form then
        declareBound (← get).current p.name v SymbolFlags.blockVariable false
      visit v
    visit body

def exportedLocals (n : Node) : Bind Unit := do
  let .exportDeclaration p := n.form | return
  if p.source.isSome || p.typeOnly then return
  let some (.list _ specifiers) := p.clause.map Node.form | return
  for s in specifiers.items do
    if let .specifier _ propertyName name := s.form then
      let name := propertyName.getD name
      if name.kind == .identifier then refer name

def isWithoutValues (k : Kind) : Bool :=
  k.isTypeNode ||
    match k with
    | .interfaceDeclaration | .typeAliasDeclaration | .methodSignature | .propertySignature
    | .callSignature | .constructSignature | .indexSignature | .typeParameter | .heritageClause
    | .breakStatement | .continueStatement | .metaProperty | .namespaceExportDeclaration
    | .jsxClosingElement | .jsxNamespacedName | .importDeclaration => true
    | _ => false

def valueParts (n : Node) : Bind Unit := do
  match n.form with
  | .variableDeclaration p =>
    boundName p.name
    visit? p.value
  | .bindingElement p =>
    p.propertyName.forM propertyName
    boundName p.name
    visit? p.value
  | .importEquals p =>
    if p.reference.kind != .externalModuleReference then entityName p.reference
  | .propertyAccess e _ _ => visit e
  | .property p =>
    visitList? p.modifiers
    propertyName p.name
    visit? p.value
  | .shorthand name _ value =>
    refer name
    visit? value
  | .enumMember _ value => visit? value
  | .typedExpression e _ | .typeAssertion _ e => visit e
  | .typeReference name _ => visit name
  | .jsxTag name _ attributes =>
    unless name.isIntrinsicTag do visit name
    visit attributes
  | .jsxAttribute _ value => visit? value
  | .labeled _ statement => visit statement
  | _ => visitChildren n

def node (n : Node) : Bind Unit := do
  if isWithoutValues n.kind then return
  match n.kind with
  | .identifier => refer n
  | .functionDeclaration | .functionExpression | .arrowFunction | .methodDeclaration | .constructor
  | .getAccessor | .setAccessor => function n
  | .classDeclaration | .classExpression => classLike n
  | .block => n.statements?.forM fun l => inScope .block n (statements l.items)
  | .forStatement | .forInStatement | .forOfStatement => loop n
  | .caseBlock => cases n
  | .catchClause => catchClause n
  | .enumDeclaration => enumeration n
  | .moduleDeclaration => namespaceBody n
  | .exportDeclaration => exportedLocals n
  | _ => valueParts n

def visitTo : Nat → Node → StateM BindState Unit
  | 0, _ => pure ()
  | depth + 1, n => node n (visitTo depth)

end Bind

def ScopeTable.ofTree (root : Node) : ScopeTable :=
  let items := ((root.statements?).map (·.items)).getD []
  let (_, s) := Bind.functionStatements items (Bind.visitTo root.height) ⟨.ofRoot root, 0⟩
  s.table

end ScriptFrontend
