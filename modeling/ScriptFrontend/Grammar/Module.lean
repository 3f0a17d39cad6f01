import ScriptFrontend.Grammar.Block

/-!
# Namespaces, imports and exports

Declarations of namespaces and modules, and the forms in which names go from one file to another.
-/

namespace ScriptFrontend.Parse

open Diagnostic (Fault)

/-! ## Namespaces -/

def moduleBlock : Parse Node := spanning .moduleBlock do
  if ← expect .openBraceToken then
    let multiLine ← afterLineBreak
    let l ← listOf .blockStatements statement
    require .closeBraceToken
    return .block multiLine l
  return .block false (← missingList)

def namespaceFromName (l : Lead) (flags : NodeFlags) : Parse Node := do
  let name ← if flags.has NodeFlags.nestedNamespace then identifierName else identifier
  let body ←
    if ← optional .dotToken then
      call (.innerNamespace (NodeFlags.nestedNamespace ||| (flags &&& NodeFlags.namespaceWord)))
    else moduleBlock
  let n ← finish .moduleDeclaration l.pos (.module l.modifiers name (some body))
  withDocs l.hasDoc (n.addFlags flags)

def innerNamespace (flags : NodeFlags) : Parse Node := do
  let pos ← nodePos
  namespaceFromName ⟨pos, false, none⟩ flags

/-- A module with a text for its name, or the global scope; a body is not needed. -/
def ambientModule (l : Lead) : Parse Node := do
  let isGlobal ← tokenIs .globalKeyword
  let name ← if isGlobal then identifier else nameLiteral
  let body ←
    if ← tokenIs .openBraceToken then some <$> moduleBlock
    else
      let _ ← semicolon
      pure none
  let n ← finish .moduleDeclaration l.pos (.module l.modifiers name body)
  withDocs l.hasDoc (if isGlobal then n.addFlags NodeFlags.globalAugmentation else n)

def moduleDeclaration (l : Lead) : Parse Node := do
  if ← tokenIs .globalKeyword then return ← ambientModule l
  if ← optional .namespaceKeyword then return ← namespaceFromName l NodeFlags.namespaceWord
  require .moduleKeyword
  if ← tokenIs .stringLiteral then ambientModule l else namespaceFromName l .empty

/-! ## Names of modules and of what they export -/

/-- The text that names a module; another expression is read, so that it can be reported. -/
def moduleSpecifier : Parse Node := do
  if ← tokenIs .stringLiteral then nameLiteral else expressionSequence

structure ExportedName where
  node : Node
  badWord : Option (Nat × Nat)

def exportedName (before : Option (Nat × Nat)) : Parse ExportedName := do
  if ← tokenIs .stringLiteral then return ⟨← literal, before⟩
  let start ← tokenStart
  let stop ← tokenEnd
  let isBad := (← token).isWord && !(← isIdentifier)
  return ⟨← identifierName, if isBad then some (start, stop) else none⟩

structure SpecifierParts where
  typeOnly : Bool := false
  propertyName : Option Node := none
  name : ExportedName
  /-- The word between both names may still follow. -/
  mayRename : Bool := true

def specifierAfterType (first : ExportedName) : Parse SpecifierParts := do
  if ← tokenIs .asKeyword then
    let firstAs ← identifierName
    if ← tokenIs .asKeyword then
      let secondAs ← identifierName
      if ← isAnyWord then
        let name ← exportedName first.badWord
        return { typeOnly := true, propertyName := some firstAs, name, mayRename := false }
      return { propertyName := some first.node, name := ⟨secondAs, first.badWord⟩,
               mayRename := false }
    else if ← isAnyWord then
      let name ← exportedName first.badWord
      return { propertyName := some first.node, name, mayRename := false }
    else return { typeOnly := true, name := ⟨firstAs, first.badWord⟩ }
  else if ← (isAnyWord <||> tokenIs .stringLiteral) then
    return { typeOnly := true, name := ← exportedName first.badWord }
  else return { name := first }

def localName (name : ExportedName) : Parse Node := do
  let n := name.node
  if n.kind != .identifier then
    errorAtNode n .identifierExpected []
    finishAt .identifier n.pos n.pos (.identifier "" none)
  else
    if let some (start, stop) := name.badWord then errorAt start stop .identifierExpected []
    return n

def specifier (kind : Kind) : Parse Node := spanning kind do
  let first ← exportedName none
  let isType := first.node.kind == .identifier && first.node.identifierText? == some "type"
  let mut parts ← if isType then specifierAfterType first else pure { name := first }
  if parts.mayRename && (← tokenIs .asKeyword) then
    skipToken
    parts := { parts with
      propertyName := some parts.name.node, name := ← exportedName parts.name.badWord }
  let name ← if kind == .importSpecifier then localName parts.name else pure parts.name.node
  return .specifier parts.typeOnly parts.propertyName name

def specifiers (kind specifierKind : Kind) : Parse Node := spanning kind do
  let multiLine ← lookAhead do
    skipToken
    afterLineBreak
  return .list multiLine
    (← bracketedList .specifiers (specifier specifierKind) .openBraceToken .closeBraceToken)

/-! ## Imports -/

def externalReference : Parse Node := spanning .externalModuleReference do
  require .requireKeyword
  require .openParenToken
  let e ← moduleSpecifier
  require .closeParenToken
  return .wrapped e

def importEquals (l : Lead) (name : Node) (typeOnly : Bool) : Parse Node := do
  require .equalsToken
  let reference ←
    if ← (tokenIs .requireKeyword <&&> lookAhead (nextTokenIs .openParenToken)) then
      externalReference
    else entityName false none
  let _ ← semicolon
  finishLed l .importEqualsDeclaration (.importEquals
    { typeOnly, modifiers := l.modifiers, name, reference })

def namespaceImport : Parse Node := spanning .namespaceImport do
  require .asteriskToken
  require .asKeyword
  return .named (← identifier)

def importClause (name : Option Node) (pos : Nat) (typeOnly : Bool) : Parse Node := do
  let bindings ←
    if ← (pure name.isNone <||> optional .commaToken) then
      if ← tokenIs .asteriskToken then some <$> namespaceImport
      else some <$> specifiers .namedImports .importSpecifier
    else pure none
  finish .importClause pos (.importClause typeOnly name bindings)

def importClause? (name : Option Node) (pos : Nat) (typeOnly : Bool) : Parse (Option Node) := do
  unless ← (pure name.isSome <||> tokenIn [.asteriskToken, .openBraceToken]) do return none
  let clause ← importClause name pos typeOnly
  require .fromKeyword
  return some clause

def isTypeImport : Parse Bool := do
  let mayBe ←
    if ← tokenIs .fromKeyword then
      isIdentifier <&&> lookAhead (nextIsIn [.fromKeyword, .equalsToken])
    else pure true
  pure mayBe <&&> (isIdentifier <||> tokenIn [.asteriskToken, .openBraceToken])

def identifier? : Parse (Option Node) := do
  if ← isIdentifier then return some (← identifier)
  return none

def importDeclaration (l : Lead) : Parse Node := do
  require .importKeyword
  let clausePos ← nodePos
  let mut name ← identifier?
  let mut typeOnly := false
  if name.bind (·.identifierText?) == some "type" then
    if ← isTypeImport then
      typeOnly := true
      name ← identifier?
  if let some n := name then
    unless ← tokenIn [.commaToken, .fromKeyword] do return ← importEquals l n typeOnly
  let clause ← importClause? name clausePos typeOnly
  let source ← moduleSpecifier
  let attributes ← importAttributes?
  let _ ← semicolon
  finishLed l .importDeclaration (.importDeclaration
    { modifiers := l.modifiers, clause, source, attributes })

/-! ## Exports -/

def namespaceExportDeclaration (l : Lead) : Parse Node := do
  errorAtFirst l.modifiers .modifiersNotAllowed
  require .asKeyword
  require .namespaceKeyword
  let name ← identifier
  let _ ← semicolon
  finishLed l .namespaceExportDeclaration (.named name)

def exportAll (pos : Nat) : Parse (Option Node × Option Node) := do
  let clause ←
    if ← optional .asKeyword then
      let name ← exportedName none
      some <$> finish .namespaceExport pos (.named name.node)
    else pure none
  require .fromKeyword
  return (clause, some (← moduleSpecifier))

/-- Some names of this module, or of another one. Its word may be missing before the text. -/
def exportSome : Parse (Option Node × Option Node) := do
  let clause ← specifiers .namedExports .exportSpecifier
  let hasSource ←
    tokenIs .fromKeyword <||> (tokenIs .stringLiteral <&&> do return !(← afterLineBreak))
  if hasSource then
    require .fromKeyword
    return (some clause, some (← moduleSpecifier))
  return (some clause, none)

def exportDeclaration (l : Lead) : Parse Node := do
  let form ← inside NodeFlags.awaitContext do
    let typeOnly ← optional .typeKeyword
    let pos ← nodePos
    let (clause, source) ← if ← optional .asteriskToken then exportAll pos else exportSome
    let attributes ← if source.isSome then importAttributes? else pure none
    let _ ← semicolon
    return Form.exportDeclaration { typeOnly, modifiers := l.modifiers, clause, source, attributes }
  finishLed l .exportDeclaration form

def exportAssignment (l : Lead) : Parse Node := do
  let form ← inside NodeFlags.awaitContext do
    let isEquals ← optional .equalsToken
    if !isEquals then require .defaultKeyword
    let e ← assignment
    let _ ← semicolon
    return Form.exportAssignment isEquals l.modifiers e
  finishLed l .exportAssignment form

def exportForm (l : Lead) : Parse Node := do
  match ← nextToken with
  | .defaultKeyword | .equalsToken => exportAssignment l
  | .asKeyword => namespaceExportDeclaration l
  | _ => exportDeclaration l

end ScriptFrontend.Parse
