import ScriptFrontend.Grammar.State

/-!
# Taking elements over from an old tree

Where an old tree is at hand, an element of it that starts at the current token is taken over if its
list and its context are those of the old one, no edit touched it and it was read without an error.
-/

namespace ScriptFrontend

namespace ListContext

def isReusable : ListContext → Bool
  | .sourceElements | .blockStatements | .switchClauses | .switchClauseStatements | .classMembers
  | .enumMembers | .typeMembers | .variableDeclarations | .docParameters | .parameters => true
  | _ => false

end ListContext

namespace Node

def isReusableStatement (n : Node) : Bool :=
  match n.kind with
  | .functionDeclaration | .variableStatement | .block | .ifStatement | .expressionStatement
  | .throwStatement | .returnStatement | .switchStatement | .breakStatement | .continueStatement
  | .forInStatement | .forOfStatement | .forStatement | .whileStatement | .withStatement
  | .emptyStatement | .tryStatement | .labeledStatement | .doStatement | .debuggerStatement
  | .importDeclaration | .importEqualsDeclaration | .exportDeclaration | .exportAssignment
  | .moduleDeclaration | .classDeclaration | .interfaceDeclaration | .enumDeclaration
  | .typeAliasDeclaration => true
  | _ => false

/-- A class member that may be taken over. A method named as a constructor has to be read again. -/
def isReusableMember (n : Node) : Bool :=
  match n.kind with
  | .constructor | .indexSignature | .getAccessor | .setAccessor | .propertyDeclaration
  | .semicolonClassElement => true
  | .methodDeclaration =>
    match n.name? with
    | some name => name.kind != .identifier || name.identifierText? != some "constructor"
    | none => true
  | _ => false

/-- The node may be taken over as an element of a list. Where a value was written it may have been
read with a look at the text after it. -/
def isReusableIn (n : Node) (context : ListContext) : Bool :=
  match context with
  | .classMembers => n.isReusableMember
  | .switchClauses => n.kind == .caseClause || n.kind == .defaultClause
  | .sourceElements | .blockStatements | .switchClauseStatements => n.isReusableStatement
  | .enumMembers => n.kind == .enumMember
  | .typeMembers =>
    match n.kind with
    | .constructSignature | .methodSignature | .indexSignature | .propertySignature
    | .callSignature => true
    | _ => false
  | .variableDeclarations =>
    match n.form with
    | .variableDeclaration p => p.value.isNone
    | _ => false
  | .parameters | .docParameters =>
    match n.form with
    | .parameter p => p.value.isNone
    | _ => false
  | _ => false

end Node

namespace Parse

def oldElement? (context : ListContext) : Parse (Option Node) := do
  let s ← get
  if !context.isReusable || s.errorPending then return none
  match s.cursor with
  | none => return none
  | some cursor =>
    let (found, cursor) := cursor.nodeAt s.scanner.fullStart
    set { s with cursor := some cursor }
    match found with
    | none => return none
    | some n =>
      if n.isMissing || n.head.touched then return none
      let (hasError, checked) := n.checkErrors
      if hasError then return none
      if n.contextFlags != (s.contextFlags &&& NodeFlags.context) then return none
      if n.isReusableIn context then return some checked
      return none

def takeOver (n : Node) : Parse Node := do
  modifyScanner fun s => s.moveTo n.stop
  skipToken
  modify fun s => { s with counts := { s.counts with reused := s.counts.reused + 1 } }
  return n

def readElement (context : ListContext) (read : Parse (Option Node)) : Parse (Option Node) := do
  if (← get).cursor.isSome && context.isReusable then
    modify fun s => { s with counts := { s.counts with reparsed := s.counts.reparsed + 1 } }
  read

/-- An element of a list, taken over from the old tree or else read. -/
def element? (context : ListContext) (read : Parse (Option Node)) : Parse (Option Node) := do
  match ← oldElement? context with
  | some n => some <$> takeOver n
  | none => readElement context read

def startsElement (context : ListContext) (test : Parse Bool) : Parse Bool := do
  if (← oldElement? context).isSome then return true else test

end Parse

end ScriptFrontend
