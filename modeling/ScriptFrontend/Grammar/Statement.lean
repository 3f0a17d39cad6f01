import ScriptFrontend.Grammar.Declaration

/-!
# Statements

Each statement by its first word. A statement that no word begins is an expression, or one with a
label before it.
-/

namespace ScriptFrontend.Parse

open Diagnostic (Fault)

/-! ## Conditions and loops -/

def condition : Parse Node := do
  let openPos ← tokenStart
  let opened ← expect .openParenToken
  let e ← freeExpression
  requireMatching .openParenToken .closeParenToken opened openPos
  return e

def ifStatement : Parse Node := documented .ifStatement do
  require .ifKeyword
  let e ← condition
  let yes ← statement
  let no ← if ← optional .elseKeyword then some <$> statement else pure none
  return .ifElse e yes no

def doStatement : Parse Node := documented .doStatement do
  require .doKeyword
  let body ← statement
  require .whileKeyword
  let e ← condition
  let _ ← optional .semicolonToken
  return .doLoop body e

def whileStatement : Parse Node := documented .whileStatement do
  require .whileKeyword
  let e ← condition
  return .whileLoop e (← statement)

/-- What stands first in the head of a loop: variables or an expression. -/
def loopStart : Parse Node := do
  let declares ←
    match ← token with
    | .varKeyword | .letKeyword | .constKeyword => pure true
    | .usingKeyword => lookAhead (nextIsBindingOnLine true)
    | .awaitKeyword => lookAhead nextIsUsingOnLine
    | _ => pure false
  if declares then variableList true else disallowIn expressionSequence

def forEachRest (l : Lead) (awaiting : Option Node) (start : Node) (isOf : Bool) : Parse Node := do
  if !isOf then skipToken
  let e ← if isOf then allowIn assignment else freeExpression
  require .closeParenToken
  let body ← statement
  if isOf then
    finishLed l .forOfStatement (.forEach { awaiting, start, expression := e, body })
  else finishLed l .forInStatement (.forEach { start, expression := e, body })

def forRest (l : Lead) (start : Option Node) : Parse Node := do
  require .semicolonToken
  let e ←
    if ← tokenIn [.semicolonToken, .closeParenToken] then pure none else some <$> freeExpression
  require .semicolonToken
  let update ← if ← tokenIs .closeParenToken then pure none else some <$> freeExpression
  require .closeParenToken
  let body ← statement
  finishLed l .forStatement (.forLoop { start, condition := e, update, body })

def forStatement : Parse Node := do
  let l ← lead
  require .forKeyword
  let awaiting ← optionalToken? .awaitKeyword
  require .openParenToken
  let start ← if ← tokenIs .semicolonToken then pure none else some <$> loopStart
  let isOf ← if awaiting.isSome then expect .ofKeyword else optional .ofKeyword
  let isEach ← pure isOf <||> tokenIs .inKeyword
  -- Without a start the current token is the semicolon before the condition.
  match start with
  | some n => if isEach then forEachRest l awaiting n isOf else forRest l start
  | none => forRest l none

/-! ## Leaving a statement -/

def jumpStatement (kind word : Kind) : Parse Node := documented kind do
  require word
  let label ← if ← canEndStatement then pure none else some <$> identifier
  let _ ← semicolon
  return .jump label

def returnStatement : Parse Node := documented .returnStatement do
  require .returnKeyword
  let e ← if ← canEndStatement then pure none else some <$> freeExpression
  let _ ← semicolon
  return .optionalExpression e

def thrown : Parse Node := do
  if ← afterLineBreak then
    errorAtSpan (← tokenStart) 0 .lineBreakNotPermitted []
    countIdentifier
    let pos ← nodePos
    finishAt .identifier pos pos (.identifier "" none)
  else freeExpression

def throwStatement : Parse Node := documented .throwStatement do
  require .throwKeyword
  let e ← thrown
  unless ← trySemicolon do errorMissingSemicolon e
  return .wrapped e

/-! ## Other statements -/

def emptyStatement : Parse Node := documented .emptyStatement do
  require .semicolonToken
  return .token

def debuggerStatement : Parse Node := documented .debuggerStatement do
  require .debuggerKeyword
  let _ ← semicolon
  return .token

def withStatement : Parse Node := documented .withStatement do
  require .withKeyword
  let e ← condition
  return .withObject e (← inside NodeFlags.inWithStatement statement)

def switchClause : Parse Node := do
  let l ← lead
  let (kind, e) ←
    if ← optional .caseKeyword then pure (Kind.caseClause, some (← freeExpression))
    else
      require .defaultKeyword
      pure (Kind.defaultClause, none)
  require .colonToken
  let statements ← listOf .switchClauseStatements statement
  finishLed l kind (.caseClause e statements)

def switchBlock : Parse Node := spanning .caseBlock do
  require .openBraceToken
  let l ← listOf .switchClauses switchClause
  require .closeBraceToken
  return .list true l

def switchStatement : Parse Node := documented .switchStatement do
  require .switchKeyword
  require .openParenToken
  let e ← freeExpression
  require .closeParenToken
  return .switch e (← switchBlock)

def catchClause : Parse Node := spanning .catchClause do
  require .catchKeyword
  let binding ←
    if ← optional .openParenToken then
      let n ← variableDeclaration false
      require .closeParenToken
      pure (some n)
    else pure none
  return .catchClause binding (← block false none)

def tryStatement : Parse Node := documented .tryStatement do
  require .tryKeyword
  let body ← block false none
  let handler ← if ← tokenIs .catchKeyword then some <$> catchClause else pure none
  let finalizer ←
    if ← (pure handler.isNone <||> tokenIs .finallyKeyword) then
      let _ ← expectWith .finallyKeyword (some .catchOrFinallyExpected) true
      some <$> block false none
    else pure none
  return .tryCatch body handler finalizer

def expressionOrLabeledStatement : Parse Node := do
  let l ← lead
  let hasParen ← tokenIs .openParenToken
  let e ← freeExpression
  if ← (pure (e.kind == .identifier) <&&> optional .colonToken) then
    let body ← statement
    finishLed l .labeledStatement (.labeled e body)
  else
    unless ← trySemicolon do errorMissingSemicolon e
    finishLed { l with hasDoc := l.hasDoc && !hasParen } .expressionStatement (.wrapped e)

def mayDeclare : Kind → Bool
  | .asyncKeyword | .interfaceKeyword | .typeKeyword | .moduleKeyword | .namespaceKeyword
  | .declareKeyword | .constKeyword | .enumKeyword | .exportKeyword | .importKeyword
  | .privateKeyword | .protectedKeyword | .publicKeyword | .abstractKeyword | .accessorKeyword
  | .staticKeyword | .readonlyKeyword | .globalKeyword => true
  | _ => false

def startsVariables : Parse Bool := do
  match ← token with
  | .varKeyword => return true
  | .letKeyword => isLetDeclaration
  | .awaitKeyword => isAwaitUsingDeclaration
  | .usingKeyword => isUsingDeclaration
  | _ => return false

def anyStatement : Parse Node := do
  if ← startsVariables then return ← variableStatement (← lead)
  match ← token with
  | .semicolonToken => emptyStatement
  | .openBraceToken => block false none
  | .functionKeyword => functionDeclaration (← lead)
  | .classKeyword => classLike (← lead) .classDeclaration
  | .ifKeyword => ifStatement
  | .doKeyword => doStatement
  | .whileKeyword => whileStatement
  | .forKeyword => forStatement
  | .continueKeyword => jumpStatement .continueStatement .continueKeyword
  | .breakKeyword => jumpStatement .breakStatement .breakKeyword
  | .returnKeyword => returnStatement
  | .withKeyword => withStatement
  | .switchKeyword => switchStatement
  | .throwKeyword => throwStatement
  | .tryKeyword | .catchKeyword | .finallyKeyword => tryStatement
  | .debuggerKeyword => debuggerStatement
  | .atToken => declaration
  | k =>
    if ← (pure (mayDeclare k) <&&> isDeclarationStart) then declaration
    else expressionOrLabeledStatement

def noStatement : Parse Node := do
  let pos ← nodePos
  finishAt .emptyStatement pos pos .token

def statementAtDepth : Parse Node := deeper noStatement anyStatement

end ScriptFrontend.Parse
