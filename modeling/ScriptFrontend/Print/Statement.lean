import ScriptFrontend.Print.Expression
import ScriptFrontend.Print.Function
import ScriptFrontend.Print.Module

/-!
# Printing statements and trees

Declarations of types and of what is declared elsewhere print nothing. A statement inside another
one stands behind its head if it is a block, and indented on a line of its own otherwise. Enumerations
and namespaces print as they were written where nothing stands in their place.

Each role of a node has its way to print it, and the ways call each other through the role of what
they print. The depth of the calls is bounded by the size of the text that the tree came from, for a
node below another one covers no more of the text, and what stands in the place of a node is a
bounded number of made nodes around it.
-/

namespace ScriptFrontend

namespace Node

def startsWithChild (kind : Kind) : Shape → Bool
  | .call => kind == .callExpression
  | .unary _ => kind == .postfixUnaryExpression
  | .wrapped => kind == .nonNullExpression
  | .propertyAccess | .elementAccess | .binary | .conditional | .taggedTemplate
  | .typedExpression => true
  | _ => false

def leftmost : Node → Node
  | .mk h shape (.node first :: rest) docs origin =>
    if startsWithChild h.kind shape then first.leftmost
    else .mk h shape (.node first :: rest) docs origin
  | n => n

/-- The expression would be taken for a declaration or a block at the start of a statement. -/
def looksLikeStatement (n : Node) : Bool :=
  match n.kind with
  | .functionExpression | .classExpression | .objectLiteralExpression | .objectBindingPattern => true
  | _ => false

end Node

namespace Print

def expressionStatement (e : Node) : Print Unit := do
  if e.isSynthesized && e.leftmost.looksLikeStatement then
    write "("
    expression e
    write ")"
  else printAs .wholeExpression e
  write ";"

def embedded (n : Node) : Print Unit := do
  if n.kind == .block then
    write " "
    statement n
  else
    endLine
    indented (statement n)

def afterEmbedded (n : Node) : Print Unit := if n.kind == .block then write " " else endLine

def variableWord (flags : NodeFlags) : String :=
  if flags.has NodeFlags.awaitUsing then "await using "
  else if flags.has NodeFlags.usingDeclaration then "using "
  else if flags.has NodeFlags.constDeclaration then "const "
  else if flags.has NodeFlags.letDeclaration then "let "
  else "var "

def variableDeclaration (n : Node) : Print Unit := do
  let .variableDeclaration p := n.form | return
  printAs .binding p.name
  initializer p.value

def variableList (n : Node) : Print Unit := do
  write (variableWord n.flags)
  if let .list _ l := n.form then separated ", " variableDeclaration l.items

def loopStart (n : Node) : Print Unit :=
  if n.kind == .variableDeclarationList then variableList n else expression n

def headed (word : String) (e : Node) : Print Unit := do
  write (word ++ " (")
  expression e
  write ")"

def ifElse (condition yes : Node) (no : Option Node) : Print Unit := do
  headed "if" condition
  embedded yes
  no.forM fun no => do
    afterEmbedded yes
    write "else"
    if no.kind == .ifStatement then
      write " "
      statement no
    else embedded no

def behindBlank (e : Node) : Print Unit := do
  write " "
  expression e

def forLoop (p : Form.ForLoop) : Print Unit := do
  write "for ("
  p.start.forM loopStart
  write ";"
  p.condition.forM behindBlank
  write ";"
  p.update.forM behindBlank
  write ")"
  embedded p.body

def forEach (kind : Kind) (p : Form.ForEach) : Print Unit := do
  write "for "
  if p.awaiting.isSome then write "await "
  write "("
  loopStart p.start
  write (if kind == .forInStatement then " in " else " of ")
  expression p.expression
  write ")"
  embedded p.body

def caseClause (n : Node) : Print Unit := do
  let .caseClause e body := n.form | return
  match e with
  | some e =>
    write "case "
    expression e
    write ":"
  | none => write "default:"
  endLine
  indented (statements body.items)

def switch (e cases : Node) : Print Unit := do
  headed "switch" e
  write " "
  braced do
    if let .list _ l := cases.form then l.items.forM caseClause

def catchClause (n : Node) : Print Unit := do
  let .catchClause declaration body := n.form | return
  endLine
  write "catch "
  if let some (.variableDeclaration p) := declaration.map Node.form then
    write "("
    printAs .binding p.name
    write ") "
  statement body

def tryCatch (body : Node) (handler finalizer : Option Node) : Print Unit := do
  write "try "
  statement body
  handler.forM catchClause
  finalizer.forM fun block => do
    endLine
    write "finally "
    statement block

def isDeclaredElsewhere (n : Node) : Bool := n.hasModifier ModifierFlags.isAmbient

def wordAndSemicolon (word : String) (print : Node → Print Unit) (n : Option Node) : Print Unit := do
  write word
  n.forM fun n => do
    write " "
    print n
  write ";"

def settledStatement (n : Node) : Print Unit := do
  match n.form with
  | .block _ l => blockWith l.items []
  | .wrapped e =>
    if n.kind == .expressionStatement then expressionStatement e
    else if n.kind == .throwStatement then wordAndSemicolon "throw" expression (some e)
  | .optionalExpression e => wordAndSemicolon "return" expression e
  | .variableStatement modifiers l =>
    if !isDeclaredElsewhere n then
      runModifiers modifiers
      variableList l
      write ";"
  | .ifElse condition yes no => ifElse condition yes no
  | .doLoop body condition =>
    write "do"
    embedded body
    afterEmbedded body
    headed "while" condition
    write ";"
  | .whileLoop condition body =>
    headed "while" condition
    embedded body
  | .forLoop p => forLoop p
  | .forEach p => forEach n.kind p
  | .jump label =>
    wordAndSemicolon (if n.kind == .breakStatement then "break" else "continue") name label
  | .withObject e body =>
    headed "with" e
    embedded body
  | .switch e cases => switch e cases
  | .labeled label body =>
    name label
    write ": "
    statement body
  | .tryCatch body handler finalizer => tryCatch body handler finalizer
  | .functionLike p =>
    if n.kind == .functionDeclaration && p.body.isSome && !isDeclaredElsewhere n then function n
  | .classLike _ =>
    if n.kind != .interfaceDeclaration && !isDeclaredElsewhere n then classLike n
  | .importDeclaration p => importDeclaration p
  | .importEquals p => importEquals n p
  | .exportDeclaration p => exportDeclaration p
  | .exportAssignment isEquals _ e =>
    wordAndSemicolon (if isEquals then "export =" else "export default") expression (some e)
  | .enumeration _ _ _ | .module _ _ _ =>
    if !isDeclaredElsewhere n && !n.isSynthesized then writeSource n
  | .token =>
    if n.kind == .emptyStatement then write ";"
    else if n.kind == .debuggerStatement then write "debugger;"
  | _ => pure ()

end Print

/-! ## Trees -/

namespace Print

def inRole : PrintRole → Node → Print Unit
  | .statement => settledStatement
  | .expression => substituted false
  | .wholeExpression => substituted true
  | .settled => settled
  | .binding => bindingName
  | .element => element

def upTo (style : PrintStyle) (source : String) (substitution : Substitution) :
    Nat → PrintRole → Node → StateM Writer Unit
  | 0, _, _ => pure ()
  | depth + 1, role, n =>
    inRole role n ⟨style, source, substitution, upTo style source substitution depth⟩

def depthOf (source : String) : Nat := (source.utf8ByteSize + 64) * (source.utf8ByteSize + 64)

def run (style : PrintStyle) (source : String) (substitution : Substitution) (p : Print Unit) :
    String :=
  let print := upTo style source substitution (depthOf source)
  ((p ⟨style, source, substitution, print⟩).run {}).2.out

end Print

def PrintStyle.finish (style : PrintStyle) (text : String) : String :=
  if !style.trailingNewLine && text.endsWith style.newLine then
    (text.dropEnd style.newLine.length).toString
  else text

def printStatements (style : PrintStyle) (source : String) (substitution : Substitution)
    (statements : List Node) : String :=
  style.finish (Print.run style source substitution (Print.statements statements))

namespace Kind

def isPrintedAsStatement (k : Kind) : Bool :=
  k matches .block | .emptyStatement | .variableStatement | .expressionStatement | .ifStatement
    | .doStatement | .whileStatement | .forStatement | .forInStatement | .forOfStatement
    | .continueStatement | .breakStatement | .returnStatement | .withStatement | .switchStatement
    | .labeledStatement | .throwStatement | .tryStatement | .debuggerStatement
    | .functionDeclaration | .classDeclaration | .interfaceDeclaration | .typeAliasDeclaration
    | .enumDeclaration | .moduleDeclaration | .importEqualsDeclaration | .importDeclaration
    | .exportDeclaration | .exportAssignment | .notEmittedStatement | .mergeDeclarationMarker
    | .endOfDeclarationMarker

end Kind

def printNode (style : PrintStyle) (source : String) (substitution : Substitution) (n : Node) :
    String :=
  let role := if n.kind.isPrintedAsStatement then PrintRole.statement else .expression
  Print.run style source substitution (Print.printAs role n)

end ScriptFrontend
