import ScriptFrontend.Grammar.Binding
import ScriptFrontend.Grammar.DocTag
import ScriptFrontend.Grammar.Element
import ScriptFrontend.Grammar.Expression
import ScriptFrontend.Grammar.Primary
import ScriptFrontend.Grammar.Statement
import ScriptFrontend.Grammar.Type

/-!
# Productions

The production behind the name of each nonterminal, and the run of a reading that calls them by
their names. Each call goes one level deeper; the levels are bounded by the size of the text, which
no reading uses up, because between two calls of the same production a token is read.
-/

namespace ScriptFrontend

def Nonterminal.production : Nonterminal → Parse (Option Node)
  | .type => some <$> Parse.wholeType
  | .operatorType => some <$> Parse.operatorType
  | .simpleType => some <$> Parse.simpleType
  | .assignment allowReturnType => some <$> Parse.assignmentAtDepth allowReturnType
  | .unary => some <$> Parse.unary
  | .simpleUnary => some <$> Parse.simpleUnary
  | .binary floor => some <$> Parse.binary floor
  | .primary => some <$> Parse.primary
  | .leftHandSide => some <$> Parse.leftHandSide
  | .decorator => some <$> Parse.decoratorExpression
  | .binding privateFault => some <$> Parse.nameOrPattern privateFault
  | .statement => some <$> Parse.statementAtDepth
  | .element place => some <$> Parse.element place
  | .innerNamespace flags => some <$> Parse.innerNamespace flags
  | .docComment start stop => Parse.commentAt start stop
  | .docTag earlier indent => some <$> Parse.docTag earlier indent
  | .docChild targets indent parent => Parse.docChild targets indent parent

def Nonterminal.exhausted (_ : Nonterminal) : Parse (Option Node) := do
  Parse.stall
  return none

namespace Productions

def upTo : Nat → Productions
  | 0 => ⟨fun n => n.exhausted ⟨fun _ => pure none⟩⟩
  | depth + 1 => ⟨fun n => n.production (upTo depth)⟩

def depthFor (text : String) : Nat := 64 * text.utf8ByteSize + 4096

end Productions

def Parse.run {α : Type} (p : Parse α) (s : ParserState) : α × ParserState :=
  p (.upTo (Productions.depthFor s.text)) s

end ScriptFrontend
