import ScriptFrontend.Tree.Query

/-!
# Writing text

A writer holds what is written so far. The first piece on a line comes after the indentation of its
level; a line is only ended if something stands on it. Printing is a computation over a writer that
reads a style, the text that a tree came from, what to print in place of some nodes, and how a node
is printed in each of its roles.
-/

namespace ScriptFrontend

structure PrintStyle where
  indent : String := "    "
  newLine : String := "\n"
  trailingNewLine : Bool := true
deriving DecidableEq, Repr, Inhabited

/-- What is printed in place of expressions and statements. -/
structure Substitution where
  expression : Node → Option Node := fun _ => none
  statement : Node → Option (List Node) := fun _ => none

namespace Substitution

def none : Substitution := {}

def orElse (a b : Substitution) : Substitution where
  expression n := a.expression n <|> b.expression n
  statement n := a.statement n <|> b.statement n

end Substitution

structure Writer where
  out : String := ""
  level : Nat := 0
  atLineStart : Bool := true
deriving Repr, Inhabited

namespace Writer

def write (w : Writer) (style : PrintStyle) (s : String) : Writer :=
  if s.isEmpty then w
  else
    let indent :=
      if w.atLineStart then String.join (List.replicate w.level style.indent) else ""
    { w with out := w.out ++ indent ++ s, atLineStart := false }

def writeRaw (w : Writer) (s : String) : Writer :=
  if s.isEmpty then w else { w with out := w.out ++ s, atLineStart := false }

def endLine (w : Writer) (style : PrintStyle) : Writer :=
  if w.atLineStart then w else { w with out := w.out ++ style.newLine, atLineStart := true }

end Writer

inductive PrintRole where
  | statement
  | expression
  | wholeExpression
  | settled
  | binding
  | element
deriving DecidableEq, Repr

structure Printing where
  style : PrintStyle
  source : String
  substitution : Substitution
  print : PrintRole → Node → StateM Writer Unit

abbrev Print := ReaderT Printing (StateM Writer)

namespace Print

def printAs (role : PrintRole) (n : Node) : Print Unit := fun p => p.print role n

def expression (n : Node) : Print Unit := printAs .expression n

def statement (n : Node) : Print Unit := printAs .statement n

def write (s : String) : Print Unit := do
  let style := (← read).style
  modify (·.write style s)

def endLine : Print Unit := do
  let style := (← read).style
  modify (·.endLine style)

def indented (p : Print Unit) : Print Unit := do
  modify fun w => { w with level := w.level + 1 }
  p
  modify fun w => { w with level := w.level - 1 }

def braced (p : Print Unit) : Print Unit := do
  write "\x7b"
  endLine
  indented p
  write "\x7d"

def separated (separator : String) (print : Node → Print Unit) : List Node → Print Unit
  | [] => pure ()
  | [n] => print n
  | n :: rest => do
    print n
    write separator
    separated separator print rest

def sourceText (n : Node) : Print String := do return n.textIn (← read).source

def writeSource (n : Node) : Print Unit := do write (← sourceText n)

end Print

end ScriptFrontend
