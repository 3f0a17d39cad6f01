import ScriptFrontend.Print.Writer

/-!
# Printing names and literals

Literals that were read are copied from their text, so that their quotes and escapes stay as they
are. Made strings are put between double quotes: `quoteString` escapes quotes, backslashes, and all
that would end the line or is a control character.
-/

namespace ScriptFrontend

namespace Print

def capitalHexDigit (n : Nat) : Char := ((Nat.toDigits 16 n).headD '0').toUpper

def escapedChar (c : Char) : String :=
  match c with
  | '"' => "\\\""
  | '\\' => "\\\\"
  | '\n' => "\\n"
  | '\r' => "\\r"
  | '\t' => "\\t"
  | '\u2028' => "\\u2028"
  | '\u2029' => "\\u2029"
  | c =>
    if c.toNat < 0x20 then
      String.ofList ['\\', 'u', '0', '0', capitalHexDigit (c.toNat / 16),
        capitalHexDigit (c.toNat % 16)]
    else c.toString

def quoteString (text : String) : String :=
  "\"" ++ text.foldl (fun out c => out ++ escapedChar c) "" ++ "\""

def tokenTextOf (k : Kind) : String := k.tokenText?.getD ""

def name (n : Node) : Print Unit := write (n.identifierText?.getD (tokenTextOf n.kind))

def literal (n : Node) : Print Unit := do
  if !n.isSynthesized then writeSource n
  else
    let text := n.literalText?.getD ""
    if n.literalText?.isSome && n.kind == .stringLiteral then write (quoteString text)
    else write text

def propertyName (n : Node) : Print Unit := do
  match n.form with
  | .identifier _ _ => name n
  | .literal _ _ _ => literal n
  | .wrapped e =>
    write "["
    expression e
    write "]"
  | _ => expression n

def exportedName (n : Node) : Print Unit :=
  if n.kind == .stringLiteral then literal n else name n

def initializer (value : Option Node) : Print Unit :=
  value.forM fun e => do
    write " = "
    expression e

def bindingElement (n : Node) : Print Unit := do
  let .bindingElement p := n.form | return
  if p.dots.isSome then write "..."
  p.propertyName.forM fun key => do
    propertyName key
    write ": "
  printAs .binding p.name
  initializer p.value

def closeHole (items : List Node) : Print Unit :=
  if items.getLast?.any (·.kind == .omittedExpression) then write "," else pure ()

def bindingName (n : Node) : Print Unit := do
  match n.kind, n.form with
  | .objectBindingPattern, .list _ l =>
    if l.isEmpty then write "\x7b\x7d"
    else
      write "\x7b "
      separated ", " bindingElement l.items
      write " \x7d"
  | .arrayBindingPattern, .list _ l =>
    write "["
    separated ", " bindingElement l.items
    closeHole l.items
    write "]"
  | _, _ => name n

end Print

end ScriptFrontend
