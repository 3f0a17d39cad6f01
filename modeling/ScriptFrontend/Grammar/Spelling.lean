import ScriptFrontend.Grammar.State
import ScriptFrontend.Text.Spelling

/-!
# Explaining a missing semicolon

A word alone, with no semicolon after it, mostly is a word of the language that is misspelled or
stands in the wrong place.
-/

namespace ScriptFrontend

def suggestedWords : List String :=
  ["abstract", "accessor", "any", "asserts", "assert", "async", "await", "bigint", "boolean",
    "break", "case", "catch", "class", "const", "constructor", "continue", "debugger", "declare",
    "default", "delete", "else", "enum", "export", "extends", "false", "finally", "for", "from",
    "function", "get", "global", "implements", "import", "infer", "instanceof", "interface",
    "intrinsic", "keyof", "let", "module", "namespace", "never", "new", "null", "number", "object",
    "out", "override", "package", "private", "protected", "public", "readonly", "require", "return",
    "satisfies", "set", "static", "string", "super", "switch", "symbol", "this", "throw", "true",
    "try", "type", "typeof", "undefined", "unique", "unknown", "using", "var", "void", "while",
    "with", "yield"]

/-- A word of the language that was likely meant: one close to the text, or one that the text begins
with where a blank is missing. -/
def meantWord? (text : String) : Option String :=
  match Text.closestWord? text suggestedWords with
  | some word => some word
  | none =>
    (suggestedWords.find? fun word =>
      text.utf8ByteSize > word.utf8ByteSize + 2 && Text.startsAt text 0 word).map fun word =>
        word ++ " " ++ Text.dropTo text word.utf8ByteSize

namespace Parse

open Diagnostic (Fault)

/-- Reports a declaration whose name cannot be one, or that has none before a token. -/
def errorInvalidName (nameFault blankFault : Fault) (tokenIfBlank : Kind) : Parse Unit := do
  if ← tokenIs tokenIfBlank then errorHere blankFault []
  else errorHere nameFault [← tokenValue]

def errorMissingSemicolon (n : Node) : Parse Unit := do
  let source ← sourceText
  if let .taggedTemplate p := n.form then
    return ← errorAt (p.template.startIn source) p.template.stop .moduleNameQuotes []
  let text := if n.kind == .identifier then n.identifierText?.getD "" else ""
  let start := n.startIn source
  match text with
  | "" => errorHere .expected [";"]
  | "const" | "let" | "var" => errorAt start n.stop .variableDeclarationNotAllowed []
  | "declare" => return
  | "interface" => errorInvalidName .interfaceNameNotAllowed .unnamedInterface .openBraceToken
  | "is" => errorAt start (← tokenStart) .predicateNotInReturn []
  | "module" | "namespace" =>
    errorInvalidName .namespaceNameNotAllowed .unnamedNamespace .openBraceToken
  | "type" => errorInvalidName .typeAliasNameNotAllowed .unnamedTypeAlias .equalsToken
  | text =>
    match meantWord? text with
    | some word => errorAt start n.stop .unknownWord [word]
    | none =>
      -- An invalid character was reported when it was read.
      unless ← tokenIs .unknown do errorAt start n.stop .unexpectedWord []

end Parse

end ScriptFrontend
