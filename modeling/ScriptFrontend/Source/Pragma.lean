import ScriptFrontend.Diagnostic.Fault
import ScriptFrontend.Text.Span
import ScriptFrontend.Token.Comment

/-!
# Pragmas

Comments at the top of a file may hold pragmas. An element behind three slashes names its arguments;
a word behind an at sign takes those that follow it in their order, to the end of a line. Which
pragmas there are, where they may stand and which arguments they take is one table. A pragma without
an argument that it needs does not count.

Directives are what the pragmas of a file ask for: other files and libraries, modules that it depends on,
its own name as a module, and whether it is checked.
-/

namespace ScriptFrontend

inductive PragmaForm where
  | element
  | line
  | block
deriving DecidableEq, Repr

structure PragmaArgument where
  name : String
  isRequired : Bool
deriving DecidableEq, Repr

structure PragmaRule where
  name : String
  form : PragmaForm
  arguments : List PragmaArgument
deriving DecidableEq, Repr

structure Pragma where
  name : String
  range : Text.Range
  arguments : List (String × String)
deriving DecidableEq, Repr, Inhabited

namespace Pragma

def rules : List PragmaRule :=
  [⟨"reference", .element, [⟨"types", false⟩, ⟨"lib", false⟩, ⟨"path", false⟩,
      ⟨"no-default-lib", false⟩, ⟨"resolution-mode", false⟩, ⟨"preserve", false⟩]⟩,
    ⟨"amd-dependency", .element, [⟨"path", true⟩, ⟨"name", false⟩]⟩,
    ⟨"amd-module", .element, [⟨"name", true⟩]⟩,
    ⟨"ts-check", .line, []⟩,
    ⟨"ts-nocheck", .line, []⟩,
    ⟨"jsx", .block, [⟨"factory", true⟩]⟩,
    ⟨"jsxfrag", .block, [⟨"factory", true⟩]⟩,
    ⟨"jsximportsource", .block, [⟨"factory", true⟩]⟩,
    ⟨"jsxruntime", .block, [⟨"factory", true⟩]⟩]

def rule? (name : String) (form : PragmaForm) : Option PragmaRule :=
  rules.find? fun r => r.name == name && r.form == form

def argument? (p : Pragma) (name : String) : Option String := p.arguments.lookup name

/-! ## Letters and words -/

/-- The small form of a character if it is a Latin letter; the sign of the kelvin is one. -/
def smallLetter (c : Char) : Char := if c == '\u212A' then 'k' else c.toLower

/-- The character is a form of a small letter; the long s is one of the s. -/
def isFormOf (c small : Char) : Bool := smallLetter c == small || (c == '\u017F' && small == 's')

def dropBlanks (cs : List Char) : List Char := cs.dropWhile Text.isUnicodeBlank

/-- The part of a text up to the first character that fails a test, and the rest. -/
def wordBefore (p : Char → Bool) (cs : List Char) : String × List Char :=
  (String.ofList (cs.takeWhile p), cs.dropWhile p)

def isInWord (c : Char) : Bool := !Text.isUnicodeBlank c

def lowerName (name : String) : String := String.ofList (name.toList.map smallLetter)

def wordsOf (cs : List Char) : List String :=
  ((cs.splitBy fun a b => isInWord a == isInWord b).filter fun w => w.all isInWord).map
    String.ofList

/-! ## Named arguments -/

def afterName? : List Char → List Char → Option (List Char)
  | [], cs => some cs
  | n :: name, c :: cs => if isFormOf c n then afterName? name cs else none
  | _ :: _, [] => none

/-- A text that begins with a blank, a name, an equals sign and a quoted value: the value, with all
that stands behind its opening quote. -/
def quotedAfter? (name : List Char) : List Char → Option (List Char × List Char)
  | [] => none
  | c :: cs => do
    if isInWord c then none
    let rest ← afterName? name cs
    let '=' :: rest := dropBlanks rest | none
    let quote :: rest := dropBlanks rest | none
    if quote != '\'' && quote != '"' then none
    if rest.contains quote then some (rest.takeWhile (· != quote), rest) else none

def findQuoted? (name : List Char) : List Char → Option (List Char × List Char)
  | [] => none
  | c :: cs => quotedAfter? name (c :: cs) <|> findQuoted? name cs

/-- The value of a named argument in a comment and its offset there; an empty value is none. -/
def namedValue? (comment name : String) : Option (String × Nat) := do
  let (value, rest) ← findQuoted? name.toList comment.toList
  if value.isEmpty then none
  some (String.ofList value, comment.utf8ByteSize - (String.ofList rest).utf8ByteSize)

/-- The arguments that a pragma takes, each with its value; none if one that it needs has none. -/
def collect? (value? : PragmaArgument → Option String) :
    List PragmaArgument → Option (List (String × String))
  | [] => some []
  | a :: rest =>
    match value? a with
    | some v => (collect? value? rest).map ((a.name, v) :: ·)
    | none => if a.isRequired then none else collect? value? rest

/-! ## Pragmas in comments -/

def elementName? (comment : List Char) : Option String := do
  let '/' :: '/' :: '/' :: rest := comment | none
  let '<' :: rest := dropBlanks rest | none
  let (name, rest) := wordBefore isInWord rest
  let _ :: rest := rest | none
  if name.isEmpty || !Text.contains (String.ofList rest) "/>" then none
  some (lowerName name)

def lineName? (comment : List Char) : Option String := do
  let '/' :: '/' :: rest := comment | none
  let rest := match rest with
    | '/' :: rest => rest
    | _ => rest
  let '@' :: rest := dropBlanks rest | none
  let (name, _) := wordBefore (fun c => isInWord c && c != ':') rest
  if name.isEmpty then none
  some (lowerName name)

def ofLine? (comment : String) (range : Text.Range) : Option Pragma :=
  match elementName? comment.toList with
  | some name => do
    let rule ← rule? name .element
    let arguments ← collect? (fun a => (namedValue? comment a.name).map (·.1)) rule.arguments
    some ⟨name, range, arguments⟩
  | none => do
    let name ← lineName? comment.toList
    let _ ← rule? name .line
    some ⟨name, range, []⟩

def ofWord? (name : String) (following : List Char) (range : Text.Range) : Option Pragma := do
  let rule ← rule? name .block
  if following.isEmpty then return ⟨name, range, []⟩
  let values := (rule.arguments.map (·.name)).zip (wordsOf following)
  some ⟨name, range, ← collect? (fun a => values.lookup a.name) rule.arguments⟩

def isOnLine (c : Char) : Bool := c != '\r' && c != '\n'

/-- The words behind at signs in a block comment. Blanks may reach over lines; what follows them on a
line belongs to the word. -/
def ofBlock (range : Text.Range) (comment : List Char) : List Pragma :=
  go comment.length comment
where
  go : Nat → List Char → List Pragma
    | 0, _ => []
    | fuel + 1, cs =>
      match cs.dropWhile (· != '@') with
      | [] => []
      | _ :: rest =>
        let (name, rest) := wordBefore isInWord rest
        if name.isEmpty then go fuel rest
        else
          let blanks := rest.takeWhile Text.isUnicodeBlank
          let afterBlanks := dropBlanks rest
          let line := if blanks.isEmpty then [] else blanks ++ afterBlanks.takeWhile isOnLine
          let rest := if blanks.isEmpty then rest else afterBlanks.dropWhile isOnLine
          (ofWord? (lowerName name) line range).toList ++ go fuel rest

def ofComment (source : String) (c : Comment) : List Pragma :=
  let text := c.text source
  let range : Text.Range := ⟨c.pos, c.stop⟩
  if c.isBlock then ofBlock range text.toList else (ofLine? text range).toList

def ofText (source : String) : List Pragma :=
  (Comment.leading source 0).flatMap (ofComment source)

/-- Pragmas of one name together, in the order in which the names come first. -/
def groups (pragmas : List Pragma) : List (String × List Pragma) :=
  (pragmas.map (·.name)).eraseDups.map fun name => (name, pragmas.filter (·.name == name))

end Pragma

/-! ## Directives -/

open Diagnostic (Fault)

structure FileReference where
  fileName : String
  preserve : Bool
  range : Text.Range
deriving DecidableEq, Repr, Inhabited

structure ModuleDependency where
  path : String
  name : Option String
deriving DecidableEq, Repr, Inhabited

structure CheckDirective where
  enabled : Bool
  range : Text.Range
deriving DecidableEq, Repr, Inhabited

structure Directives where
  files : List FileReference := []
  types : List FileReference := []
  libraries : List FileReference := []
  hasNoDefaultLibrary : Bool := false
  dependencies : List ModuleDependency := []
  moduleName : Option String := none
  check : Option CheckDirective := none
deriving DecidableEq, Repr, Inhabited

abbrev PragmaFault := Fault × Text.Range

namespace Directives

def reference? (text : String) (p : Pragma) (name : String) : Option FileReference := do
  let (value, offset) ← Pragma.namedValue? (Text.slice text p.range.pos p.range.stop) name
  let pos := p.range.pos + offset
  some ⟨value, p.argument? "preserve" == some "true", ⟨pos, pos + value.utf8ByteSize⟩⟩

def addReference (text : String) (d : Directives) (p : Pragma) : Directives × List PragmaFault :=
  if p.argument? "no-default-lib" == some "true" then ({ d with hasNoDefaultLibrary := true }, [])
  else
    match reference? text p "types", reference? text p "lib", reference? text p "path" with
    | some r, _, _ => ({ d with types := d.types ++ [r] }, [])
    | none, some r, _ => ({ d with libraries := d.libraries ++ [r] }, [])
    | none, none, some r => ({ d with files := d.files ++ [r] }, [])
    | none, none, none => (d, [(.invalidReference, p.range)])

def addDependency (d : Directives) (p : Pragma) : Directives :=
  match p.argument? "path" with
  | some path => { d with dependencies := d.dependencies ++ [⟨path, p.argument? "name"⟩] }
  | none => d

def addModuleName (d : Directives) (p : Pragma) : Directives × List PragmaFault :=
  ({ d with moduleName := p.argument? "name" },
    if d.moduleName.isSome then [(.repeatedModuleName, p.range)] else [])

def addCheck (d : Directives) (p : Pragma) (enabled : Bool) : Directives :=
  if d.check.all fun c => p.range.pos > c.range.pos then { d with check := some ⟨enabled, p.range⟩ }
  else d

def add (text : String) (d : Directives) (p : Pragma) : Directives × List PragmaFault :=
  match p.name with
  | "reference" => addReference text d p
  | "amd-dependency" => (addDependency d p, [])
  | "amd-module" => addModuleName d p
  | "ts-check" => (addCheck d p true, [])
  | "ts-nocheck" => (addCheck d p false, [])
  | _ => (d, [])

def ofPragmas (text : String) (pragmas : List Pragma) : Directives × List PragmaFault :=
  pragmas.foldl (fun (d, faults) p => let (d, more) := add text d p; (d, faults ++ more)) ({}, [])

end Directives

end ScriptFrontend
