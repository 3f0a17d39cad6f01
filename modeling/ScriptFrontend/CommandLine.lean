import ScriptFrontend.Options.Config

/-!
# The command line

Words that start with a dash are options, some with a value behind them; all others are files. Files
on the command line stand for those of a configuration file, and options for those that it has.
-/

namespace ScriptFrontend

structure CommandLine where
  files : List String := []
  project : Option String := none
  outDir : Option String := none
  module : Option ModuleKind := none
  jsx : Option JsxKind := none
  target : Option ScriptTarget := none
  noEmit : Bool := false
  checksEdits : Bool := false
  printsTree : Bool := false
  listsFiles : Bool := false
deriving DecidableEq, Repr, Inhabited

inductive CommandError where
  | unknownOption (word : String)
  | missingValue (option : String)
  | invalid (value : Options.InvalidValue)
deriving DecidableEq, Repr

def CommandError.message : CommandError → String
  | .unknownOption word => s!"unexpected argument '{word}' found"
  | .missingValue option => s!"a value is required for '{option}' but none was supplied"
  | .invalid e => e.message

namespace CommandLine

def addFile (c : CommandLine) (file : String) : CommandLine := { c with files := c.files ++ [file] }

def withFlag? (c : CommandLine) : String → Option CommandLine
  | "--noEmit" => some { c with noEmit := true }
  | "--aggressive-checks" => some { c with checksEdits := true }
  | "--print-tree" => some { c with printsTree := true }
  | "--listFiles" => some { c with listsFiles := true }
  | _ => none

def withValue? (c : CommandLine) (value : String) :
    String → Option (Except Options.InvalidValue CommandLine)
  | "-p" | "--project" => some (.ok { c with project := some value })
  | "--outDir" => some (.ok { c with outDir := some value })
  | "--module" => some ((Options.moduleOf value).map fun m => { c with module := some m })
  | "--jsx" => some ((Options.jsxOf value).map fun j => { c with jsx := some j })
  | "--target" => some ((Options.targetOf value).map fun t => { c with target := some t })
  | _ => none

def parseFrom (c : CommandLine) : List String → Except CommandError CommandLine
  | [] => .ok c
  | [word] =>
    if !word.startsWith "-" then .ok (c.addFile word)
    else
      match c.withFlag? word, c.withValue? "" word with
      | some c, _ => .ok c
      | none, some _ => .error (.missingValue word)
      | none, none => .error (.unknownOption word)
  | word :: value :: rest =>
    if !word.startsWith "-" then (c.addFile word).parseFrom (value :: rest)
    else
      match c.withFlag? word, c.withValue? value word with
      | some c, _ => c.parseFrom (value :: rest)
      | none, some (.ok c) => c.parseFrom rest
      | none, some (.error e) => .error (.invalid e)
      | none, none => .error (.unknownOption word)

def parse (words : List String) : Except CommandError CommandLine := parseFrom {} words

def override (c : CommandLine) (o : Options) : Options :=
  { o with
    outDir := c.outDir <|> o.outDir
    module := c.module.getD o.module
    jsx := c.jsx.getD o.jsx
    target := c.target.getD o.target
    noEmit := o.noEmit || c.noEmit
    checksEdits := o.checksEdits || c.checksEdits }

end CommandLine

end ScriptFrontend
