import ScriptFrontend.Text.Span

/-!
# Diagnostics

A diagnostic is a category, a code and a text, with a place where it has one. Message templates
hold numbered holes such as `{0}`; `fillTemplate` fills them one after the other, so that a hole
inside an earlier argument is filled by a later one.
-/

namespace ScriptFrontend

open Text (Span)

namespace Diagnostic

inductive Category where
  | warning
  | error
  | suggestion
  | message
deriving DecidableEq, Repr, Inhabited

def Category.word : Category → String
  | .warning => "warning"
  | .error => "error"
  | .suggestion => "suggestion"
  | .message => "message"

def hole (i : Nat) : String := "\x7b" ++ toString i ++ "\x7d"

def fillHole (hole arg : List Char) : List Char → List Char
  | [] => []
  | c :: cs =>
    if hole.isPrefixOf (c :: cs) then arg ++ fillHole hole arg (cs.drop (hole.length - 1))
    else c :: fillHole hole arg cs
termination_by cs => cs.length
decreasing_by
  all_goals
    simp only [List.length_drop, List.length_cons]
    omega

def fillFrom (i : Nat) (template : String) : List String → String
  | [] => template
  | arg :: rest =>
    fillFrom (i + 1) (.ofList (fillHole (hole i).toList arg.toList template.toList)) rest

def fillTemplate (template : String) (args : List String) : String := fillFrom 0 template args

structure Message where
  code : Nat
  category : Category
  template : String
deriving DecidableEq, Repr, Inhabited

def Message.text (m : Message) (args : List String) : String := fillTemplate m.template args

/-- A second place that explains a diagnostic. -/
structure Related where
  file : Option String
  span : Span
  text : String
  code : Nat
deriving DecidableEq, Repr, Inhabited

end Diagnostic

open Diagnostic

structure Diagnostic where
  file : Option String
  span : Option Span
  text : String
  code : Nat
  category : Category
  related : List Related := []
deriving DecidableEq, Repr, Inhabited

namespace Diagnostic

def ofMessage (m : Message) (args : List String) : Diagnostic :=
  ⟨none, none, m.text args, m.code, m.category, []⟩

def located (file : String) (span : Span) (m : Message) (args : List String) : Diagnostic :=
  ⟨some file, some span, m.text args, m.code, m.category, []⟩

def addRelated (d : Diagnostic) (span : Span) (m : Message) (args : List String) : Diagnostic :=
  { d with related := d.related ++ [⟨d.file, span, m.text args, m.code⟩] }

def isError (d : Diagnostic) : Bool := d.category == .error

def start? (d : Diagnostic) : Option Nat := d.span.map (·.start)

/-- One line: the place, where there is one, then category, code and text. -/
def render (d : Diagnostic) : String :=
  let place :=
    match d.file, d.span with
    | some file, some span => s!"{file}({span.start}): "
    | some file, none => s!"{file}: "
    | none, _ => ""
  s!"{place}{d.category.word} TS{d.code}: {d.text}"

end Diagnostic

end ScriptFrontend
