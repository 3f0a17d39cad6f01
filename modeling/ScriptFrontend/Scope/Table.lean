import Std.Data.HashMap
import ScriptFrontend.Tree.Query

/-!
# Scopes and symbols

A scope is a part of a file with names of its own; a symbol is what a name stands for in a scope.
Scopes and symbols have numbers in the order in which they were made, so the scope around a scope has
a smaller number. Identifiers that declare a symbol or refer to one are kept with its number.
-/

namespace ScriptFrontend

abbrev SymbolFlags := FlagSet .symbol

namespace SymbolFlags

def functionVariable : SymbolFlags := .flag 0
def blockVariable : SymbolFlags := .flag 1
def parameter : SymbolFlags := .flag 2
def function : SymbolFlags := .flag 3
def classValue : SymbolFlags := .flag 4
def enumeration : SymbolFlags := .flag 5
def enumMember : SymbolFlags := .flag 6
def namespaceValue : SymbolFlags := .flag 7
def importedName : SymbolFlags := .flag 8

def anyVariable : SymbolFlags := .all [functionVariable, blockVariable]

def values : SymbolFlags :=
  .all [anyVariable, parameter, function, classValue, enumeration, enumMember, namespaceValue]

def ownBinding : SymbolFlags := .all [function, classValue, enumeration, namespaceValue]

end SymbolFlags

structure Symbol where
  name : String
  flags : SymbolFlags := .empty
  declarations : List Node := []
  valueDeclaration : Option Node := none
  isExported : Bool := false
  scope : Nat
deriving Inhabited

def Symbol.declare (s : Symbol) (declaration : Node) (flags : SymbolFlags) (isExported : Bool) :
    Symbol :=
  { s with
    flags := s.flags ||| flags
    declarations := s.declarations ++ [declaration]
    valueDeclaration :=
      s.valueDeclaration <|> if flags.meets SymbolFlags.values then some declaration else none
    isExported := s.isExported || isExported }

inductive ScopeKind where
  | sourceFile
  | function
  | block
  | namespaceBody
  | enumeration
deriving DecidableEq, Repr, Inhabited

namespace ScopeKind

def name : ScopeKind → String
  | .sourceFile => "SourceFile"
  | .function => "Function"
  | .block => "Block"
  | .namespaceBody => "Module"
  | .enumeration => "Enum"

def holdsVariables : ScopeKind → Bool
  | .sourceFile | .function | .namespaceBody => true
  | .block | .enumeration => false

end ScopeKind

structure Scope where
  kind : ScopeKind
  container : Node
  locals : List (String × Nat) := []
  parent : Option Nat
deriving Inhabited

def Scope.symbol? (s : Scope) (name : String) : Option Nat := s.locals.lookup name

structure ScopeTable where
  scopes : Array Scope
  symbols : Array Symbol := #[]
  resolved : Std.HashMap Nat Nat := {}
  /-- How many references found no declaration. -/
  unresolved : Nat := 0
deriving Inhabited

namespace ScopeTable

def ofRoot (root : Node) : ScopeTable := { scopes := #[⟨.sourceFile, root, [], none⟩] }

def scope (t : ScopeTable) (i : Nat) : Scope := t.scopes.getD i default

def variableScope (t : ScopeTable) (i : Nat) : Nat :=
  go t.scopes.size i
where
  go : Nat → Nat → Nat
    | 0, i => i
    | fuel + 1, i =>
      let s := t.scope i
      match s.parent with
      | some parent => if s.kind.holdsVariables then i else go fuel parent
      | none => i

def lookup? (t : ScopeTable) (i : Nat) (name : String) : Option Nat :=
  go t.scopes.size i
where
  go : Nat → Nat → Option Nat
    | 0, i => (t.scope i).symbol? name
    | fuel + 1, i =>
      let s := t.scope i
      match s.symbol? name, s.parent with
      | some symbol, _ => some symbol
      | none, some parent => go fuel parent
      | none, none => none

def addScope (t : ScopeTable) (s : Scope) : ScopeTable := { t with scopes := t.scopes.push s }

def symbolIn (t : ScopeTable) (i : Nat) (name : String) : Nat × ScopeTable :=
  match (t.scope i).symbol? name with
  | some symbol => (symbol, t)
  | none =>
    let symbol := t.symbols.size
    (symbol, { t with
      symbols := t.symbols.push { name, scope := i }
      scopes := t.scopes.modify i fun s => { s with locals := (name, symbol) :: s.locals } })

/-- Declares a name in a scope. A name without a text declares nothing. -/
def declare (t : ScopeTable) (i : Nat) (name declaration : Node) (flags : SymbolFlags)
    (isExported : Bool) : ScopeTable :=
  match name.nameText? with
  | none | some "" => t
  | some text =>
    let (symbol, t) := t.symbolIn i text
    { t with
      symbols := t.symbols.modify symbol (·.declare declaration flags isExported)
      resolved := t.resolved.insert name.id symbol }

def refer (t : ScopeTable) (i : Nat) (name : Node) : ScopeTable :=
  match name.identifierText? with
  | none => t
  | some text =>
    match t.lookup? i text with
    | some symbol => { t with resolved := t.resolved.insert name.id symbol }
    | none => { t with unresolved := t.unresolved + 1 }

/-! ## Questions about identifiers -/

/-- The symbol that an identifier declares or refers to. A made node stands for its original. -/
def symbolOf? (t : ScopeTable) (n : Node) : Option Nat :=
  let n := n.parsed
  if n.isSynthesized then none else t.resolved[n.id]?

def symbol? (t : ScopeTable) (n : Node) : Option Symbol := do t.symbols[← t.symbolOf? n]?

def importOf? (t : ScopeTable) (n : Node) : Option Node := do
  let s ← t.symbol? n
  if s.flags.has SymbolFlags.importedName then s.declarations.head? else none

/-- The first declaration with a value that an identifier refers to; imports have none. -/
def valueOf? (t : ScopeTable) (n : Node) : Option Node := do
  let s ← t.symbol? n
  if s.flags.has SymbolFlags.importedName then none else s.valueDeclaration

/-- What makes the scope that exports what an identifier refers to. Declarations that keep a binding
of their own count only with `ownBindings`. -/
def exporterOf? (t : ScopeTable) (n : Node) (ownBindings : Bool) : Option Node := do
  let s ← t.symbol? n
  let keepsOwn := s.flags.meets SymbolFlags.ownBinding && !s.flags.meets SymbolFlags.anyVariable
  if !s.isExported || (!ownBindings && keepsOwn) then none
  let scope ← t.scopes[s.scope]?
  match scope.kind with
  | .sourceFile | .namespaceBody | .enumeration => some scope.container
  | .function | .block => none

end ScopeTable

end ScriptFrontend
