import Mathlib.Data.List.TakeDrop
import Mathlib.Data.List.TakeWhile
import ScriptFrontend.Proofs.Registration.Dependency
import ScriptFrontend.Proofs.Registration.Setter
import ScriptFrontend.Proofs.Registration.State
import ScriptFrontend.Proofs.Scope.Module
import ScriptFrontend.Proofs.Tree.FlagSet

/-!
# The registered form of a module

A registered module names the modules that it depends on, each once, and has a setter for each of them
in the same place. The variables that setters keep modules under are declared in front of the body.

A function of a module is moved in front of its body, with the calls that export it, and its variables
are declared there. What the statements behind it do never takes anything from there, so the first
function of a name is exported before the body runs. No variable is declared twice.
-/

namespace ScriptFrontend.Registration

open Made
open ModuleFacts (isImport isStarExport)

/-! ## In front of the body -/

/-- What stands in front of the body stays there. -/
structure State.Extends (s t : State) : Prop where
  functions : s.functions <+: t.functions
  hoisted : s.hoisted <+: t.hoisted
  distinct : s.hoisted.Nodup → t.hoisted.Nodup

namespace State.Extends

variable {s t u : State}

theorem refl (s : State) : s.Extends s := ⟨List.prefix_rfl, List.prefix_rfl, id⟩

theorem trans (h : s.Extends t) (h' : t.Extends u) : s.Extends u :=
  ⟨h.functions.trans h'.functions, h.hoisted.trans h'.hoisted, h'.distinct ∘ h.distinct⟩

theorem hoist (s : State) (name : String) :
    s.Extends (if s.hoisted.contains name then s else { s with hoisted := s.hoisted ++ [name] }) := by
  split
  · exact refl s
  · rename_i fresh
    refine ⟨List.prefix_rfl, List.prefix_append _ _, fun distinct => ?_⟩
    exact List.nodup_append.mpr ⟨distinct, List.nodup_singleton _, by grind⟩

end State.Extends

instance : Stable State.Extends where
  refl := .refl
  trans _ _ _ := .trans
  unique _ _ := ⟨List.prefix_rfl, List.prefix_rfl, id⟩
  temporary _ := ⟨List.prefix_rfl, List.prefix_rfl, id⟩
  hoist := State.Extends.hoist

instance (n : Node) : Keeps State.Extends (hoistFunction n) := by
  rw [hoistFunction]
  split
  · infer_instance
  · refine .then_ fun c => .then_ fun name => ?_
    exact .ofModify fun s => ⟨List.prefix_append _ _, List.prefix_rfl, id⟩

instance (n : Node) : Keeps State.Extends (deferExports n) := by
  rw [deferExports]
  have (c : Context) (name : String) : Keeps State.Extends (modify fun s =>
      { s with deferred := hold n (declarationExports c n name) s.deferred }) :=
    .ofModify fun _ => ⟨List.prefix_rfl, List.prefix_rfl, id⟩
  infer_instance

instance (n : Node) : Keeps State.Extends (release n) :=
  .ofModifyGet fun _ => ⟨List.prefix_rfl, List.prefix_rfl, id⟩

/-! ## What a statement of the module puts there -/

/-- What a round of a loop reaches, and whatever extends it keeps, is reached by the loop. -/
theorem forIn_reaches {β γ : Type} {P : State → Prop} {l : List γ}
    {g : γ → β → Register (ForInStep β)} {c : Context} {a : γ}
    (stays : ∀ {s t : State}, s.Extends t → P s → P t) [∀ a b, Keeps State.Extends (g a b)]
    (yields : ∀ a b s, ∃ b', (g a b c s).1 = .yield b') (mem : a ∈ l)
    (reaches : ∀ b s, P (g a b c s).2) (init : β) (s : State) :
    P ((forIn l init g : Register β) c s).2 := by
  induction l generalizing init s with
  | nil => cases mem
  | cons first l ih =>
    obtain ⟨next, step⟩ := yields first init s
    rw [List.forIn_cons, Keeps.bind_run, step]
    rcases List.mem_cons.mp mem with rfl | later
    · have rest : Keeps State.Extends (forIn l next g) := inferInstance
      exact stays (rest.keeps c _) (reaches init s)
    · exact ih later next _

theorem body_reaches {P : State → Prop} {depth : Nat} {items : List Node} {c : Context} {n part : Node}
    (stays : ∀ {s t : State}, s.Extends t → P s → P t) (mem : n ∈ items)
    (expanded : part ∈ expand c n) (reaches : ∀ s, P (statement depth part c s).2) (s : State) :
    P (body depth items c s).2 := by
  refine forIn_reaches stays (fun _ _ _ => ⟨_, rfl⟩) mem (fun out s => ?_) [] s
  exact forIn_reaches stays (fun _ _ _ => ⟨_, rfl⟩) expanded (fun out s => reaches s) out s

theorem mem_items {statements : List Node} {n : Node} (mem : n ∈ statements)
    (other : isDirective n = false) : n ∈ (statements.span isDirective).2 := by
  rw [List.span_eq_takeWhile_dropWhile]
  rw [← List.takeWhile_append_dropWhile (p := isDirective) (l := statements)] at mem
  refine (List.mem_append.mp mem).resolve_left fun front => ?_
  rw [List.mem_takeWhile_imp front] at other
  cases other

/-! ## Functions -/

theorem hoistFunction_functions {c : Context} {n : Node} {name : String}
    (body : n.body?.isSome = true) (text : n.declaredText? = some name) (s : State) :
    ∃ copied, (hoistFunction n c s).2.functions = s.functions ++ copied :: exportsOf c n name := by
  have bodied : n.body?.isNone = false := by simpa using body
  have local_ : localOf n = pure name := by simp [localOf, text]
  rw [hoistFunction, bodied, local_]
  exact ⟨_, rfl⟩

/-- A function with a body is put in front, with the calls that export it behind it. -/
theorem mem_statement_of_function (depth : Nat) {c : Context} {n : Node} {name exported : String}
    (kind : n.kind = .functionDeclaration) (present : n.isAmbient = false)
    (body : n.body?.isSome = true) (text : n.declaredText? = some name)
    (named : exported ∈ c.facts.exportNames n) (s : State) :
    exportStatement c exported (identifier name) ∈ (statement depth n c s).2.functions := by
  have step : statement depth n = (do hoistFunction n; return []) := by
    rw [statement, present]
    simp only [kind]
    rfl
  obtain ⟨copied, functions⟩ := hoistFunction_functions (c := c) body text s
  rw [step, Keeps.bind_run]
  change _ ∈ (hoistFunction n c s).2.functions
  rw [functions]
  exact List.mem_append_right _ (List.mem_cons_of_mem _ (List.mem_map_of_mem named))

/-! ## The parts of a registered module -/

structure Registered where
  moduleName : Option String
  specifiers : List String
  directives : List Node
  hoisted : List String
  /-- Functions in front of the body, with the calls that export them, and the helpers for stars. -/
  inner : List Node
  setters : List Node
  execute : List Node
  isAsync : Bool

def Registered.tree (c : Context) (r : Registered) : Node :=
  let factory := strictDirective :: r.directives ++ hoistedStatement r.hoisted ++
    moduleNameStatement c :: r.inner ++ [returnStatement (registration r.setters r.execute r.isAsync)]
  expressionStatement (call (member (identifier "System") "register")
    ((r.moduleName.map stringLiteral).toList ++
      [array (r.specifiers.map stringLiteral) false, function [c.exporter, c.context] factory]))

def bodyStatements (f : SourceFile) : List Node := (f.statements.span isDirective).2

/-- The parts of the registered form of a file with some dependencies, by what its body became. -/
def Registered.ofBody (f : SourceFile) (c : Context) (groups : List Dependency) (execute : List Node) (s : State) :
    Registered :=
  let helpers := starHelper c s.names
  { moduleName := f.directives.moduleName
    specifiers := groups.map (·.moduleName)
    directives := (f.statements.span isDirective).1.filter fun n =>
      n.expression?.bind Node.literalText? != some "use strict"
    hoisted := s.hoisted
    inner := s.functions ++ helpers.1.1
    setters := (Registration.setters c helpers.1.2 groups helpers.2).1
    execute
    isAsync := (bodyStatements f).any waits }

theorem exists_ofBody {f : SourceFile} {scopes : ScopeTable} {facts : ModuleFacts} {lowering : Lowering} {c : Context}
    {statements : List Node} (h : ofFile f scopes facts lowering = .ok (statements, c)) :
    ∃ groups names execute s,
      dependencies facts.imports (start f scopes facts lowering).1 (start f scopes facts lowering).2 =
        (groups, c, names) ∧
      body (f.root.height + 1) (bodyStatements f) c { names } = (execute, s) ∧
      statements = [(Registered.ofBody f c groups execute s).tree c] := by
  simp only [ofFile] at h
  generalize dependencies facts.imports _ _ = depends at h ⊢
  obtain ⟨groups, c', names⟩ := depends
  split at h
  rename_i execute s ran
  split at h
  · cases h
  · cases h
    refine ⟨groups, names, execute, s, rfl, ran, ?_⟩
    simp only [Registered.tree, Registered.ofBody, registerCall, List.map_map, List.append_assoc, List.cons_append]
    rfl

/-- An import has the kind of a statement that declares its local name. -/
def FitsImport (n : Node) : Prop :=
  (∀ p, n.form = .importDeclaration p → n.kind = .importDeclaration) ∧
    ∀ p, n.form = .importEquals p → n.kind = .importEqualsDeclaration

variable {c : Context} {n : Node} {name : String} {s : State}

/-! ## The variables of imports -/

theorem mem_hoist (name : String) (c : Context) (s : State) : name ∈ (hoist name c s).2.hoisted := by
  change name ∈ (if s.hoisted.contains name then s else _).hoisted
  split
  · rename_i old
    exact List.contains_iff_mem.mp old
  · exact List.mem_append_right _ (List.mem_singleton_self _)

theorem mem_hoistLocal (own : c.local? n = some name) (s : State) :
    name ∈ (hoistLocal n c s).2.hoisted := by
  have run : hoistLocal n c s = (c.local? n).forM hoist c s := rfl
  rw [run, own]
  exact mem_hoist name c s

theorem local?_of_keeps? (keeps : keeps? c n = some name) :
    c.local? n = some name ∧ ((∃ p, n.form = .importDeclaration p) ∨ ∃ p, n.form = .importEquals p) := by
  rw [keeps?] at keeps
  split at keeps
  · split at keeps
    · exact ⟨keeps, .inl ⟨_, ‹_›⟩⟩
    · cases keeps
  · exact ⟨keeps, .inr ⟨_, ‹_›⟩⟩
  · cases keeps

theorem isAmbient_of_isImport (imported : isImport n = true) : n.isAmbient = false := by
  have absent := (Bool.and_eq_true_iff.mp imported).1
  have same := FlagSet.has_flag_eq_meets n.modifierFlags 1 (by decide)
  exact same.symm.trans (Bool.not_eq_true' _ ▸ absent)

theorem kind_of_keeps? (fits : FitsImport n) (keeps : keeps? c n = some name) :
    n.kind = .importDeclaration ∨ n.kind = .importEqualsDeclaration :=
  (local?_of_keeps? keeps).2.imp (fun ⟨p, form⟩ => fits.1 p form) fun ⟨p, form⟩ => fits.2 p form

/-- The statement of an import declares the name that its module is kept under. -/
theorem mem_statement_of_keeps? (depth : Nat) (imported : isImport n = true) (fits : FitsImport n)
    (keeps : keeps? c n = some name) (s : State) : name ∈ (statement depth n c s).2.hoisted := by
  have own := (local?_of_keeps? keeps).1
  have kind := kind_of_keeps? fits keeps
  rw [statement, isAmbient_of_isImport imported]
  rcases kind with kind | kind
  all_goals
    simp only [kind]
    exact mem_hoistLocal own s

/-! ## The whole module -/

/-- A registered module depends on the modules that its imports name, each once, in the order in which
they are first named; its setters stand in the same order, and each does what the imports of its own
module ask for. The variables of setters are declared in front of the body, each once. -/
structure Registered.Answers (c : Context) (imports : List Node) (r : Registered) : Prop where
  specifiers : r.specifiers = namedModules imports
  setters : ∃ star, List.Forall₂ (fun specifier setter => Serves c star (importsOf imports specifier) setter)
    r.specifiers r.setters
  distinct : r.hoisted.Nodup
  hoisted : ∀ n ∈ imports, ∀ name ∈ keeps? c n, name ∈ r.hoisted

theorem groups_serve {groups : List Dependency} {imports : List Node} {names names' : NameSupply}
    (made : groups = grouped imports) (starred : c.facts.hasExportStar = imports.any isStarExport) :
    List.Forall₂
      (fun specifier setter => Serves c (starHelper c names).1.2 (importsOf imports specifier) setter)
      (groups.map (·.moduleName)) (setters c (starHelper c names).1.2 groups names').1 := by
  have helped (d : Dependency) (mem : d ∈ groups) (n : Node) (entry : n ∈ d.entries)
      (all : isStarExport n = true) : (starHelper c names).1.2.isSome = true := by
    rw [made] at mem
    obtain ⟨specifier, -, rfl⟩ := List.mem_map.mp mem
    have star : c.facts.hasExportStar = true := by
      rw [starred, List.any_eq_true]
      exact ⟨n, (List.mem_filter.mp entry).1, all⟩
    rw [starHelper, if_pos star]
    rfl
  subst made
  rw [grouped_moduleNames]
  have served : List.Forall₂
      (fun (d : Dependency) setter => Serves c (starHelper c names).1.2 d.entries setter) _
      (setters c (starHelper c names).1.2 _ names').1 := setters_serve helped
  rw [grouped] at served
  have specifiers := List.forall₂_map_left_iff.mp served
  exact specifiers

theorem ofFile_answers {f : SourceFile} {scopes : ScopeTable} {lowering : Lowering}
    {statements : List Node} (h : ofFile f scopes (.ofFile f.root scopes) lowering = .ok (statements, c))
    (fits : ∀ n ∈ f.statements, isImport n = true → FitsImport n)
    (whole : ∀ n ∈ f.statements, isImport n = true → lowering.replacement? n = none) :
    ∃ r : Registered, statements = [r.tree c] ∧ r.Answers c (f.statements.filter isImport) := by
  obtain ⟨imports_eq, star_eq⟩ := ModuleFacts.ofFile_imports f.root scopes
  obtain ⟨groups, names, execute, s, depends, ran, rfl⟩ := exists_ofBody h
  have made := dependencies_madeOf (ModuleFacts.ofFile f.root scopes).imports
    (start f scopes (.ofFile f.root scopes) lowering).1
    (start f scopes (.ofFile f.root scopes) lowering).2
  have groups_eq := dependencies_grouped (ModuleFacts.ofFile f.root scopes).imports
    (start f scopes (.ofFile f.root scopes) lowering).1
    (start f scopes (.ofFile f.root scopes) lowering).2
  rw [depends] at made groups_eq
  have facts_eq : c.facts = .ofFile f.root scopes := made.facts_eq
  have lowering_eq : c.lowering = lowering := made.lowering_eq
  replace groups_eq : groups = grouped (f.statements.filter isImport) :=
    groups_eq.trans (congrArg _ imports_eq)
  replace star_eq : c.facts.hasExportStar = (f.statements.filter isImport).any isStarExport :=
    facts_eq ▸ star_eq
  have keeps : Keeps State.Extends (body (f.root.height + 1) (bodyStatements f)) := inferInstance
  have extended : State.Extends { names } s := by
    have := keeps.keeps c { names }
    rwa [ran] at this
  refine ⟨_, rfl, ?specifiers, ⟨_, groups_serve groups_eq star_eq⟩, extended.distinct List.nodup_nil, ?hoisted⟩
  case specifiers => rw [Registered.ofBody, groups_eq, grouped_moduleNames]
  case hoisted =>
    intro n mem name keeps
    obtain ⟨mem, imported⟩ := List.mem_filter.mp mem
    have fit := fits n mem imported
    have other : isDirective n = false := by
      rcases kind_of_keeps? fit keeps with kind | kind <;> simp [isDirective, kind]
    have expanded : n ∈ expand c n := by simp [expand, lowering_eq, whole n mem imported]
    have inside : name ∈ (body (f.root.height + 1) (bodyStatements f) c { names }).2.hoisted :=
      body_reaches (P := (name ∈ ·.hoisted)) (fun extends_ mem => extends_.hoisted.subset mem)
        (mem_items mem other) expanded (mem_statement_of_keeps? _ imported fit keeps) { names }
    rwa [ran] at inside

/-- The first function of a name that is exported, with a body, is exported under that name in front of the
body, where it is not lowered. -/
theorem ofFile_exports_functions {f : SourceFile} {scopes : ScopeTable} {lowering : Lowering}
    {statements before after : List Node}
    (h : ofFile f scopes (.ofFile f.root scopes) lowering = .ok (statements, c))
    (file : f.statements = before ++ n :: after)
    (declaration : ModuleFacts.IsExportedDeclaration n) (kind : n.kind = .functionDeclaration)
    (parsed : n.parsed = n) (body : n.body?.isSome = true) (text : n.declaredText? = some name)
    (fresh : name ∉ (before.foldl (ModuleFacts.addStatement scopes) {}).exportedNames)
    (whole : lowering.replacement? n = none) :
    ∃ r : Registered, statements = [r.tree c] ∧ exportStatement c name (identifier name) ∈ r.inner := by
  have named : name ∈ (ModuleFacts.ofFile f.root scopes).exportNames n :=
    ModuleFacts.mem_exportNames file declaration parsed text fresh
  have mem : n ∈ f.statements := by simp [file]
  have present : n.isAmbient = false :=
    (FlagSet.has_flag_eq_meets _ 1 (by decide)).symm.trans declaration.present
  obtain ⟨groups, names, execute, s, depends, ran, rfl⟩ := exists_ofBody h
  have made := dependencies_madeOf (ModuleFacts.ofFile f.root scopes).imports
    (start f scopes (.ofFile f.root scopes) lowering).1
    (start f scopes (.ofFile f.root scopes) lowering).2
  rw [depends] at made
  have facts_eq : c.facts = .ofFile f.root scopes := made.facts_eq
  have lowering_eq : c.lowering = lowering := made.lowering_eq
  rw [← facts_eq] at named
  -- A function is no directive, so it stands among the statements that make the body.
  have expanded : n ∈ expand c n := by simp [expand, lowering_eq, whole]
  have inside : exportStatement c name (identifier name) ∈
      (Registration.body (f.root.height + 1) (bodyStatements f) c { names }).2.functions :=
    body_reaches (P := (exportStatement c name (identifier name) ∈ ·.functions))
      (fun extends_ mem => extends_.functions.subset mem) (mem_items mem (by simp [isDirective, kind]))
      expanded (mem_statement_of_function (f.root.height + 1) kind present body text named) { names }
  rw [ran] at inside
  exact ⟨_, rfl, List.mem_append_left _ inside⟩

end ScriptFrontend.Registration
