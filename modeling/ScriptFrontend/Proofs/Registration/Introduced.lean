import ScriptFrontend.Proofs.Registration.Names
import ScriptFrontend.Proofs.Registration.Registered

/-!
# Names that a registered module is given

The registered form of a module draws names for the function that exports, for the object that describes
the module, for the modules that it depends on, in its body, for the helper of its stars, and for what
its setters are given. They all come from one supply, one after the other.
-/

namespace ScriptFrontend.Registration

open Made

variable {A : String → Prop} {n : Node} {c c' : Context} {name : String} {names names' : NameSupply}
  {imports : List Node} {given : List (Node × String)}

/-! ## Local names -/

/-- The import brings no name of its own for the whole module. -/
def needsName (n : Node) : Bool := (moduleName? n).isSome && !bindsNothing n && (wholeName? n).isNone

theorem readBindings_of_wholeName? (whole : wholeName? n = some name) : readBindings n name = [] := by
  rw [wholeName?] at whole
  rw [readBindings]
  cases form : n.form
  case importDeclaration p =>
    rw [form] at whole
    cases held : p.clause with
    | none => simp [held]
    | some clause =>
      dsimp only at whole
      rw [held, Option.map_some] at whole
      split at whole
      · rename_i bindings form'
        split at whole
        · rename_i asNamespace
          simp [held, Option.some.inj form', asNamespace, whole]
        · cases whole
      · cases whole
  all_goals rfl

def Context.withLocal (c : Context) (n : Node) (name : String) : Context :=
  { c with
    locals := c.locals.insert n.id name
    bindings := (readBindings n name).foldl (fun m b => m.insert b.id name) c.bindings }

theorem Context.getElem?_locals_withLocal (c : Context) (n : Node) (name : String) (k : Nat) :
    (c.withLocal n name).locals[k]? = if n.id = k then some name else c.locals[k]? := by
  change (c.locals.insert n.id name)[k]? = _
  rw [Std.HashMap.getElem?_insert]
  exact ite_congr (propext beq_iff_eq) (fun _ => rfl) fun _ => rfl

theorem Context.getElem?_bindings_withLocal (c : Context) (n : Node) (name : String) (k : Nat) :
    (c.withLocal n name).bindings[k]? =
      if ∃ b ∈ readBindings n name, b.id = k then some name else c.bindings[k]? := by
  have inserted (l : List Node) (m : Std.HashMap Nat String) :
      (l.foldl (fun m b => m.insert b.id name) m)[k]? =
        if ∃ b ∈ l, b.id = k then some name else m[k]? := by
    induction l generalizing m with
    | nil => simp
    | cons b l ih =>
      rw [List.foldl_cons, ih, Std.HashMap.getElem?_insert]
      simp only [List.exists_mem_cons_iff, beq_iff_eq]
      by_cases here : b.id = k
      · simp [here]
      · simp [here]
  exact inserted _ _

theorem Context.locals_withLocal {k : Nat} {found : String}
    (h : (c.withLocal n name).locals[k]? = some found) :
    (n.id = k ∧ found = name) ∨ c.locals[k]? = some found := by
  rw [getElem?_locals_withLocal] at h
  split at h
  · exact .inl ⟨‹_›, (Option.some.inj h).symm⟩
  · exact .inr h

theorem Context.bindings_withLocal {k : Nat} {found : String}
    (h : (c.withLocal n name).bindings[k]? = some found) :
    (found = name ∧ ∃ b ∈ readBindings n name, b.id = k) ∨ c.bindings[k]? = some found := by
  rw [getElem?_bindings_withLocal] at h
  split at h
  · exact .inl ⟨(Option.some.inj h).symm, ‹_›⟩
  · exact .inr h

/-- What the dependencies of a module add to the names that its context knows: each import without a
name for the whole module is given one. -/
structure AddsLocals (imports : List Node) (c : Context) (names : NameSupply) (given : List (Node × String))
    (c' : Context) (names' : NameSupply) : Prop where
  gives : names.Gives (given.map Prod.snd) names'
  needed : given.map Prod.fst = imports.filter needsName
  scopes : c'.scopes = c.scopes
  lowering : c'.lowering = c.lowering
  exporter : c'.exporter = c.exporter
  context : c'.context = c.context
  locals : ∀ (k : Nat) (name : String), c'.locals[k]? = some name → c.locals[k]? = some name ∨
    ∃ n ∈ imports, n.id = k ∧ (wholeName? n = some name ∨ (n, name) ∈ given)
  bindings : ∀ (k : Nat) (name : String), c'.bindings[k]? = some name → c.bindings[k]? = some name ∨
    ∃ n, (n, name) ∈ given ∧ ∃ b ∈ readBindings n name, b.id = k

namespace AddsLocals

theorem skip (h : AddsLocals imports c names given c' names') (other : needsName n = false) :
    AddsLocals (imports ++ [n]) c names given c' names' where
  gives := h.gives
  needed := by simp [h.needed, other]
  scopes := h.scopes
  lowering := h.lowering
  exporter := h.exporter
  context := h.context
  locals k name found :=
    (h.locals k name found).imp_right fun ⟨m, mem, from_⟩ => ⟨m, List.mem_append_left _ mem, from_⟩
  bindings := h.bindings

theorem keep (h : AddsLocals imports c names given c' names') (whole : wholeName? n = some name) :
    AddsLocals (imports ++ [n]) c names given (c'.withLocal n name) names' :=
  have skipped := h.skip (n := n) (by simp [needsName, whole])
  { gives := h.gives
    needed := skipped.needed
    scopes := h.scopes
    lowering := h.lowering
    exporter := h.exporter
    context := h.context
    locals := fun k other found => by
      rcases Context.locals_withLocal found with ⟨id, rfl⟩ | old
      · exact .inr ⟨n, List.mem_append_right _ (List.mem_singleton_self n), id, .inl whole⟩
      · exact skipped.locals k other old
    bindings := fun k other found => by
      rcases Context.bindings_withLocal found with ⟨-, b, mem, -⟩ | old
      · rw [readBindings_of_wholeName? whole] at mem
        cases mem
      · exact h.bindings k other old }

theorem give (h : AddsLocals imports c names given c' names') (needed : needsName n = true) (base : String) :
    AddsLocals (imports ++ [n]) c names (given ++ [(n, (names'.unique base).1)])
      (c'.withLocal n (names'.unique base).1) (names'.unique base).2 where
  gives := by
    rw [List.map_append]
    exact h.gives.append (.of_unique names' base)
  needed := by simp [h.needed, needed]
  scopes := h.scopes
  lowering := h.lowering
  exporter := h.exporter
  context := h.context
  locals k name found := by
    rcases Context.locals_withLocal found with ⟨id, rfl⟩ | old
    · exact .inr ⟨n, List.mem_append_right _ (List.mem_singleton_self n), id,
        .inr (List.mem_append_right _ (List.mem_singleton_self _))⟩
    · refine (h.locals k name old).imp_right fun ⟨m, mem, id, from_⟩ => ?_
      exact ⟨m, List.mem_append_left _ mem, id, from_.imp_right (List.mem_append_left _)⟩
  bindings k name found := by
    rcases Context.bindings_withLocal found with ⟨rfl, b, mem, id⟩ | old
    · exact .inr ⟨n, List.mem_append_right _ (List.mem_singleton_self _), b, mem, id⟩
    · exact (h.bindings k name old).imp_right fun ⟨m, mem, from_⟩ => ⟨m, List.mem_append_left _ mem, from_⟩

theorem add {groups : List Dependency} (h : AddsLocals imports c names given c' names') (n : Node) :
    ∃ given, AddsLocals (imports ++ [n]) c names given (addDependency (groups, c', names') n).2.1
      (addDependency (groups, c', names') n).2.2 := by
  rw [addDependency]
  cases named : moduleName? n with
  | none => exact ⟨given, h.skip (by simp [needsName, named])⟩
  | some moduleName =>
    dsimp only
    rw [localName]
    cases nothing : bindsNothing n with
    | true => exact ⟨given, h.skip (by simp [needsName, nothing])⟩
    | false =>
      cases whole : wholeName? n with
      | some name => exact ⟨given, h.keep whole⟩
      | none => exact ⟨_, h.give (by simp [needsName, named, nothing, whole]) (moduleStem moduleName)⟩

end AddsLocals

/-- Making the dependencies of a module names what its imports are kept under. -/
theorem dependencies_addLocals (imports : List Node) (c : Context) (names : NameSupply) :
    ∃ given, AddsLocals imports c names given (dependencies imports c names).2.1
      (dependencies imports c names).2.2 := by
  rw [dependencies_eq]
  induction imports using List.reverseRecOn with
  | nil => exact ⟨[], .done names, rfl, rfl, rfl, rfl, rfl, fun _ _ old => .inl old, fun _ _ old => .inl old⟩
  | append_singleton imports n ih =>
    obtain ⟨given, adds⟩ := ih
    rw [List.foldl_append, List.foldl_cons, List.foldl_nil]
    exact adds.add n

/-! ## Setters and stars -/

/-- A setter is given the object of its module under a new name. -/
theorem setters_give (c : Context) (star : Option String) (groups : List Dependency) (names : NameSupply) :
    ∃ parameters, names.Gives parameters (setters c star groups names).2 ∧
      List.Forall₂
        (fun p setter =>
          ∃ d ∈ groups, setter = function [p] (d.entries.flatMap (entrySetter c star p)))
        parameters (setters c star groups names).1 := by
  induction groups generalizing names with
  | nil => exact ⟨[], .done names, .nil⟩
  | cons d groups ih =>
    obtain ⟨parameters, gives, named⟩ := ih (setter c star d names).2
    refine ⟨_, .unique _ gives, .cons ⟨d, List.mem_cons_self .., rfl⟩ (named.imp fun p setter held => ?_)⟩
    obtain ⟨d, mem, same⟩ := held
    exact ⟨d, List.mem_cons_of_mem _ mem, same⟩

def tableStatement (c : Context) (table : String) : Node :=
  let entries := (c.facts.exportedNames.filter (· != "default")).map fun name =>
    property (stringLiteral name) (token .trueKeyword)
  varStatement [variableDeclaration (identifier table) (some (object entries true))]

/-- The helper for stars has a new name, and so has the table of what the module exports itself. -/
theorem starHelper_gives (c : Context) (names : NameSupply) :
    ∃ table : Option String,
      names.Gives (table.toList ++ (starHelper c names).1.2.toList) (starHelper c names).2 ∧
      (starHelper c names).1.1 = table.toList.map (tableStatement c) ++
        (starHelper c names).1.2.toList.map fun star => starFunction c star table := by
  rw [starHelper]
  split
  · rw [ownExports]
    dsimp only
    split
    · exact ⟨none, .of_unique names "exportStar", rfl⟩
    · exact ⟨some (names.unique "exportedNames").1, .unique _ (.of_unique _ "exportStar"), rfl⟩
  · exact ⟨none, .done names, rfl⟩

/-! ## Fixed names -/

/-- The names that every registered form may go by: what it asks of the loader, what the helper for stars
calls its own, and members that it reads. The blank name stands for a missing one. -/
def fixedNames : List String :=
  ["", "System", "register", "__moduleName", "id", "setters", "execute", "slice", "exports", "m", "n",
    "hasOwnProperty", "import", "meta", "default"]

/-- No name that is given out is fixed: it ends in a digit, or is a letter behind an underscore. -/
theorem not_mem_fixedNames (given : NameSupply.IsGiven name) : name ∉ fixedNames := by
  intro mem
  rcases given with ⟨base, n, rfl⟩ | ⟨n, rfl⟩
  · have ends : ∀ name ∈ fixedNames, name.toList.getLast?.all fun d => !d.isDigit := by decide
    cases last : (Nat.toDigits 10 n).getLast? with
    | none => exact Nat.toDigits_ne_nil (List.getLast?_eq_none_iff.mp last)
    | some d =>
      have digit : d.isDigit = true :=
        Nat.isDigit_of_mem_toDigits (by decide) (Nat.le_refl 10) (List.mem_of_getLast? last)
      have := ends _ mem
      simp [last, digit] at this
  · have starts : ∀ name ∈ fixedNames, name.toList.head? = some '_' → 2 < name.toList.length := by decide
    have := starts _ mem
    simp at this

/-- All fixed names are among some names. -/
class Fixed (A : String → Prop) : Prop where
  fixed : ∀ name ∈ fixedNames, A name

theorem Fixed.uses [h : Fixed A] (mem : name ∈ fixedNames) : Uses A name := Uses.name (h.fixed name mem)

section

variable [Fixed A] [fits : c.OfNames A]

instance : Uses A (moduleNameStatement c) := by
  have := fits.context
  have : Uses A "id" := Fixed.uses (by decide)
  have : Uses A "__moduleName" := Fixed.uses (by decide)
  rw [moduleNameStatement]
  infer_instance

instance (names : List String) [Uses A names] : Uses A (hoistedStatement names) := by
  rw [hoistedStatement]
  infer_instance

instance (setters body : List Node) (isAsync : Bool) [Uses A setters] [Uses A body] :
    Uses A (registration setters body isAsync) := by
  have : Uses A "setters" := Fixed.uses (by decide)
  have : Uses A "execute" := Fixed.uses (by decide)
  rw [registration]
  infer_instance

end

section

variable [fits : c.OfNames A]

instance (clause : Node) (parameter : String) [Uses A parameter] : Uses A (reexported clause parameter) := by
  rw [reexported]
  split
  · rename_i l _
    refine Uses.list_iff.mpr fun member mem => ?_
    obtain ⟨specifier, -, found⟩ := List.mem_filterMap.mp mem
    split at found
    · obtain ⟨exported, -, found⟩ := Option.bind_eq_some_iff.mp found
      obtain ⟨imported, -, found⟩ := Option.bind_eq_some_iff.mp found
      cases found
      infer_instance
    · cases found
  · infer_instance

instance (name parameter : String) [Uses A name] [Uses A parameter] :
    Uses A (assignLocal name parameter) := by
  rw [assignLocal]
  infer_instance

instance (star : Option String) (clause : Option Node) (parameter : String) [Uses A star] [Uses A parameter] :
    Uses A (exportSetter c star clause parameter) := by
  have := fits.exporter
  cases clause with
  | none =>
    rw [exportSetter]
    infer_instance
  | some clause =>
    rw [exportSetter]
    dsimp only
    repeat' split
    all_goals infer_instance

instance (star : Option String) (parameter : String) (n : Node) [Uses A star] [Uses A parameter] :
    Uses A (entrySetter c star parameter n) := by
  have assigned : Uses A ((c.local? n).toList.map (assignLocal · parameter)) := inferInstance
  rw [entrySetter]
  dsimp only
  split
  · infer_instance
  · infer_instance
  · infer_instance
  · infer_instance

instance (star : String) (table : Option String) [Fixed A] [Uses A star] [h : Uses A table] :
    Uses A (starFunction c star table) := by
  have := fits.exporter
  have : Uses A "m" := Fixed.uses (by decide)
  have : Uses A "n" := Fixed.uses (by decide)
  have : Uses A "exports" := Fixed.uses (by decide)
  have : Uses A "hasOwnProperty" := Fixed.uses (by decide)
  have : Uses A (starCondition table) := by
    cases table with
    | none =>
      rw [starCondition]
      infer_instance
    | some table =>
      have := h.of_some rfl
      rw [starCondition]
      infer_instance
  rw [starFunction]
  infer_instance

instance (table : String) [Uses A table] : Uses A (tableStatement c table) := by
  rw [tableStatement]
  infer_instance

theorem setters_use {star : Option String} {groups : List Dependency} {parameters : List String}
    {fs : List Node}
    (named : List.Forall₂
      (fun p setter =>
        ∃ d ∈ groups, setter = function [p] (d.entries.flatMap (entrySetter c star p)))
      parameters fs) (starred : Uses A star) (given : Uses A parameters) : Uses A fs := by
  induction named with
  | nil => infer_instance
  | cons first _ ih =>
    obtain ⟨d, -, rfl⟩ := first
    have := given.head
    have := ih given.tail
    infer_instance

instance (r : Registered) [Fixed A] [Uses A r.directives] [Uses A r.hoisted] [Uses A r.inner]
    [Uses A r.setters]
    [Uses A r.execute] : Uses A (r.tree c) := by
  have := fits.exporter
  have := fits.context
  have : Uses A "System" := Fixed.uses (by decide)
  have : Uses A "register" := Fixed.uses (by decide)
  have : Uses A strictDirective := by
    rw [strictDirective]
    infer_instance
  rw [Registered.tree]
  infer_instance

end

/-! ## The whole form -/

theorem wholeName?_uses (h : Uses A n) (whole : wholeName? n = some name) : Uses A name := by
  rw [wholeName?] at whole
  split at whole
  · rename_i p form
    have parts := h.form form
    simp only [Uses.cons_iff, Uses.ofNode_iff, Uses.ofNode?_iff, Uses.ofList?_iff] at parts
    have clause := parts.2.1
    split at whole
    · rename_i bindings held
      obtain ⟨clause', is, form'⟩ := Option.map_eq_some_iff.mp held
      have parts := (clause.of_some is).form form'
      simp only [Uses.cons_iff, Uses.ofNode?_iff] at parts
      have := parts.2.1.of_some rfl
      split at whole
      · exact Uses.of_some (inferInstance : Uses A bindings.declaredText?) whole
      · cases whole
    · cases whole
  · rename_i p form
    have parts := h.form form
    simp only [Uses.cons_iff, Uses.ofNode_iff, Uses.ofList?_iff] at parts
    have := parts.2.1
    exact Uses.of_some (inferInstance : Uses A p.name.identifierText?) whole
  · rename_i p form
    have parts := h.form form
    simp only [Uses.cons_iff, Uses.ofNode?_iff, Uses.ofList?_iff] at parts
    obtain ⟨clause, held, named⟩ := Option.bind_eq_some_iff.mp whole
    have := parts.2.1.of_some (Option.filter_eq_some_iff.mp held).1
    exact Uses.of_some (inferInstance : Uses A clause.declaredText?) named
  · cases whole

/-- A context goes by the names that it went by before its dependencies were made, and by those that
they were given. -/
theorem AddsLocals.ofNames (adds : AddsLocals imports c names given c' names') (before : c.OfNames A)
    (imported : ∀ n ∈ imports, Uses A n) (drawn : ∀ name ∈ given.map Prod.snd, A name) : c'.OfNames A where
  exporter := adds.exporter ▸ before.exporter
  context := adds.context ▸ before.context
  locals k name found := by
    rcases adds.locals k name found with old | ⟨n, mem, -, whole | new⟩
    · exact before.locals k name old
    · exact wholeName?_uses (imported n mem) whole
    · exact Uses.name (drawn name (List.mem_map_of_mem new))
  bindings k name found := by
    rcases adds.bindings k name found with old | ⟨n, new, -⟩
    · exact before.bindings k name old
    · exact Uses.name (drawn name (List.mem_map_of_mem new))
  lowering := adds.lowering ▸ before.lowering
  made := adds.lowering ▸ before.made

/-- What a body leaves and gives back goes by names of its statements, and by those that it drew. -/
theorem body_uses [Uses A "slice"] (fits : c.OfNames A) {depth : Nat} {items execute : List Node}
    {names : NameSupply} {s : State} {drawn : List String}
    (ran : body depth items c { names } = (execute, s)) (gives : names.Gives drawn s.names)
    (given : ∀ name ∈ drawn, A name) (uses : Uses A items) (parsed : ∀ n ∈ items, n.origin = none) :
    s.OfNames A ∧ Uses A execute := by
  have empty : State.OfNames A { names } := ⟨inferInstance, inferInstance, List.forall_mem_nil _⟩
  have writes := (body_writes depth uses parsed).writes fits empty
  rw [ran] at writes
  exact writes fun name fresh mem => given name (((gives.row.mem_used name).mp mem).resolve_right fresh)

/-- The names that a module was given for its registered form. -/
structure Introduced where
  exporter : String
  context : String
  /-- Imports without a name for the whole module, with the names of the objects of their modules. -/
  locals : List (Node × String)
  /-- Temporary variables of the body, and exports by default without a name. -/
  inner : List String
  table : Option String
  star : Option String
  parameters : List String

namespace Introduced

def all (i : Introduced) : List String :=
  i.exporter :: i.context ::
    (i.locals.map Prod.snd ++ (i.inner ++ ((i.table.toList ++ i.star.toList) ++ i.parameters)))

structure Names (f : SourceFile) (imports : List Node) (c : Context) (r : Registered)
    (i : Introduced) : Prop where
  exporter : c.exporter = i.exporter
  context : c.context = i.context
  needed : i.locals.map Prod.fst = imports.filter needsName
  locals : ∀ (k : Nat) (name : String), c.locals[k]? = some name →
    ∃ n ∈ imports, n.id = k ∧ (wholeName? n = some name ∨ (n, name) ∈ i.locals)
  bindings : ∀ (k : Nat) (name : String), c.bindings[k]? = some name →
    ∃ n, (n, name) ∈ i.locals ∧ ∃ b ∈ readBindings n name, b.id = k
  inner : ∃ names s, body (f.root.height + 1) (f.statements.span isDirective).2 c { names } = (r.execute, s) ∧
    names.Gives i.inner s.names ∧ r.hoisted = s.hoisted
  star : ∀ star ∈ i.star, starFunction c star i.table ∈ r.inner
  parameters :
    List.Forall₂ (fun p setter => ∃ statements, setter = function [p] statements)
      i.parameters r.setters

end Introduced

section

variable (f : SourceFile) (scopes : ScopeTable) (facts : ModuleFacts) (lowering : Lowering)

theorem start_locals (k : Nat) : (start f scopes facts lowering).1.locals[k]? = none :=
  Std.HashMap.getElem?_empty

theorem start_bindings (k : Nat) : (start f scopes facts lowering).1.bindings[k]? = none :=
  Std.HashMap.getElem?_empty

theorem start_ofNames (exporter : A (start f scopes facts lowering).1.exporter)
    (context : A (start f scopes facts lowering).1.context) (lowered : lowering.OfNames A)
    (made : lowering.MadeFor (Uses A)) : (start f scopes facts lowering).1.OfNames A where
  exporter := Uses.name exporter
  context := Uses.name context
  locals k _ found := nomatch (start_locals f scopes facts lowering k).symm.trans found
  bindings k _ found := nomatch (start_bindings f scopes facts lowering k).symm.trans found
  lowering := lowered
  made := made

end

theorem forall_mem_span {P : Node → Prop} {p : Node → Bool} {l : List Node} (h : ∀ n ∈ l, P n) :
    (∀ n ∈ (l.span p).1, P n) ∧ ∀ n ∈ (l.span p).2, P n := by
  rw [List.span_eq_takeWhile_dropWhile]
  exact ⟨fun n mem => h n ((List.takeWhile_subset _) mem), fun n mem => h n ((List.dropWhile_subset _) mem)⟩

/-- A registered module was given its names one after the other. Apart from these, it goes by names of
the file. -/
theorem ofFile_introduces {f : SourceFile} {scopes : ScopeTable} {facts : ModuleFacts} {lowering : Lowering}
    {statements : List Node} (h : ofFile f scopes facts lowering = .ok (statements, c)) :
    ∃ (r : Registered) (i : Introduced) (names : NameSupply), statements = [r.tree c] ∧
      i.Names f facts.imports c r ∧
      c.scopes = scopes ∧ c.lowering = lowering ∧ (NameSupply.ofNames f.identifiers).Gives i.all names ∧
      ∀ (A : String → Prop) [Fixed A], (∀ n ∈ f.statements, Uses A n ∧ n.origin = none) → lowering.OfNames A →
        lowering.MadeFor (Uses A) → (∀ n ∈ facts.imports, Uses A n) → (∀ name ∈ i.all, A name) →
        c.OfNames A ∧ Uses A (r.tree c) := by
  obtain ⟨given, adds⟩ := dependencies_addLocals facts.imports (start f scopes facts lowering).1
    (start f scopes facts lowering).2
  obtain ⟨groups, names, execute, s, depends, ran, rfl⟩ := exists_ofBody h
  rw [depends] at adds
  obtain ⟨inner, inner_gives⟩ : State.Draws { names } s := by
    have keeps : Keeps State.Draws (body (f.root.height + 1) (bodyStatements f)) := inferInstance
    have := keeps.keeps c { names }
    rwa [ran] at this
  let helpers := starHelper c s.names
  obtain ⟨table, helper_gives, helper_eq⟩ := starHelper_gives c s.names
  obtain ⟨parameters, setter_gives, named⟩ := setters_give c helpers.1.2 groups helpers.2
  let r := Registered.ofBody f c groups execute s
  let exporter := (NameSupply.ofNames f.identifiers).unique "exports"
  let i : Introduced := {
    exporter := exporter.1
    context := (exporter.2.unique "context").1
    locals := given, inner, table, star := helpers.1.2, parameters }
  refine ⟨r, i, _, rfl, ?names, adds.scopes, adds.lowering,
    .unique "exports" (.unique "context"
      (adds.gives.append (inner_gives.append (helper_gives.append setter_gives)))),
    ?uses⟩
  case names =>
    refine ⟨adds.exporter, adds.context, adds.needed, fun k name found => ?_, fun k name found => ?_,
      ⟨names, s, ran, inner_gives, rfl⟩, fun name same => ?_, named.imp fun p setter held => ?_⟩
    · refine (adds.locals k name found).resolve_left fun old => ?_
      cases (start_locals f scopes facts lowering k).symm.trans old
    · refine (adds.bindings k name found).resolve_left fun old => ?_
      cases (start_bindings f scopes facts lowering k).symm.trans old
    · change starFunction c name table ∈ s.functions ++ helpers.1.1
      have held : name ∈ helpers.1.2.toList := Option.mem_toList.mpr same
      rw [helper_eq]
      exact List.mem_append_right _ (List.mem_append_right _ (List.mem_map_of_mem held))
    · obtain ⟨d, -, same⟩ := held
      exact ⟨_, same⟩
  case uses =>
    intro A _ items lowered made imported introduced
    simp only [Introduced.all, i, List.forall_mem_cons, List.forall_mem_append] at introduced
    obtain ⟨exporter_given, context_given, locals_given, inner_given, ⟨table_given, star_given⟩,
      parameters_given⟩ :=
      introduced
    have fits : c.OfNames A :=
      adds.ofNames (start_ofNames f scopes facts lowering exporter_given context_given lowered made)
        imported locals_given
    have texts {xs : List String} (given : ∀ name ∈ xs, A name) : Uses A xs :=
      Uses.list_iff.mpr fun name mem => Uses.name (given name mem)
    obtain ⟨first, rest⟩ := forall_mem_span items
    have : Uses A "slice" := Fixed.uses (by decide)
    obtain ⟨kept, execute_uses⟩ :=
      body_uses fits ran inner_gives inner_given (Uses.list_iff.mpr fun n mem => (rest n mem).1)
      fun n mem => (rest n mem).2
    have := kept.functions
    have : Uses A r.hoisted := kept.hoisted
    have : Uses A r.execute := execute_uses
    have table_uses : Uses A table := Uses.option_iff.mpr fun name same =>
      Uses.name (table_given name (Option.mem_toList.mpr same))
    have star_uses : Uses A helpers.1.2 := Uses.option_iff.mpr fun name same =>
      Uses.name (star_given name (Option.mem_toList.mpr same))
    have : Uses A helpers.1.1 := helper_eq ▸ inferInstance
    have : Uses A r.setters := setters_use named star_uses (texts parameters_given)
    have : Uses A r.directives := Uses.list_iff.mpr fun n mem => (first n (List.mem_filter.mp mem).1).1
    have : Uses A r.inner := inferInstanceAs (Uses A (s.functions ++ helpers.1.1))
    exact ⟨fits, inferInstance⟩

end ScriptFrontend.Registration
