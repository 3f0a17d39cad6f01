import ScriptFrontend.Proofs.Registration.Dependency
import ScriptFrontend.Proofs.Scope.Module
import ScriptFrontend.Proofs.Tree.FlagSet
import ScriptFrontend.Proofs.Tree.Form
import ScriptFrontend.Registration.Module

/-!
# Names that no star exports again

What a module exports by a star leaves out the names in a table. Whatever the setters of a module
export under another name than the default stands there, but for an import of a whole module by its
own statement that is exported at once; so do the names of the module's declarations.
-/

namespace ScriptFrontend.Registration

open Made

def memberNames (n : Node) : List String :=
  match n.form with
  | .list _ l => l.items.filterMap fun m => m.name?.bind Node.literalText?
  | _ => []

/-- The names that a statement exports by a call: one name with its value, or those of an object. -/
def published (exporter : String) (n : Node) : List String :=
  match n.expression?.map Node.form with
  | some (.call p) =>
    if p.expression.identifierText? = some exporter then
      ((p.arguments.map (·.items)).getD []).head?.toList.flatMap fun first =>
        first.literalText?.toList ++ memberNames first
    else []
  | _ => []

def tableNames (n : Node) : List String :=
  n.statementVariables.flatMap fun v =>
    match v.form with
    | .variableDeclaration p => (p.value.map memberNames).getD []
    | _ => []

variable {c : Context} {n : Node} {star : Option String} {parameter name exporter : String}

/-! ## Calls that export -/

theorem memberNames_object (members : List Node) (multiLine : Bool) :
    memberNames (object members multiLine) = members.filterMap (·.name?.bind Node.literalText?) := rfl

theorem published_call (f : String) (first : Node) (rest : List Node) :
    published exporter (expressionStatement (call (identifier f) (first :: rest))) =
      if f = exporter then first.literalText?.toList ++ memberNames first else [] := by
  change (if some f = some exporter then [first].flatMap _ else []) = _
  simp

theorem published_exportStatement (c : Context) (name : String) (value : Node) :
    published c.exporter (exportStatement c name value) = [name] := by
  rw [exportStatement, exportCall, published_call, if_pos rfl]
  rfl

theorem mem_of_published {names : List String} {value s : Node}
    (mem : s ∈ names.map fun exported => exportStatement c exported value)
    (named : name ∈ published c.exporter s) : name ∈ names := by
  obtain ⟨exported, inside, rfl⟩ := List.mem_map.mp mem
  rw [published_exportStatement, List.mem_singleton] at named
  rwa [named]

theorem published_assignLocal (name parameter : String) :
    published exporter (assignLocal name parameter) = [] := rfl

theorem published_star (f parameter : String) :
    published exporter (expressionStatement (call (identifier f) [identifier parameter])) = [] := by
  rw [published_call]
  split <;> rfl

theorem mem_reexported {clause member : Node} (mem : member ∈ reexported clause parameter)
    (named : member.name?.bind Node.literalText? = some name) : name ∈ clause.clauseNames := by
  rw [reexported] at mem
  split at mem
  · rename_i form
    obtain ⟨specifier, inside, made⟩ := List.mem_filterMap.mp mem
    simp only [Node.clauseNames, form]
    refine List.mem_filterMap.mpr ⟨specifier, inside, ?_⟩
    split at made
    · rename_i specified
      simp only [Option.bind_eq_bind, Option.bind_eq_some_iff] at made
      obtain ⟨exported, text, imported, -, made⟩ := made
      cases made
      cases named
      simpa only [Node.specifierName?, specified] using text
    · cases made
  · cases mem

/-! ## Setters -/

/-- Just what exports a whole module under a name has that name for its only part. -/
def IsFormed (n : Node) : Prop :=
  ∀ p clause, n.form = .exportDeclaration p → p.clause = some clause →
    (clause.kind = .namespaceExport ↔ ∃ name, clause.form = .named name)

def takesName (specifier : Node) : Bool :=
  match specifier.form with
  | .specifier false propertyName written => (propertyName.getD written).nameText?.isSome
  | _ => true

/-- Whatever an export takes from another module by a list has a name there. -/
def TakesNames (n : Node) : Prop :=
  ∀ p clause multiLine l, n.form = .exportDeclaration p → p.clause = some clause →
    clause.form = .list multiLine l → l.items.all takesName = true

/-- An import of a whole module by its own statement that is exported at once. -/
def IsExportedImport (n : Node) : Prop := n.isExported = true ∧ ∃ p, n.form = .importEquals p

/-- What a setter exports is a name of the module, but for an import that is exported at once. -/
theorem entrySetter_published (covers : c.facts.Covers) (mem : n ∈ c.facts.imports)
    (formed : IsFormed n) (other : ¬ IsExportedImport n) {s : Node}
    (set : s ∈ entrySetter c star parameter n) (named : name ∈ published c.exporter s) :
    name ∈ c.facts.exportedNames := by
  -- What is assigned to a local name of the import is not exported by that.
  have assigned (keep : Bool)
      (set : s ∈ if keep then (c.local? n).toList.map (assignLocal · parameter) else []) : False := by
    split at set
    · obtain ⟨local_, -, rfl⟩ := List.mem_map.mp set
      rw [published_assignLocal] at named
      cases named
    · cases set
  rw [entrySetter] at set
  dsimp only at set
  split at set
  · exact (assigned _ set).elim
  · rename_i p form
    have unexported : n.isExported = false := by
      rw [← Bool.not_eq_true]
      exact fun isExported => other ⟨isExported, p, form⟩
    rw [unexported] at set
    exact (assigned true (by simpa using set)).elim
  · rename_i p form
    cases given : p.clause with
    | none =>
      rw [given, exportSetter] at set
      obtain ⟨f, -, rfl⟩ := List.mem_map.mp set
      rw [published_star] at named
      cases named
    | some clause =>
      have sourced : name ∈ clause.clauseNames → name ∈ c.facts.exportedNames := by
        intro inside
        refine covers.sourced n mem name ?_
        simpa [Node.sourcedNames, form, given] using inside
      rw [given, exportSetter] at set
      split at set
      · rename_i whole
        obtain ⟨written, clause_form⟩ := (formed p clause form given).mp (by simpa using whole)
        refine sourced ?_
        simpa [Node.clauseNames, Node.name?, clause_form] using mem_of_published set named
      · dsimp only at set
        split at set
        · cases set
        · cases List.mem_singleton.mp set
          rw [published_call, if_pos rfl] at named
          have inside : name ∈ memberNames (object (reexported clause parameter) true) := named
          rw [memberNames_object] at inside
          obtain ⟨member, made, text⟩ := List.mem_filterMap.mp inside
          exact sourced (mem_reexported made text)
  · cases set

theorem reexported_names {clause specifier : Node} {multiLine : Bool} {l : NodeList}
    {propertyName : Option Node} {written : Node} {text : String}
    (form : clause.form = .list multiLine l) (mem : specifier ∈ l.items)
    (specified : specifier.form = .specifier false propertyName written)
    (named : written.nameText? = some name) (taken : (propertyName.getD written).nameText? = some text) :
    name ∈ (reexported clause parameter).filterMap (·.name?.bind Node.literalText?) := by
  refine List.mem_filterMap.mpr ⟨property (stringLiteral name)
    (element (identifier parameter) (stringLiteral text)), ?_, rfl⟩
  rw [reexported, form]
  refine List.mem_filterMap.mpr ⟨specifier, mem, ?_⟩
  simp [specified, named, taken]

theorem exists_exportSetter {clause : Node} (part : clause.kind ≠ .namespaceExport)
    (inside : name ∈ (reexported clause parameter).filterMap (·.name?.bind Node.literalText?)) :
    ∃ s ∈ exportSetter c star (some clause) parameter, name ∈ published c.exporter s := by
  have filled : (reexported clause parameter).isEmpty = false := by
    rw [List.isEmpty_eq_false_iff_exists_mem]
    obtain ⟨member, made, -⟩ := List.mem_filterMap.mp inside
    exact ⟨member, made⟩
  refine ⟨expressionStatement (call (identifier c.exporter)
    [object (reexported clause parameter) true]), by simp [exportSetter, part, filled], ?_⟩
  rw [published_call, if_pos rfl]
  exact inside

theorem exists_entrySetter (formed : IsFormed n) (takes : TakesNames n)
    (named : name ∈ n.sourcedNames) :
    ∃ s ∈ entrySetter c star parameter n, name ∈ published c.exporter s := by
  rw [Node.sourcedNames] at named
  split at named
  · rename_i p form
    obtain ⟨clause, given, named⟩ : ∃ clause, p.clause = some clause ∧ name ∈ clause.clauseNames := by
      cases given : p.clause with
      | none =>
        rw [given] at named
        cases named
      | some clause => exact ⟨clause, rfl, by simpa [given] using named⟩
    have whole := formed p clause form given
    have set : entrySetter c star parameter n = exportSetter c star (some clause) parameter := by
      simp [entrySetter, form, given]
    rw [set]
    rw [Node.clauseNames] at named
    split at named
    · rename_i multiLine l clause_form
      have part : clause.kind ≠ .namespaceExport := by
        intro kind
        obtain ⟨written, other⟩ := whole.mp kind
        cases clause_form.symm.trans other
      obtain ⟨specifier, mem, specified⟩ := List.mem_filterMap.mp named
      rw [Node.specifierName?] at specified
      split at specified
      · rename_i propertyName written specifier_form
        have takes := List.all_eq_true.mp (takes p clause multiLine l form given clause_form) specifier mem
        rw [takesName, specifier_form] at takes
        obtain ⟨text, taken⟩ := Option.isSome_iff_exists.mp takes
        exact exists_exportSetter part
          (reexported_names clause_form mem specifier_form specified taken)
      · cases specified
    · rename_i written clause_form
      have kind := whole.mpr ⟨written, clause_form⟩
      rw [Option.mem_toList] at named
      refine ⟨exportStatement c name (identifier parameter), ?_, ?_⟩
      · simp [exportSetter, kind, Node.name?, clause_form, named]
      · simp [published_exportStatement]
    · cases named
  · cases named

/-! ## Declarations -/

/-- What an import, function or class exports is a name of the module, or the default. -/
theorem exportsOf_published (covers : c.facts.Covers) {declaration s : Node} {value : String}
    (mem : s ∈ exportsOf c declaration value) (named : name ∈ published c.exporter s) :
    name ∈ c.facts.exportedNames ∨ name = "default" :=
  covers.declared _ name (mem_of_published mem named)

theorem importExports_published (covers : c.facts.Covers) {s : Node} (mem : s ∈ importExports c n)
    (named : name ∈ published c.exporter s) :
    name ∈ c.facts.exportedNames ∨ name = "default" := by
  rw [importExports] at mem
  split at mem
  · obtain ⟨⟨value, declaration⟩, -, inside⟩ := List.mem_flatMap.mp mem
    exact covers.declared _ name (mem_of_published inside named)
  · cases mem

theorem mem_foldl_append_new {names own : List String}
    (mem : name ∈ names.foldl
      (fun names name => if names.contains name then names else names ++ [name]) own) :
    name ∈ own ∨ name ∈ names := by
  induction names generalizing own with
  | nil => exact .inl mem
  | cons first names ih =>
    rw [List.foldl_cons] at mem
    rcases ih mem with inside | later
    · split at inside
      · exact .inl inside
      · rw [List.mem_append, List.mem_singleton] at inside
        rcases inside with old | rfl
        · exact .inl old
        · exact .inr (List.mem_cons_self ..)
    · exact .inr (List.mem_cons_of_mem _ later)

/-- What an enumeration or namespace of the module exports is a name of the module, or the default. -/
theorem declarationExports_published {root declaration s : Node} {value : String}
    (facts : c.facts = .ofFile root c.scopes)
    (statement : declaration ∈ ModuleFacts.statementsOf root)
    (container : ModuleFacts.IsContainer declaration) (present : declaration.isAmbient = false)
    (text : declaration.declaredText? = some value) (mem : s ∈ declarationExports c declaration value)
    (named : name ∈ published c.exporter s) :
    name ∈ c.facts.exportedNames ∨ name = "default" := by
  rcases mem_foldl_append_new (mem_of_published mem named) with own | other
  · split at own
    · rename_i isExported
      cases List.mem_singleton.mp own
      rw [facts]
      refine .inl (ModuleFacts.mem_ofFile statement container ?_ ?_ text)
      · exact (FlagSet.has_flag_eq_meets _ 0 (by decide)).trans isExported
      · exact (FlagSet.has_flag_eq_meets _ 1 (by decide)).trans present
    · cases own
  · rw [facts] at other ⊢
    exact (ModuleFacts.ofFile_covers root c.scopes).declared _ name other

/-- The calls that export what the module declares or imports by its statements publish no names but its own, and the
default. -/
theorem export_calls_publish_own_names (root : Node) (context : Context) :
    let c := { context with facts := .ofFile root context.scopes }
    let IsOwn (name : String) := name ∈ c.facts.exportedNames ∨ name = "default"
    (∀ n, ∀ s ∈ importExports c n, ∀ name ∈ published c.exporter s, IsOwn name) ∧
      (∀ n value, ∀ s ∈ exportsOf c n value, ∀ name ∈ published c.exporter s, IsOwn name) ∧
      ∀ n ∈ ModuleFacts.statementsOf root, ModuleFacts.IsContainer n → n.isAmbient = false →
        ∀ value ∈ n.declaredText?, ∀ s ∈ declarationExports c n value, ∀ name ∈ published c.exporter s, IsOwn name := by
  intro c IsOwn
  have covers : c.facts.Covers := ModuleFacts.ofFile_covers root context.scopes
  refine ⟨fun n s mem name named => importExports_published covers mem named,
    fun n value s mem name named => exportsOf_published covers mem named, ?_⟩
  exact fun n statement container present value text s mem name named =>
    declarationExports_published (c := c) rfl statement container present text mem named

/-! ## The table -/

theorem tableNames_declaration (table value : Node) :
    tableNames (varStatement [variableDeclaration table (some value)]) = memberNames value := by
  change memberNames value ++ [] = _
  rw [List.append_nil]

theorem ownExports_of_name (mem : name ∈ c.facts.exportedNames) (other : name ≠ "default")
    (names : NameSupply) :
    ∃ table declaration rest, ownExports c names = (some (table, declaration), rest) ∧
      tableNames declaration = c.facts.exportedNames.filter (· != "default") := by
  have inside : name ∈ c.facts.exportedNames.filter (· != "default") := by simp [mem, other]
  have filled : (c.facts.exportedNames.filter (· != "default")).isEmpty = false := by
    rw [List.isEmpty_eq_false_iff_exists_mem]
    exact ⟨name, inside⟩
  rw [ownExports]
  simp only [filled, Bool.false_and, Bool.false_eq_true, if_false]
  refine ⟨_, _, _, rfl, ?_⟩
  rw [tableNames_declaration, memberNames_object, List.filterMap_map]
  exact List.filterMap_some

theorem starHelper_of_name (star : c.facts.hasExportStar = true) (mem : name ∈ c.facts.exportedNames)
    (other : name ≠ "default") (names : NameSupply) :
    ∃ table declaration helper, (starHelper c names).1 =
      ([declaration, starFunction c helper (some table)], some helper) ∧
        name ∈ tableNames declaration := by
  obtain ⟨table, declaration, rest, own, held⟩ := ownExports_of_name mem other names
  refine ⟨table, declaration, (rest.unique "exportStar").1, ?_, ?_⟩
  · simp [starHelper, star, own]
  · simp [held, mem, other]

/-! ## The registered form -/

theorem mem_setters {f : Node} {groups : List Dependency} {names : NameSupply}
    (mem : f ∈ (setters c star groups names).1) :
    ∃ d ∈ groups, ∃ parameter,
      f = function [parameter] (d.entries.flatMap (entrySetter c star parameter)) := by
  induction groups generalizing names with
  | nil => cases mem
  | cons d groups ih =>
    rcases List.mem_cons.mp mem with rfl | later
    · exact ⟨d, List.mem_cons_self .., _, rfl⟩
    · obtain ⟨d', old, made⟩ := ih later
      exact ⟨d', List.mem_cons_of_mem _ old, made⟩

theorem exists_setter {groups : List Dependency} {d : Dependency} (mem : d ∈ groups) (names : NameSupply) :
    ∃ parameter, function [parameter] (d.entries.flatMap (entrySetter c star parameter)) ∈
      (setters c star groups names).1 := by
  induction groups generalizing names with
  | nil => cases mem
  | cons first groups ih =>
    rcases List.mem_cons.mp mem with rfl | later
    · exact ⟨_, List.mem_cons_self ..⟩
    · obtain ⟨parameter, made⟩ := ih later _
      exact ⟨parameter, List.mem_cons_of_mem _ made⟩

/-- In every file that exports by a star, what the setters export under another name than the default
stands in the table that the star's helper asks, unless a module is imported by a statement of its
own that is exported at once. -/
theorem setters_export_from_table (f : SourceFile) (scopes : ScopeTable) (lowering : Lowering)
    (formed : ∀ n ∈ (ModuleFacts.ofFile f.root scopes).imports, IsFormed n ∧ ¬ IsExportedImport n)
    (starred : (ModuleFacts.ofFile f.root scopes).hasExportStar = true) :
    let facts := ModuleFacts.ofFile f.root scopes
    let (c, names) := start f scopes facts lowering
    let (groups, c, _) := dependencies facts.imports c names
    ∀ names names' star, ∀ setter ∈ (setters c star groups names).1, ∃ parameter statements,
      setter = function [parameter] statements ∧
        ∀ s ∈ statements, ∀ name ∈ published c.exporter s, name ≠ "default" →
          ∃ table declaration helper, (starHelper c names').1 =
            ([declaration, starFunction c helper (some table)], some helper) ∧
              name ∈ tableNames declaration := by
  intro facts
  dsimp only
  intro names names' star setter mem
  obtain ⟨facts_eq, -, entries⟩ := dependencies_madeOf facts.imports (start f scopes facts lowering).1
    (start f scopes facts lowering).2
  obtain ⟨d, group, parameter, made⟩ := mem_setters mem
  refine ⟨parameter, _, made, fun s inside name named other => ?_⟩
  obtain ⟨n, entry, set⟩ := List.mem_flatMap.mp inside
  have imported := entries d group n entry
  replace facts_eq := facts_eq.trans (rfl : (start f scopes facts lowering).1.facts = facts)
  have covers := ModuleFacts.ofFile_covers f.root scopes
  obtain ⟨shape, plain⟩ := formed n imported
  refine starHelper_of_name (facts_eq ▸ starred) ?_ other names'
  exact entrySetter_published (facts_eq ▸ covers) (facts_eq ▸ imported) shape plain set named

def exportsFrom (n : Node) : Bool :=
  match n.form with
  | .exportDeclaration p =>
    p.clause.all fun clause => clause.kind != .namespaceExport && (clause.form matches .list _ _)
  | _ => false

theorem isFormed_of_exportsFrom {n : Node} (h : exportsFrom n = true) : IsFormed n ∧ ¬ IsExportedImport n := by
  rw [exportsFrom] at h
  split at h
  case h_2 => cases h
  rename_i p form
  constructor
  · intro q clause form' given
    cases form.symm.trans form'
    rw [given, Option.all_some, Bool.and_eq_true, bne_iff_ne] at h
    obtain ⟨other, parts⟩ := h
    split at parts
    · rename_i list
      refine ⟨fun kind => absurd kind other, ?_⟩
      rintro ⟨_, named⟩
      cases list.symm.trans named
    · cases parts
  · rintro ⟨_, q, form'⟩
    cases form.symm.trans form'

theorem setters_export_from_table_of_two_modules :
    ∃ f, f = SourceFile.parse "a.ts" "export * from \"m\";\nexport { a as b } from \"n\";" .esNext .ts true ∧
      let scopes := ScopeTable.ofTree f.root
      let facts := ModuleFacts.ofFile f.root scopes
      (∀ n ∈ facts.imports, IsFormed n ∧ ¬ IsExportedImport n) ∧ facts.hasExportStar = true ∧
        let (c, names) := start f scopes facts (.ofTree f.root)
        let (groups, c, _) := dependencies facts.imports c names
        ∀ names names' star, ∀ setter ∈ (setters c star groups names).1, ∃ parameter statements,
          setter = function [parameter] statements ∧
            ∀ s ∈ statements, ∀ name ∈ published c.exporter s, name ≠ "default" →
              ∃ table declaration helper, (starHelper c names').1 =
                ([declaration, starFunction c helper (some table)], some helper) ∧
                  name ∈ tableNames declaration := by
  have read (f : SourceFile)
      (same : f = .parse "a.ts" "export * from \"m\";\nexport { a as b } from \"n\";" .esNext .ts true) :
      (ModuleFacts.ofFile f.root (.ofTree f.root)).imports.all exportsFrom = true ∧
        (ModuleFacts.ofFile f.root (.ofTree f.root)).hasExportStar = true := by
    rw [same]
    decide +kernel
  obtain ⟨f, same⟩ : ∃ f,
      f = SourceFile.parse "a.ts" "export * from \"m\";\nexport { a as b } from \"n\";" .esNext .ts true := ⟨_, rfl⟩
  obtain ⟨imports, starred⟩ := read f same
  have formed : ∀ n ∈ (ModuleFacts.ofFile f.root (.ofTree f.root)).imports, IsFormed n ∧ ¬ IsExportedImport n :=
    fun n mem => isFormed_of_exportsFrom (List.all_eq_true.mp imports n mem)
  exact ⟨f, same, formed, starred, setters_export_from_table f (.ofTree f.root) (.ofTree f.root) formed starred⟩

/-- In every file, each name that an import in a group gives to what it takes from the module is published by the setter
of the group. -/
theorem setters_publish_reexports (f : SourceFile) (scopes : ScopeTable) (lowering : Lowering)
    (formed : ∀ n ∈ (ModuleFacts.ofFile f.root scopes).imports, IsFormed n ∧ TakesNames n) :
    let facts := ModuleFacts.ofFile f.root scopes
    let (c, names) := start f scopes facts lowering
    let (groups, c, _) := dependencies facts.imports c names
    ∀ names star, ∀ d ∈ groups, ∀ n ∈ d.entries, ∀ name ∈ n.sourcedNames, ∃ parameter statements,
      function [parameter] statements ∈ (setters c star groups names).1 ∧
        ∃ s ∈ statements, name ∈ published c.exporter s := by
  intro facts
  dsimp only
  intro names star d group n entry name named
  obtain ⟨-, -, entries⟩ := dependencies_madeOf facts.imports (start f scopes facts lowering).1
    (start f scopes facts lowering).2
  obtain ⟨shape, takes⟩ := formed n (entries d group n entry)
  obtain ⟨parameter, made⟩ := exists_setter group names
  obtain ⟨s, set, publishes⟩ := exists_entrySetter shape takes named
  exact ⟨parameter, _, made, s, List.mem_flatMap.mpr ⟨n, entry, set⟩, publishes⟩

theorem setter_publishes_reexport_of_other_name :
    ∃ f, f = SourceFile.parse "a.ts" "export { a as b } from \"m\";" .esNext .ts true ∧
      let scopes := ScopeTable.ofTree f.root
      let facts := ModuleFacts.ofFile f.root scopes
      facts.imports.map Node.sourcedNames = [["b"]] ∧ (∀ n ∈ facts.imports, IsFormed n ∧ TakesNames n) ∧
        let (c, names) := start f scopes facts (.ofTree f.root)
        let (groups, c, _) := dependencies facts.imports c names
        ∀ names star, ∀ d ∈ groups, ∀ n ∈ d.entries, ∀ name ∈ n.sourcedNames, ∃ parameter statements,
          function [parameter] statements ∈ (setters c star groups names).1 ∧
            ∃ s ∈ statements, name ∈ published c.exporter s := by
  have read (f : SourceFile) (same : f = .parse "a.ts" "export { a as b } from \"m\";" .esNext .ts true) :
      (ModuleFacts.ofFile f.root (.ofTree f.root)).imports.map Node.sourcedNames = [["b"]] ∧
        (ModuleFacts.ofFile f.root (.ofTree f.root)).imports.all exportsFrom = true ∧
        ∀ n ∈ (ModuleFacts.ofFile f.root (.ofTree f.root)).imports, ∀ clause ∈ n.children,
          clause.children.all takesName = true := by
    rw [same]
    decide +kernel
  obtain ⟨f, same⟩ : ∃ f, f = SourceFile.parse "a.ts" "export { a as b } from \"m\";" .esNext .ts true := ⟨_, rfl⟩
  obtain ⟨names, imports, specifiers⟩ := read f same
  have formed : ∀ n ∈ (ModuleFacts.ofFile f.root (.ofTree f.root)).imports, IsFormed n ∧ TakesNames n := by
    refine fun n mem => ⟨(isFormed_of_exportsFrom (List.all_eq_true.mp imports n mem)).1, ?_⟩
    intro p clause multiLine l form given list
    have inside : clause ∈ n.children := Node.mem_children form (by simp [Form.slots, Slot.ofNode?, Slot.nodes, given])
    refine List.all_eq_true.mpr fun s held => List.all_eq_true.mp (specifiers n mem clause inside) s ?_
    exact Node.mem_children list (by simpa [Form.slots, Slot.ofList, Slot.nodes] using held)
  exact ⟨f, same, names, formed, setters_publish_reexports f (.ofTree f.root) (.ofTree f.root) formed⟩

end ScriptFrontend.Registration
