import ScriptFrontend.Output.Emit
import ScriptFrontend.Proofs.Numbering.File
import ScriptFrontend.Proofs.Registration.Deferred
import ScriptFrontend.Proofs.Registration.Registered

/-!
# The registered form of a file that was read

In a tree that was read from a text an import shares its number with no enumeration, namespace or name
for a part of a module. So nothing stands in the place of an import, nothing is held where the module
ends, and the registered form answers to the imports of the file.
-/

namespace ScriptFrontend

variable {l : Ledger} {n m : Node}

open ModuleFacts (isImport)

namespace Within

theorem kind_of_form (h : Within l n) {form : Form} (is : n.form = form)
    (other : form.isToken = false) {kind : Kind}
    (certain : form.shape.kind? = some kind) : n.kind = kind :=
  h.mark.fits.kind kind (by
    change kind ∈ n.shape.kind?
    rw [Node.shape_of_form is other]
    exact certain)

theorem kind_of_isInnerAlias (h : Within l n) (inner : n.isInnerAlias = true) :
    n.kind = .importEqualsDeclaration := by
  rw [Node.isInnerAlias] at inner
  split at inner
  · rename_i form
    exact h.kind_of_form form rfl rfl
  · cases inner

theorem fitsImport (h : Within l n) : Registration.FitsImport n :=
  ⟨fun _ form => h.kind_of_form form rfl rfl, fun _ form => h.kind_of_form form rfl rfl⟩

theorem kind_of_isImport (h : Within l n) (imported : isImport n = true) :
    n.kind = .importDeclaration ∨ n.kind = .importEqualsDeclaration ∨ n.kind = .exportDeclaration := by
  have test := (Bool.and_eq_true_iff.mp imported).2
  split at test
  case h_4 => cases test
  all_goals rename_i form
  · exact .inl (h.kind_of_form form rfl rfl)
  · exact .inr (.inl (h.kind_of_form form rfl rfl))
  · exact .inr (.inr (h.kind_of_form form rfl rfl))

end Within

theorem Node.getLast?_parts {p : Form.ImportEquals} (form : n.form = .importEquals p) :
    n.mark.parts.getLast? = some (p.reference.kind, p.reference.shape) := by
  change (n.children.map fun child => (child.kind, child.shape)).getLast? = _
  rw [List.getLast?_map, getLast?_children_of_importEquals form]
  rfl

theorem Node.mark_ne_of_isInnerAlias (inner : m.isInnerAlias = true) (imported : isImport n = true) :
    m.mark ≠ n.mark := by
  intro same
  have test := (Bool.and_eq_true_iff.mp imported).2
  rw [Node.isInnerAlias] at inner
  split at inner
  case h_2 => cases inner
  rename_i p form
  have shape : n.shape = .importEquals p.typeOnly :=
    (congrArg Mark.shape same).symm.trans (Node.shape_of_form form rfl)
  split at test
  case h_4 => cases test
  case h_2 q form' =>
    have parts := Node.getLast?_parts form
    rw [same, Node.getLast?_parts form'] at parts
    have kinds : q.reference.kind = p.reference.kind := congrArg Prod.fst (Option.some.inj parts)
    simp_all
  all_goals
    rename_i form'
    cases shape.symm.trans (Node.shape_of_form form' rfl)

/-- Nodes with a number in common have all else in common that the ledger tells of them. -/
theorem Within.mark_eq (h : Within l n) (h' : Within l m) (same : m.id = n.id) (known : n.kind ≠ .unknown)
    (known' : m.kind ≠ .unknown) : m.mark = n.mark := by
  rcases h'.mark.unique h.mark same with blank | blank | mark
  · exact absurd (congrArg Mark.kind blank) known'
  · exact absurd (congrArg Mark.kind blank) known
  · exact mark

/-- What is replaced is an enumeration, a namespace or a name for a part of a module. -/
theorem Within.kind_of_replaced (h : Within l m)
    (replaced : Lower.isContainer m = true ∨ m.isInnerAlias = true) :
    m.kind = .enumDeclaration ∨ m.kind = .moduleDeclaration ∨ m.kind = .importEqualsDeclaration := by
  rcases replaced with container | inner
  · simp only [Lower.isContainer, Bool.or_eq_true, beq_iff_eq] at container
    exact container.imp_right .inl
  · exact .inr (.inr (h.kind_of_isInnerAlias inner))

/-- What an enumeration, a namespace or a name for a part of a module becomes never stands in the place
of an import. -/
theorem Within.id_ne (h : Within l n) (imported : isImport n = true) (h' : Within l m)
    (replaced : Lower.isContainer m = true ∨ m.isInnerAlias = true) : m.id ≠ n.id := by
  intro same
  have kind := h.kind_of_isImport imported
  have known : n.kind ≠ .unknown := by rcases kind with kind | kind | kind <;> simp [kind]
  have known' : m.kind ≠ .unknown := by
    rcases h'.kind_of_replaced replaced with kind | kind | kind <;> simp [kind]
  have mark := h.mark_eq h' same known known'
  rcases replaced with container | inner
  · have kinds : m.kind = n.kind := congrArg Mark.kind mark
    rcases kind with kind | kind | kind <;> simp [Lower.isContainer, kinds, kind] at container
  · exact Node.mark_ne_of_isInnerAlias inner imported mark

/-- It never stands in the place of a statement of another kind either. -/
theorem Within.id_ne_of_kind (h : Within l n) (h' : Within l m)
    (other : n.kind ∉ [.unknown, .enumDeclaration, .moduleDeclaration, .importEqualsDeclaration])
    (replaced : Lower.isContainer m = true ∨ m.isInnerAlias = true) : m.id ≠ n.id := by
  intro same
  simp only [List.mem_cons, List.not_mem_nil, or_false, not_or] at other
  obtain ⟨known, other⟩ := other
  have kinds := h'.kind_of_replaced replaced
  have known' : m.kind ≠ .unknown := by rcases kinds with kind | kind | kind <;> simp [kind]
  have mark : m.kind = n.kind := congrArg Mark.kind (h.mark_eq h' same known known')
  rw [mark] at kinds
  simp [other] at kinds

namespace Registration

variable {f : SourceFile}

theorem mem_children_of_mem_statements (mem : n ∈ f.statements) : n ∈ f.root.children := by
  rw [SourceFile.statements] at mem
  cases held : f.root.statements? with
  | none => simp [held] at mem
  | some list =>
    rw [held] at mem
    exact Node.mem_children_of_statements? held mem

theorem statement_within (within : Within l f.root) (mem : n ∈ f.statements) : Within l n :=
  within.child (mem_children_of_mem_statements mem)

theorem ofTree_made (within : Within l f.root) : (Lowering.ofTree f.root).MadeFor (Within l) :=
  Lowering.ofTree_madeFor (fun _ within _ mem => within.child mem) within

theorem replacement?_eq_none (within : Within l f.root)
    (apart : ∀ m, Within l m → Lower.isContainer m = true ∨ m.isInnerAlias = true → m.id ≠ n.id) :
    (Lowering.ofTree f.root).replacement? n = none := by
  rw [Lowering.replacement?]
  split
  · rfl
  · rw [Option.eq_none_iff_forall_ne_some]
    intro v found
    obtain ⟨m, inside, same, stands⟩ := ofTree_made within _ _ found
    refine apart m inside ?_ same
    cases stands with
    | nothing container => exact .inl container
    | declaration container => exact .inl container
    | innerAlias inner => exact .inr inner

theorem replacement?_of_isImport (within : Within l f.root) (mem : n ∈ f.statements)
    (imported : isImport n = true) : (Lowering.ofTree f.root).replacement? n = none :=
  replacement?_eq_none within fun _ => (statement_within within mem).id_ne imported

/-- Nothing stands in the place of a statement that is no declaration of a container and no name for a part of a
module. -/
theorem replacement?_of_kind (within : Within l f.root) (mem : n ∈ f.statements)
    (other : n.kind ∉ [.unknown, .enumDeclaration, .moduleDeclaration, .importEqualsDeclaration]) :
    (Lowering.ofTree f.root).replacement? n = none :=
  replacement?_eq_none within fun _ h => (statement_within within mem).id_ne_of_kind h other

/-- An expression behind the directives that is evaluated for itself is left in the body of the module. -/
theorem mem_execute (within : Within l f.root) {c : Context} (lowering : c.lowering = .ofTree f.root)
    {names : NameSupply} {s : State} {execute : List Node}
    (ran : body (f.root.height + 1) (f.statements.span isDirective).2 c { names } = (execute, s)) {e : Node}
    (mem : n ∈ (f.statements.span isDirective).2) (form : n.form = .wrapped e)
    (kind : n.kind = .expressionStatement) (present : n.isAmbient = false) : n ∈ execute := by
  have inside : n ∈ f.statements := by
    rw [List.span_eq_takeWhile_dropWhile] at mem
    exact List.dropWhile_subset _ mem
  have own : c.lowering.replacement? n = none := lowering ▸ replacement?_of_kind within inside (by simp [kind])
  have stays (s : State) : n ∈ (statement (f.root.height + 1) n c s).1 := by
    rw [statement_expressionStatement form kind present s]
    exact List.mem_singleton_self n
  have held := mem_body mem own stays { names }
  rwa [ran] at held

/-- A file that was read is registered without an error: what is held for an enumeration or a namespace
is released with it. -/
theorem ofFile_ok (within : Within l f.root) (scopes : ScopeTable) (facts : ModuleFacts) :
    ∃ statements c, ofFile f scopes facts (.ofTree f.root) = .ok (statements, c) := by
  have made := dependencies_madeOf facts.imports (start f scopes facts (.ofTree f.root)).1
    (start f scopes facts (.ofTree f.root)).2
  simp only [ofFile]
  generalize dependencies facts.imports _ _ = groups at made
  obtain ⟨groups, c, names⟩ := groups
  have made' : c.lowering.MadeFor (Within l) := made.lowering_eq ▸ ofTree_made within
  have parsed (n : Node) (mem : n ∈ (f.statements.span isDirective).2) : n.origin = none := by
    rw [List.span_eq_takeWhile_dropWhile] at mem
    exact (statement_within within ((List.dropWhile_subset _) mem)).parsed
  have other (n : Node) (inside : Within l n) (inner : n.isInnerAlias = true) :
      Lower.isContainer n = false := by
    rw [Lower.isContainer, inside.kind_of_isInnerAlias inner]
    rfl
  have released : (body (f.root.height + 1) (f.statements.span isDirective).2 c { names }).2.deferred = [] :=
    body_deferred parsed made' other rfl
  split
  rename_i execute s ran
  replace ran : body (f.root.height + 1) (f.statements.span isDirective).2 c { names } = (execute, s) := ran
  rw [ran] at released
  split
  · rename_i held
    cases held.symm.trans (congrArg List.head? released)
  · exact ⟨_, _, rfl⟩

theorem mem_importsOf {imports : List Node} {moduleName other : String} (mem : n ∈ imports)
    (named : moduleName? n = some moduleName) : n ∈ importsOf imports other ↔ other = moduleName := by
  rw [importsOf, List.mem_filter, named, beq_iff_eq, Option.some.injEq]
  exact ⟨fun h => h.2.symm, fun h => ⟨mem, h.symm⟩⟩

theorem ofFile_answers_of_within (within : Within l f.root) :
    ∃ (c : Context) (r : Registered),
      ofFile f (.ofTree f.root) (.ofFile f.root (.ofTree f.root)) (.ofTree f.root) = .ok ([r.tree c], c) ∧
        r.Answers c (f.statements.filter isImport) := by
  obtain ⟨statements, c, ok⟩ := ofFile_ok within (.ofTree f.root) (.ofFile f.root (.ofTree f.root))
  obtain ⟨r, rfl, answers⟩ := ofFile_answers ok (fun n mem _ => (statement_within within mem).fitsImport)
    fun n mem imported => replacement?_of_isImport within mem imported
  exact ⟨c, r, ok, answers⟩

theorem ofFile_of_no_import (within : Within l f.root) (none_imported : f.statements.filter isImport = []) :
    ∃ (c : Context) (r : Registered),
      ofFile f (.ofTree f.root) (.ofFile f.root (.ofTree f.root)) (.ofTree f.root) = .ok ([r.tree c], c) ∧
        r.specifiers = [] ∧ r.setters = [] := by
  obtain ⟨c, r, ok, answers⟩ := ofFile_answers_of_within within
  rw [none_imported] at answers
  obtain ⟨star, setters⟩ := answers.setters
  rw [answers.specifiers] at setters
  exact ⟨c, r, ok, answers.specifiers, List.forall₂_nil_left_iff.mp setters⟩

/-- Any file that is read is registered, as a call that answers to its imports: it depends on the
modules that they name, each once, and each import with such a name is in the group of its module and in
no other one. -/
theorem parsed_file_answers (fileName text : String) (target : ScriptTarget) (kind : ScriptKind)
    (setParents : Bool) :
    let l := LoweredFile.ofFile (.parse fileName text target kind setParents)
    let imports := l.file.statements.filter isImport
    ∃ (c : Context) (r : Registered), ofFile l.file l.scopes l.facts l.lowering = .ok ([r.tree c], c) ∧
      r.Answers c imports ∧ r.specifiers.Nodup ∧
      ∀ n ∈ imports, ∀ moduleName ∈ moduleName? n, moduleName ∈ r.specifiers ∧
        ∀ other ∈ r.specifiers, n ∈ importsOf imports other ↔ other = moduleName := by
  obtain ⟨ledger, within⟩ := SourceFile.parse_within fileName text target kind setParents
  obtain ⟨c, r, ok, answers⟩ := ofFile_answers_of_within within
  refine ⟨c, r, ok, answers, answers.specifiers ▸ namedModules_nodup _,
    fun n mem moduleName named => ⟨?_, ?_⟩⟩
  · rw [answers.specifiers]
    exact mem_namedModules.mpr ⟨n, mem, named⟩
  · exact fun _ _ => mem_importsOf mem named

/-- In any file that is read, the first function of a name that is exported, with a body, is exported under that name
in front of the body of the registered form. -/
theorem parsed_file_exports_functions (fileName text : String) (target : ScriptTarget) (kind : ScriptKind)
    (setParents : Bool) {before after : List Node} {name : String}
    (file : (SourceFile.parse fileName text target kind setParents).statements = before ++ n :: after)
    (declaration : ModuleFacts.IsExportedDeclaration n) (isFunction : n.kind = .functionDeclaration)
    (hasBody : n.body?.isSome = true) (named : n.declaredText? = some name) :
    let l := LoweredFile.ofFile (.parse fileName text target kind setParents)
    name ∉ (before.foldl (ModuleFacts.addStatement l.scopes) {}).exportedNames →
    ∃ (c : Context) (r : Registered), ofFile l.file l.scopes l.facts l.lowering = .ok ([r.tree c], c) ∧
      exportStatement c name (Made.identifier name) ∈ r.inner := by
  intro l fresh
  obtain ⟨ledger, within⟩ := SourceFile.parse_within fileName text target kind setParents
  have mem : n ∈ (SourceFile.parse fileName text target kind setParents).statements := by simp [file]
  have own : l.lowering.replacement? n = none := replacement?_of_kind within mem (by simp [isFunction])
  have parsed : n.parsed = n := Node.parsed_of_origin (statement_within within mem).parsed
  obtain ⟨statements, c, ok⟩ := ofFile_ok within (.ofTree l.file.root) (.ofFile l.file.root (.ofTree l.file.root))
  obtain ⟨r, rfl, exported⟩ := ofFile_exports_functions ok file declaration isFunction parsed hasBody named fresh own
  exact ⟨c, r, ok, exported⟩

theorem lone_function_is_exported :
    ∃ f, f = SourceFile.parse "a.ts" "export function f() {}" .esNext .ts true ∧ f.diagnostics.isEmpty ∧
      let l := LoweredFile.ofFile f
      ∃ (c : Context) (r : Registered), ofFile l.file l.scopes l.facts l.lowering = .ok ([r.tree c], c) ∧
        exportStatement c "f" (Made.identifier "f") ∈ r.inner := by
  have facts : (SourceFile.parse "a.ts" "export function f() {}" .esNext .ts true).diagnostics.isEmpty ∧
      (SourceFile.parse "a.ts" "export function f() {}" .esNext .ts true).statements.length = 1 ∧
      ∀ n ∈ (SourceFile.parse "a.ts" "export function f() {}" .esNext .ts true).statements,
        n.kind = .functionDeclaration ∧ n.form.shape = .functionLike ∧
          n.modifierFlags.has ModifierFlags.isExported = true ∧
          n.modifierFlags.has ModifierFlags.isDefault = false ∧
          n.modifierFlags.has ModifierFlags.isAmbient = false ∧
          n.body?.isSome = true ∧ n.declaredText? = some "f" := by decide +kernel
  obtain ⟨clean, one, all⟩ := facts
  obtain ⟨n, only⟩ := List.length_eq_one_iff.mp one
  have file : (SourceFile.parse "a.ts" "export function f() {}" .esNext .ts true).statements = [] ++ n :: [] := only
  obtain ⟨kind, shape, isExported, unnamed, present, hasBody, named⟩ := all n (only ▸ List.mem_singleton_self n)
  have form : ∃ p, n.form = .functionLike p := by
    cases form : n.form <;> simp [form, Form.shape] at shape
    exact ⟨_, rfl⟩
  exact ⟨_, rfl, clean, parsed_file_exports_functions "a.ts" "export function f() {}" .esNext .ts true
    file ⟨.inl kind, .inl form, isExported, unnamed, present⟩ kind hasBody named (by simp)⟩

/-- An import of types names a module, but the registered form does not depend on it. -/
theorem type_import_is_no_dependency :
    ∃ f, f = SourceFile.parse "a.ts" "import type { a } from \"m\";" .esNext .ts true ∧
      (f.diagnostics.isEmpty ∧ f.isModule ∧
        f.statements.map (fun n => (n.kind, moduleName? n)) = [(.importDeclaration, some "m")]) ∧
      let l := LoweredFile.ofFile f
      ∃ (c : Context) (r : Registered), ofFile l.file l.scopes l.facts l.lowering = .ok ([r.tree c], c) ∧
        r.specifiers = [] ∧ r.setters = [] := by
  have none_imported :
    ((SourceFile.parse "a.ts" "import type { a } from \"m\";" .esNext .ts true).statements.filter
      isImport).isEmpty = true := by decide +kernel
  obtain ⟨ledger, within⟩ := SourceFile.parse_within "a.ts" "import type { a } from \"m\";" .esNext .ts true
  obtain ⟨f, parsed⟩ : ∃ f, f = SourceFile.parse "a.ts" "import type { a } from \"m\";" .esNext .ts true :=
    ⟨_, rfl⟩
  rw [← parsed] at within none_imported
  refine ⟨f, parsed, ?_, ofFile_of_no_import within (List.isEmpty_iff.mp none_imported)⟩
  rw [parsed]
  decide +kernel

end Registration

end ScriptFrontend
