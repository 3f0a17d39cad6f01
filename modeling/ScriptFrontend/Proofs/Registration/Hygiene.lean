import ScriptFrontend.Proofs.Lowering.Namespace
import ScriptFrontend.Proofs.Registration.Introduced
import ScriptFrontend.Proofs.Registration.Parsed

/-!
# Hygiene of registered modules

The names that a module is given for its registered form are different, and none is the name of an
identifier of the file. Whatever is printed goes by such names, by names of the file, and by fixed ones,
so a binding of the file never has a name that was given.
-/

namespace ScriptFrontend

variable {A : String → Prop} {n m : Node}

theorem Lowering.memberOf?_uses {l : Lowering} {scopes : ScopeTable} (lowered : l.OfNames A) (h : Uses A n)
    (found : l.memberOf? scopes n = some m) : Uses A m := by
  rw [memberOf?] at found
  split at found
  · cases found
  · obtain ⟨container, -, found⟩ := Option.bind_eq_some_iff.mp found
    split at found
    · cases found
    · obtain ⟨object, named, found⟩ := Option.bind_eq_some_iff.mp found
      obtain ⟨text, is, found⟩ := Option.bind_eq_some_iff.mp found
      have := lowered.objectNames _ _ named
      have := Uses.name (h.of_identifierText? is)
      cases found
      infer_instance

namespace Registration

open Made
open ModuleFacts (isImport)

section

variable {c : Context} [Fixed A] [fits : c.OfNames A]

omit [Fixed A] in
theorem exportChain_uses (names : List String) {value : Node} (h : Uses A value) :
    Uses A (exportChain c names value) := by
  induction names generalizing value with
  | nil => exact h
  | cons name names ih => exact ih inferInstance

/-- What an imported name is read as goes by the name of an object and the name in the import. -/
theorem imported?_uses (declared : ∀ d, c.scopes.importOf? n = some d → Uses A d)
    (found : imported? c n = some m) :
    Uses A m := by
  have : Uses A "default" := Fixed.uses (by decide)
  rw [imported?] at found
  obtain ⟨d, of, found⟩ := Option.bind_eq_some_iff.mp found
  obtain ⟨object, bound, found⟩ := Option.bind_eq_some_iff.mp found
  have := fits.bindings _ _ bound
  have d_uses := declared d of
  split at found
  · cases found
    infer_instance
  · rename_i form
    have parts := d_uses.form form
    simp only [Uses.cons_iff, Uses.ofNode?_iff, Uses.ofNode_iff] at parts
    obtain ⟨_, _, -⟩ := parts
    split at found
    · rename_i form'
      have := Uses.of_identifier (A := A) inferInstance form'
      cases found
      infer_instance
    · cases found
      infer_instance
    · cases found
  · cases found
    infer_instance
  · cases found

omit [Fixed A] in
theorem updated?_uses {operator : Kind} {operand : Node} (h : Uses A n) (h' : Uses A operand)
    (found : updated? c n operator operand = some m) : Uses A m := by
  rw [updated?] at found
  split at found
  · cases found
  · obtain ⟨names, -, found⟩ := Option.bind_eq_some_iff.mp found
    split at found
    · cases found
      exact exportChain_uses names inferInstance
    · have : Uses A (exportChain c names (kept (unary operator operand))) :=
        exportChain_uses names inferInstance
      cases found
      infer_instance

/-- What stands in the place of an expression goes by the names in it, if what is imported does. -/
theorem expression?_uses (h : Uses A n) (declared : ∀ d, c.scopes.importOf? n = some d → Uses A d)
    (found : expression? c n = some m) : Uses A m := by
  have := fits.context
  rw [expression?] at found
  split at found
  · exact imported?_uses declared found
  · split at found
    · obtain ⟨names, -, rfl⟩ := Option.map_eq_some_iff.mp found
      exact exportChain_uses names inferInstance
    · cases found
  · rename_i form
    have parts := h.form form
    simp only [Uses.cons_iff, Uses.ofNode_iff] at parts
    split at found
    · exact updated?_uses h parts.1 found
    · cases found
  · rename_i p form
    have : Uses A "import" := Fixed.uses (by decide)
    have parts := h.form form
    simp only [Uses.cons_iff, Uses.ofNode_iff, Uses.ofNode?_iff, Uses.ofList?_iff] at parts
    split at found
    · obtain ⟨_, _, _, _, -⟩ := parts
      cases found
      infer_instance
    · cases found
  · have : Uses A "meta" := Fixed.uses (by decide)
    split at found
    · cases found
      infer_instance
    · cases found
  · cases found

/-- What is printed in the place of an expression goes by the names in it, if what is imported does. -/
theorem substituted_uses {l : LoweredFile} (lowered : l.lowering.OfNames A) (h : Uses A n)
    (declared : ∀ d, c.scopes.importOf? n = some d → Uses A d)
    (found : (l.substitution.orElse (substitution c)).expression n = some m) : Uses A m := by
  change (l.lowering.memberOf? l.scopes n <|> expression? c n) = some m at found
  cases first : l.lowering.memberOf? l.scopes n with
  | none =>
    rw [first] at found
    exact expression?_uses h declared found
  | some other =>
    rw [first] at found
    exact Option.some.inj found ▸ Lowering.memberOf?_uses lowered h first

end

/-! ## Files that were read -/

/-- The names in the registered form of a module: those of the file, those that it was given, and fixed
ones. -/
def Introduced.Allows (i : Introduced) (root : Node) (name : String) : Prop :=
  name ∈ root.names ∨ name ∈ i.all ∨ name ∈ fixedNames

variable {i : Introduced} {root : Node}

/-- Any file that is read is registered under names that are different from each other, from the names of
all identifiers of the file and from fixed ones. All that is printed, in its place or instead of
something, goes by these names, by names of the file and by fixed ones. -/
theorem parsed_file_introduces_fresh_names (fileName text : String) (target : ScriptTarget)
    (kind : ScriptKind)
    (setParents : Bool) :
    let l := LoweredFile.ofFile (.parse fileName text target kind setParents)
    ∃ (c : Context) (r : Registered) (i : Introduced),
      ofFile l.file l.scopes l.facts l.lowering = .ok ([r.tree c], c) ∧ i.Names l.file l.facts.imports c r ∧
      i.all.Nodup ∧ (∀ name ∈ i.all, name ∉ l.file.root.names ∧ name ∉ fixedNames) ∧
      Uses (i.Allows l.file.root) (r.tree c) ∧
      (∀ n statements, l.lowering.replacement? n = some statements → Uses (i.Allows l.file.root) statements) ∧
      ∀ n m, (l.substitution.orElse (substitution c)).expression n = some m → ∀ name ∈ m.names,
        i.Allows l.file.root name ∨ name ∈ n.names ∨ ∃ d ∈ l.scopes.importOf? n, name ∈ d.names := by
  intro l
  obtain ⟨ledger, within⟩ := SourceFile.parse_within fileName text target kind setParents
  obtain ⟨statements, c, ok⟩ := ofFile_ok within l.scopes l.facts
  obtain ⟨r, i, names, rfl, roles, scopes, -, gives, uses⟩ := ofFile_introduces ok
  have row := gives.row
  have goesBy (B : String → Prop) (sub : ∀ name, i.Allows l.file.root name → B name) :
      l.lowering.OfNames B ∧ c.OfNames B ∧ Uses B (r.tree c) := by
    have fixed : Fixed B := ⟨fun name mem => sub name (.inr (.inr mem))⟩
    have blank : Uses B "" := Fixed.uses (by decide)
    have root_uses : Uses B l.file.root := ⟨fun name mem => sub name (.inl mem)⟩
    have lowered : l.lowering.OfNames B := Lowering.ofTree_ofNames root_uses
    have made : l.lowering.MadeFor (Uses B) :=
      Lowering.ofTree_madeFor (fun _ uses _ mem => uses.child mem) root_uses
    have statement_uses (n : Node) (mem : n ∈ l.file.statements) : Uses B n ∧ n.origin = none :=
      ⟨root_uses.child (mem_children_of_mem_statements mem), (statement_within within mem).parsed⟩
    have imports : l.facts.imports = l.file.statements.filter isImport :=
      (ModuleFacts.ofFile_imports l.file.root l.scopes).1
    have imported (n : Node) (mem : n ∈ l.facts.imports) : Uses B n := by
      rw [imports] at mem
      exact (statement_uses n (List.mem_filter.mp mem).1).1
    exact ⟨lowered, uses B statement_uses lowered made imported fun name mem => sub name (.inr (.inl mem))⟩
  obtain ⟨lowered, -, tree_uses⟩ := goesBy _ fun _ => id
  refine ⟨c, r, i, ok, roles, row.distinct, fun name mem => ?_, tree_uses, fun n statements found => ?_,
    fun n m found => ?_⟩
  · have notFixed := not_mem_fixedNames (row.isGiven name mem)
    refine ⟨fun inside => ?_, notFixed⟩
    rcases (SourceFile.parse_uses fileName text target kind setParents).uses name inside with rfl | noted
    · exact notFixed (by decide)
    · exact row.fresh name mem (NameSupply.mem_ofNames.mpr noted)
  · exact lowered.replacement? found
  · let B (name : String) : Prop :=
      i.Allows l.file.root name ∨ name ∈ n.names ∨ ∃ d ∈ l.scopes.importOf? n, name ∈ d.names
    obtain ⟨lowered, fits, -⟩ := goesBy B fun _ => .inl
    have fixed : Fixed B := ⟨fun name mem => .inl (.inr (.inr mem))⟩
    have n_uses : Uses B n := ⟨fun name mem => .inr (.inl mem)⟩
    have declared (d : Node) (of : c.scopes.importOf? n = some d) : Uses B d :=
      ⟨fun name mem => .inr (.inr ⟨d, scopes ▸ of, mem⟩)⟩
    exact (substituted_uses lowered n_uses declared found).uses

/-- What a namespace becomes knows the object by the name of the namespace, which was not given. A function
of that name in the namespace takes the name in the whole body, so that the reference that was made to
add the function to the object, in `N.N = N`, means the function of the file and not the object. -/
theorem namespace_name_is_captured :
    ∃ f, f = SourceFile.parse "a.ts" "export namespace N { export function N() {} }" .esNext .ts true ∧
      (f.diagnostics.isEmpty ∧ f.isModule) ∧
      let l := LoweredFile.ofFile f
      ∃ (c : Context) (r : Registered) (role : Lowering.Role) (own declared : Node),
        ofFile l.file l.scopes l.facts l.lowering = .ok ([r.tree c], c) ∧ role.name = "N" ∧
          Lowering.fillingCall role [own, Lowering.memberCopy "N" "N"] ∈ r.execute ∧
          own.kind = .functionDeclaration ∧ own.declaredText? = some "N" ∧
          own.origin = some declared ∧ Lower.IsExportedFunction declared "N" := by
  have read (f : SourceFile)
      (same : f = .parse "a.ts" "export namespace N { export function N() {} }" .esNext .ts true) :
      (f.diagnostics.isEmpty ∧ f.isModule) ∧ f.statements.map (fun n => (Lower.bodyItems n).length) = [1] ∧
        ∀ n ∈ f.statements, Lower.IsNamespace n "N" ∧ n.isSynthesized = false ∧ isDirective n = false ∧
          ∀ g ∈ Lower.bodyItems n, Lower.IsExportedFunction g "N" := by
    rw [same]
    decide +kernel
  obtain ⟨ledger, within⟩ :=
    SourceFile.parse_within "a.ts" "export namespace N { export function N() {} }" .esNext .ts true
  obtain ⟨f, same⟩ :
      ∃ f, f = SourceFile.parse "a.ts" "export namespace N { export function N() {} }" .esNext .ts true :=
    ⟨_, rfl⟩
  obtain ⟨clean, shape, facts⟩ := read f same
  rw [← same] at within
  obtain ⟨n, alone, one⟩ := List.map_eq_singleton_iff.mp shape
  obtain ⟨declared, inside⟩ := List.length_eq_one_iff.mp one
  obtain ⟨space, parsed, other, functions⟩ := facts n (by simp [alone])
  have function := functions declared (by simp [inside])
  obtain ⟨statements, c, ok⟩ := ofFile_ok within (.ofTree f.root) (.ofFile f.root (.ofTree f.root))
  obtain ⟨r, i, names, rfl, roles, -, lowering, -⟩ := ofFile_introduces ok
  obtain ⟨names, s, ran, -⟩ := roles.inner
  obtain ⟨l', depth, replaced⟩ := space.ofTree_replacement? parsed alone
  obtain ⟨kind, origin, named⟩ := function.exportedCopy_eq
  refine ⟨f, same, clean, c, r, ⟨"N", true, .file, none⟩, Lower.exportedCopy declared, declared, ok,
    rfl, ?_, kind, named,
    origin, function⟩
  rw [inside, function.namespaceBody_eq, ← lowering] at replaced
  have items : (f.statements.span isDirective).2 = [n] := by
    rw [alone]
    simp [List.span_eq_takeWhile_dropWhile, other]
  have mem := fillingCall_mem_body f.root.height { names } replaced
  rw [items] at ran
  rwa [ran] at mem

end Registration

end ScriptFrontend
