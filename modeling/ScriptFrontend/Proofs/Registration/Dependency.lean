import Mathlib.Data.List.Induction
import Mathlib.Data.List.Nodup
import ScriptFrontend.Registration.Context

/-!
# What dependencies are made of

The dependencies of a module group its imports by the modules that they name, in the order in which
these are first named. Making them takes names and keeps what else is known of the module.
-/

namespace ScriptFrontend.Registration

variable {c : Context} {n : Node}

theorem mem_addEntry {d : Dependency} {groups : List Dependency} {moduleName : String} {entry : Node}
    (mem : d ∈ addEntry n moduleName groups) (inside : entry ∈ d.entries) :
    entry = n ∨ ∃ d' ∈ groups, entry ∈ d'.entries := by
  induction groups with
  | nil =>
    cases List.mem_singleton.mp mem
    exact .inl (List.mem_singleton.mp inside)
  | cons first groups ih =>
    rw [addEntry] at mem
    split at mem
    · rcases List.mem_cons.mp mem with rfl | later
      · rcases List.mem_append.mp inside with old | new
        · exact .inr ⟨first, List.mem_cons_self .., old⟩
        · exact .inl (List.mem_singleton.mp new)
      · exact .inr ⟨d, List.mem_cons_of_mem _ later, inside⟩
    · rcases List.mem_cons.mp mem with rfl | later
      · exact .inr ⟨d, List.mem_cons_self .., inside⟩
      · rcases ih later with same | ⟨d', old, within⟩
        · exact .inl same
        · exact .inr ⟨d', List.mem_cons_of_mem _ old, within⟩

def addDependency : List Dependency × Context × NameSupply → Node →
    List Dependency × Context × NameSupply :=
  fun (groups, c, names) n =>
    match moduleName? n with
    | none => (groups, c, names)
    | some moduleName =>
      let (name?, names) := localName n moduleName names
      let c :=
        match name? with
        | none => c
        | some name =>
          { c with
            locals := c.locals.insert n.id name
            bindings := (readBindings n name).foldl (fun m b => m.insert b.id name) c.bindings }
      (addEntry n moduleName groups, c, names)

theorem dependencies_eq (imports : List Node) (c : Context) (names : NameSupply) :
    dependencies imports c names = imports.foldl addDependency ([], c, names) := rfl

/-- Groups of some imports, with a context that only has more names than another one. -/
structure MadeOf (imports : List Node) (c : Context)
    (made : List Dependency × Context × NameSupply) : Prop where
  facts_eq : made.2.1.facts = c.facts
  lowering_eq : made.2.1.lowering = c.lowering
  entries : ∀ d ∈ made.1, ∀ n ∈ d.entries, n ∈ imports

theorem addDependency_madeOf {imports : List Node} {made : List Dependency × Context × NameSupply}
    (h : MadeOf imports c made) (mem : n ∈ imports) : MadeOf imports c (addDependency made n) := by
  obtain ⟨groups, c', names⟩ := made
  obtain ⟨facts_eq, lowering_eq, entries⟩ := h
  rw [addDependency]
  dsimp only
  split
  · exact ⟨facts_eq, lowering_eq, entries⟩
  · refine ⟨?_, ?_, fun d inside entry within => ?_⟩
    · dsimp only
      split <;> exact facts_eq
    · dsimp only
      split <;> exact lowering_eq
    · rcases mem_addEntry inside within with rfl | ⟨d', old, within'⟩
      · exact mem
      · exact entries d' old entry within'

theorem dependencies_madeOf (imports : List Node) (c : Context) (names : NameSupply) :
    MadeOf imports c (dependencies imports c names) := by
  have loop (rest : List Node) (made : List Dependency × Context × NameSupply)
      (h : MadeOf imports c made) (within : ∀ n ∈ rest, n ∈ imports) :
      MadeOf imports c (rest.foldl addDependency made) := by
    induction rest generalizing made with
    | nil => exact h
    | cons n rest ih =>
      refine ih _ (addDependency_madeOf h (within n (List.mem_cons_self ..))) ?_
      exact fun n mem => within n (List.mem_cons_of_mem _ mem)
  rw [dependencies_eq]
  exact loop imports _ ⟨rfl, rfl, List.forall_mem_nil _⟩ fun _ mem => mem

/-! ## The groups -/

/-- The modules that some imports name, each once, in the order in which they are first named. -/
def namedModules (imports : List Node) : List String := (imports.filterMap moduleName?).eraseDups

def importsOf (imports : List Node) (moduleName : String) : List Node :=
  imports.filter (moduleName? · == some moduleName)

def grouped (imports : List Node) : List Dependency :=
  (namedModules imports).map fun moduleName => ⟨moduleName, importsOf imports moduleName⟩

theorem grouped_moduleNames (imports : List Node) :
    (grouped imports).map (·.moduleName) = namedModules imports := by
  rw [grouped, List.map_map]
  exact List.map_id _

theorem mem_namedModules {imports : List Node} {moduleName : String} :
    moduleName ∈ namedModules imports ↔ ∃ n ∈ imports, moduleName? n = some moduleName := by
  rw [namedModules, List.mem_eraseDups, List.mem_filterMap]

theorem importsOf_eq_nil {imports : List Node} {moduleName : String}
    (other : moduleName ∉ namedModules imports) : importsOf imports moduleName = [] := by
  rw [importsOf, List.filter_eq_nil_iff]
  intro n mem named
  exact other (mem_namedModules.mpr ⟨n, mem, eq_of_beq named⟩)

theorem importsOf_append (imports : List Node) (n : Node) (moduleName : String) :
    importsOf (imports ++ [n]) moduleName =
      importsOf imports moduleName ++ if moduleName? n = some moduleName then [n] else [] := by
  rw [importsOf, List.filter_append]
  congr 1
  by_cases named : moduleName? n = some moduleName <;> simp [named]

theorem namedModules_append {imports : List Node} {moduleName : String}
    (named : moduleName? n = some moduleName) :
    namedModules (imports ++ [n]) =
      if moduleName ∈ namedModules imports then namedModules imports
      else namedModules imports ++ [moduleName] := by
  have last : [n].filterMap moduleName? = [moduleName] := by simp [named]
  rw [namedModules, namedModules, List.filterMap_append, List.eraseDups_append, last]
  simp only [List.mem_eraseDups]
  generalize imports.filterMap moduleName? = names
  by_cases old : moduleName ∈ names
  · simp [old, List.removeAll]
  · simp [old, List.removeAll, List.eraseDups_cons]

theorem namedModules_nodup (imports : List Node) : (namedModules imports).Nodup := by
  induction imports using List.reverseRecOn with
  | nil => exact List.nodup_nil
  | append_singleton imports n ih =>
    cases named : moduleName? n with
    | none => simpa [namedModules, named] using ih
    | some moduleName =>
      rw [namedModules_append named]
      split
      · exact ih
      · exact List.nodup_append.mpr ⟨ih, List.nodup_singleton _, by grind⟩

/-- An entry goes to the group of its module, or to a new one at the end. -/
theorem addEntry_map (moduleName : String) {names : List String} (distinct : names.Nodup)
    (entries : String → List Node) :
    addEntry n moduleName (names.map fun name => ⟨name, entries name⟩) =
      (names.map fun name => ⟨name, entries name ++ if moduleName = name then [n] else []⟩) ++
        if moduleName ∈ names then [] else [⟨moduleName, [n]⟩] := by
  induction names with
  | nil => rfl
  | cons name names ih =>
    obtain ⟨fresh, distinct⟩ := List.nodup_cons.mp distinct
    rw [List.map_cons, addEntry]
    by_cases same : name = moduleName
    · subst same
      have others : (names.map fun other => (⟨other, entries other⟩ : Dependency)) =
          names.map fun other => ⟨other, entries other ++ if name = other then [n] else []⟩ :=
        List.map_congr_left fun other mem => by
          have apart : ¬ name = other := fun same => fresh (same.symm ▸ mem)
          rw [if_neg apart, List.append_nil]
      simp [others]
    · have same' : ¬ moduleName = name := fun h => same h.symm
      simp [same, same', ih distinct]

theorem addEntry_grouped {imports : List Node} {moduleName : String}
    (named : moduleName? n = some moduleName) :
    addEntry n moduleName (grouped imports) = grouped (imports ++ [n]) := by
  rw [grouped, addEntry_map moduleName (namedModules_nodup imports), grouped,
    namedModules_append named]
  have entries (name : String) : importsOf (imports ++ [n]) name =
      importsOf imports name ++ if moduleName = name then [n] else [] := by
    rw [importsOf_append, named]
    simp only [Option.some.injEq]
  simp only [entries]
  by_cases old : moduleName ∈ namedModules imports
  · simp [old]
  · simp [old, importsOf_eq_nil old]

theorem dependencies_grouped (imports : List Node) (c : Context) (names : NameSupply) :
    (dependencies imports c names).1 = grouped imports := by
  rw [dependencies_eq]
  induction imports using List.reverseRecOn with
  | nil => rfl
  | append_singleton imports n ih =>
    rw [List.foldl_append, List.foldl_cons, List.foldl_nil]
    generalize imports.foldl addDependency ([], c, names) = made at ih
    obtain ⟨groups, c', names'⟩ := made
    subst ih
    rw [addDependency]
    cases named : moduleName? n with
    | none => simp [grouped, namedModules, importsOf, named]
    | some moduleName => exact addEntry_grouped named

end ScriptFrontend.Registration
