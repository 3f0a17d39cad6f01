import Mathlib.Data.List.Nodup
import ScriptFrontend.Scope.Module

/-!
# The names a module exports

The facts of a module are gathered statement by statement. Whatever is told of a statement later is
covered by the names gathered so far: a declaration is exported under some of them, or as the default,
and an export with a source gives what it takes some of them. No name stands among them twice.
-/

namespace ScriptFrontend

namespace MultiMap

variable {α β : Type} [BEq α] [LawfulBEq α] {m : MultiMap α β} {key k : α} {v v' : β}

theorem lookup_insertInto (groups : List (α × List β)) :
    (insertInto key v groups).lookup k =
      if k == key then some ((groups.lookup k).getD [] ++ [v]) else groups.lookup k := by
  induction groups with
  | nil => cases same : k == key <;> simp [insertInto, List.lookup_cons, same]
  | cons group rest ih =>
    obtain ⟨first, vs⟩ := group
    rw [insertInto]
    by_cases here : first = key
    · subst here
      cases same : k == first <;> simp [List.lookup_cons, same]
    · cases same : k == first with
      | true =>
        cases eq_of_beq same
        simp [here]
      | false => simp [List.lookup_cons, here, same, ih]

theorem mem_getD_insert : v' ∈ (m.insert key v).getD k ↔ v' ∈ m.getD k ∨ k = key ∧ v' = v := by
  rw [getD, get?, insert, lookup_insertInto, getD, get?]
  by_cases same : k = key <;> simp [same]

end MultiMap

def Node.specifierName? (n : Node) : Option String :=
  match n.form with
  | .specifier false _ name => name.nameText?
  | _ => none

def Node.clauseNames (clause : Node) : List String :=
  match clause.form with
  | .list _ l => l.items.filterMap specifierName?
  | .named name => name.nameText?.toList
  | _ => []

def Node.sourcedNames (n : Node) : List String :=
  match n.form with
  | .exportDeclaration p => (p.clause.map clauseNames).getD []
  | _ => []

namespace ModuleFacts

variable {t : ScopeTable} {m m' m'' : ModuleFacts} {n : Node} {name : String}

/-- Declarations are exported under names of the module, or as the default. -/
structure Sound (m : ModuleFacts) : Prop where
  declared : ∀ key, ∀ name ∈ m.exportedAs.getD key, name ∈ m.exportedNames ∨ name = "default"
  distinct : m.exportedNames.Nodup

structure Covers (m : ModuleFacts) : Prop extends m.Sound where
  sourced : ∀ n ∈ m.imports, ∀ name ∈ n.sourcedNames, name ∈ m.exportedNames

/-- Nothing that was told of exports is taken back. -/
structure Includes (m m' : ModuleFacts) : Prop where
  names : m.exportedNames ⊆ m'.exportedNames
  exports : ∀ key, m.exportedAs.getD key ⊆ m'.exportedAs.getD key

structure Adds (m m' : ModuleFacts) : Prop extends m.Includes m' where
  imports_eq : m'.imports = m.imports
  sound : m.Sound → m'.Sound

/-- Names are added, and all that is told stays covered. -/
structure Grows (m m' : ModuleFacts) : Prop extends m.Includes m' where
  covers : m.Covers → m'.Covers

theorem Includes.of_same (names : m'.exportedNames = m.exportedNames)
    (exports : m'.exportedAs = m.exportedAs) : m.Includes m' :=
  ⟨names ▸ List.Subset.refl _, exports ▸ fun _ => List.Subset.refl _⟩

theorem Includes.refl (m : ModuleFacts) : m.Includes m := .of_same rfl rfl

theorem Includes.trans (h : m.Includes m') (h' : m'.Includes m'') : m.Includes m'' :=
  ⟨List.Subset.trans h.names h'.names, fun key => List.Subset.trans (h.exports key) (h'.exports key)⟩

theorem Adds.refl (m : ModuleFacts) : m.Adds m := ⟨.refl m, rfl, id⟩

theorem Adds.trans (h : m.Adds m') (h' : m'.Adds m'') : m.Adds m'' :=
  ⟨h.toIncludes.trans h'.toIncludes, h'.imports_eq.trans h.imports_eq, h'.sound ∘ h.sound⟩

theorem Grows.refl (m : ModuleFacts) : m.Grows m := ⟨.refl m, id⟩

theorem Grows.trans (h : m.Grows m') (h' : m'.Grows m'') : m.Grows m'' :=
  ⟨h.toIncludes.trans h'.toIncludes, h'.covers ∘ h.covers⟩

theorem Adds.grows (h : m.Adds m') : m.Grows m' where
  toIncludes := h.toIncludes
  covers := by
    intro covers
    refine ⟨h.sound covers.toSound, fun n mem name named => ?_⟩
    rw [h.imports_eq] at mem
    exact h.names (covers.sourced n mem name named)

section Steps

variable {α : Type} {step : ModuleFacts → α → ModuleFacts}

theorem Includes.foldl (h : ∀ m a, Includes m (step m a)) (m : ModuleFacts) (as : List α) :
    m.Includes (as.foldl step m) := by
  induction as generalizing m with
  | nil => exact .refl m
  | cons a as ih => exact (h m a).trans (ih _)

theorem Adds.foldl (h : ∀ m a, Adds m (step m a)) (m : ModuleFacts) (as : List α) :
    m.Adds (as.foldl step m) := by
  induction as generalizing m with
  | nil => exact .refl m
  | cons a as ih => exact (h m a).trans (ih _)

theorem mem_foldl (keeps : ∀ m a, Includes m (step m a)) {a : α} {as : List α} (mem : a ∈ as)
    (named : ∀ m, name ∈ (step m a).exportedNames) (m : ModuleFacts) :
    name ∈ (as.foldl step m).exportedNames := by
  obtain ⟨before, after, rfl⟩ := List.append_of_mem mem
  rw [List.foldl_append, List.foldl_cons]
  exact (Includes.foldl keeps _ after).names (named _)

end Steps

/-! ## One name -/

theorem isNew_iff : m.isNew name = true ↔ name ∉ m.exportedNames := by simp [isNew]

theorem addName_adds (m : ModuleFacts) (name : String) : m.Adds (m.addName name) := by
  rw [addName]
  split
  · rename_i fresh
    rw [isNew_iff] at fresh
    refine ⟨⟨List.subset_append_left _ _, fun _ => List.Subset.refl _⟩, rfl,
      fun sound => ⟨fun key name' mem => ?_, ?_⟩⟩
    · exact (sound.declared key name' mem).imp_left (List.mem_append_left _)
    · exact List.nodup_append.mpr ⟨sound.distinct, List.nodup_singleton _, by grind⟩
  · exact .refl m

theorem mem_addName (m : ModuleFacts) (name : String) : name ∈ (m.addName name).exportedNames := by
  rw [addName]
  split
  · simp
  · rename_i old
    rwa [isNew_iff, not_not] at old

theorem addExport_adds (named : name ∈ m.exportedNames ∨ name = "default") (declaration : Node) :
    m.Adds (m.addExport declaration name) := by
  refine ⟨⟨List.Subset.refl _, fun key name' old => MultiMap.mem_getD_insert.mpr (.inl old)⟩, rfl,
    fun sound => ⟨fun key name' mem => ?_, sound.distinct⟩⟩
  rcases MultiMap.mem_getD_insert.mp mem with old | ⟨-, rfl⟩
  · exact sound.declared key name' old
  · exact named

theorem addNameOf_adds (m : ModuleFacts) (declaration : Node) (name : String) :
    m.Adds (m.addNameOf declaration name) := by
  rw [addNameOf]
  split
  · exact (addName_adds m name).trans (addExport_adds (.inl (mem_addName m name)) declaration)
  · exact .refl m

theorem mem_addNameOf (m : ModuleFacts) (declaration : Node) (name : String) :
    name ∈ (m.addNameOf declaration name).exportedNames := by
  rw [addNameOf]
  split
  · exact mem_addName m name
  · rename_i old
    rwa [isNew_iff, not_not] at old

/-! ## One statement -/

theorem addSpecifier_eq_self (h : n.specifierName? = none) (hasSource : Bool) :
    addSpecifier t hasSource m n = m := by
  rw [addSpecifier]
  split
  · rename_i form
    rw [Node.specifierName?, form] at h
    simp [h]
  · rfl

theorem addName_adds_addSpecifier (h : n.specifierName? = some name) (hasSource : Bool) :
    (m.addName name).Adds (addSpecifier t hasSource m n) := by
  have specified (specifiers : MultiMap String Node) (m : ModuleFacts) :
      m.Adds { m with specifiers } :=
    ⟨.of_same rfl rfl, rfl, fun sound => ⟨sound.declared, sound.distinct⟩⟩
  rw [Node.specifierName?] at h
  split at h
  · rename_i propertyName written form
    simp only [addSpecifier, form, h]
    split
    · rename_i old
      rw [addName, if_neg (by simpa using old)]
      exact .refl m
    · split
      · exact .refl _
      · have named := mem_addName m name
        split
        · split
          · refine (specified _ _).trans (addExport_adds (.inl ?_) _)
            exact named
          · exact addExport_adds (.inl named) _
        · split
          · exact specified _ _
          · exact .refl _
  · cases h

theorem addSpecifier_adds (t : ScopeTable) (hasSource : Bool) (m : ModuleFacts) (n : Node) :
    m.Adds (addSpecifier t hasSource m n) := by
  cases h : n.specifierName? with
  | none =>
    rw [addSpecifier_eq_self h]
    exact .refl m
  | some name => exact (addName_adds m name).trans (addName_adds_addSpecifier h hasSource)

theorem mem_addSpecifier (h : n.specifierName? = some name) (hasSource : Bool) (m : ModuleFacts) :
    name ∈ (addSpecifier t hasSource m n).exportedNames :=
  (addName_adds_addSpecifier h hasSource).names (mem_addName m name)

theorem Grows.of_same (imports : m'.imports = m.imports) (names : m'.exportedNames = m.exportedNames)
    (exports : m'.exportedAs = m.exportedAs) : m.Grows m' where
  toIncludes := .of_same names exports
  covers := by
    rintro ⟨⟨declared, distinct⟩, sourced⟩
    rw [← names, ← exports] at declared
    rw [← names] at distinct
    rw [← names, ← imports] at sourced
    exact ⟨⟨declared, distinct⟩, sourced⟩

theorem Grows.of_import (adds : (m.addImport n).Adds m')
    (sourced : ∀ name ∈ n.sourcedNames, name ∈ m'.exportedNames) : m.Grows m' where
  toIncludes := ⟨adds.names, adds.exports⟩
  covers := by
    intro h
    refine ⟨adds.sound ⟨h.declared, h.distinct⟩, fun n' mem name named => ?_⟩
    rw [adds.imports_eq] at mem
    rcases List.mem_append.mp mem with old | new
    · exact adds.names (h.sourced n' old name named)
    · cases List.mem_singleton.mp new
      exact sourced name named

theorem addImport_grows (none : n.sourcedNames = []) : m.Grows (m.addImport n) :=
  .of_import (.refl _) (by simp [none])

def addClause (t : ScopeTable) (m : ModuleFacts) (n : Node) (source : Option Node) (clause : Node) :
    ModuleFacts :=
  match clause.form with
  | .list _ l => l.items.foldl (addSpecifier t source.isSome) m
  | .named name =>
    match source, name.nameText? with
    | some _, some text => m.addNameOf n text
    | _, _ => m
  | _ => m

theorem addClause_adds (t : ScopeTable) (m : ModuleFacts) (n : Node) (source : Option Node)
    (clause : Node) : m.Adds (addClause t m n source clause) := by
  rw [addClause]
  split
  · exact Adds.foldl (addSpecifier_adds t source.isSome) m _
  · split
    · exact addNameOf_adds m n _
    · exact .refl m
  · exact .refl m

theorem mem_addClause {clause source : Node} (h : name ∈ clause.clauseNames) :
    name ∈ (addClause t m n (some source) clause).exportedNames := by
  rw [Node.clauseNames] at h
  rw [addClause]
  split at h
  · obtain ⟨specifier, mem, specified⟩ := List.mem_filterMap.mp h
    exact mem_foldl (fun m a => (addSpecifier_adds t _ m a).toIncludes) mem (mem_addSpecifier specified _) m
  · rw [Option.mem_toList] at h
    simp only [h]
    exact mem_addNameOf m n name
  · cases h

theorem addExportDeclaration_grows {p : Form.ExportDeclaration} (form : n.form = .exportDeclaration p) :
    m.Grows (addExportDeclaration t m n p) := by
  rw [addExportDeclaration]
  split
  · exact .refl m
  · split
    · exact .refl m
    · rename_i clause
      have starred : (m.addImport n).Adds { m.addImport n with hasExportStar := true } :=
        ⟨.of_same rfl rfl, rfl, fun sound => ⟨sound.declared, sound.distinct⟩⟩
      exact .of_import starred (by simp [Node.sourcedNames, form, clause])
    · rename_i clause given
      change m.Grows (addClause t (if p.source.isSome then m.addImport n else m) n p.source clause)
      cases p.source with
      | none => exact (addClause_adds t m n none clause).grows
      | some source =>
        refine .of_import (addClause_adds t (m.addImport n) n (some source) clause) ?_
        intro name named
        rw [Node.sourcedNames, form] at named
        simp only [given, Option.map_some, Option.getD_some] at named
        exact mem_addClause named

theorem addFunctionOrClass_grows (m : ModuleFacts) (n : Node) (modifiers : ModifierFlags) :
    m.Grows (addFunctionOrClass m n modifiers) := by
  rw [addFunctionOrClass]
  split
  · split
    · exact .refl m
    · have added := (addExport_adds (m := m) (.inr rfl) n).grows
      exact added.trans (.of_same rfl rfl rfl)
  · split
    · exact (addNameOf_adds m n _).grows
    · exact .refl m

/-- Whatever a statement is, names are kept, and what it tells of exports is covered. -/
theorem addStatement_grows (t : ScopeTable) (m : ModuleFacts) (n : Node) :
    m.Grows (addStatement t m n) := by
  have named (names : List String) : m.Grows (names.foldl addName m) :=
    (Adds.foldl addName_adds m names).grows
  rw [addStatement]
  dsimp only
  split
  · exact .refl m
  · split
    case h_1 p form =>
      split
      · exact .refl m
      · exact addImport_grows (by simp [Node.sourcedNames, form])
    case h_2 p form =>
      split
      · exact .refl m
      · split
        · exact addImport_grows (by simp [Node.sourcedNames, form])
        · split
          · exact named _
          · exact .refl m
    case h_3 p form => exact addExportDeclaration_grows form
    case h_4 => split <;> exact .of_same rfl rfl rfl
    case h_5 =>
      split
      · exact .refl m
      · exact named _
    case h_6 | h_7 =>
      split
      · exact addFunctionOrClass_grows m n _
      · exact .refl m
    case h_8 | h_9 =>
      split
      · exact named _
      · exact .refl m
    case h_10 => exact .refl m

def IsContainer (n : Node) : Prop :=
  (∃ modifiers name members, n.form = .enumeration modifiers name members) ∨
    ∃ modifiers name body, n.form = .module modifiers name body

/-- What an exported enumeration or namespace is called is a name of the module. -/
theorem mem_addStatement (m : ModuleFacts) (container : IsContainer n)
    (isExported : n.modifierFlags.has ModifierFlags.isExported = true)
    (present : n.modifierFlags.has ModifierFlags.isAmbient = false)
    (text : n.name?.bind Node.identifierText? = some name) :
    name ∈ (addStatement t m n).exportedNames := by
  rcases container with ⟨_, _, _, form⟩ | ⟨_, _, _, form⟩
  all_goals simpa [addStatement, form, isExported, present, text] using mem_addName m name

/-! ## All statements -/

variable {root : Node}

def statementsOf (root : Node) : List Node := ((root.statements?).map (·.items)).getD []

/-- In every file, all that a module exports under another name than the default stands among its
names, each once. -/
theorem ofFile_covers (root : Node) (t : ScopeTable) : (ofFile root t).Covers := by
  have loop (items : List Node) (m : ModuleFacts) (h : m.Covers) :
      (items.foldl (addStatement t) m).Covers := by
    induction items generalizing m with
    | nil => exact h
    | cons n items ih => exact ih _ ((addStatement_grows t m n).covers h)
  refine loop _ {} ⟨⟨?_, List.nodup_nil⟩, ?_⟩
  · intro key name mem
    cases mem
  · intro n mem
    cases mem

theorem mem_ofFile (mem : n ∈ statementsOf root) (container : IsContainer n)
    (isExported : n.modifierFlags.has ModifierFlags.isExported = true)
    (present : n.modifierFlags.has ModifierFlags.isAmbient = false)
    (text : n.name?.bind Node.identifierText? = some name) :
    name ∈ (ofFile root t).exportedNames :=
  mem_foldl (fun m n => (addStatement_grows t m n).toIncludes) mem
    (fun m => mem_addStatement m container isExported present text) {}

structure IsExportedDeclaration (n : Node) : Prop where
  kind : n.kind = .functionDeclaration ∨ n.kind = .classDeclaration
  form : (∃ p, n.form = .functionLike p) ∨ ∃ p, n.form = .classLike p
  isExported : n.modifierFlags.has ModifierFlags.isExported = true
  unnamed : n.modifierFlags.has ModifierFlags.isDefault = false
  present : n.modifierFlags.has ModifierFlags.isAmbient = false

theorem mem_exportedAs_addStatement (declaration : IsExportedDeclaration n)
    (text : n.name?.bind Node.identifierText? = some name) (fresh : name ∉ m.exportedNames) :
    name ∈ (addStatement t m n).exportedAs.getD n.id := by
  obtain ⟨kind, form, isExported, unnamed, present⟩ := declaration
  have step : addStatement t m n = m.addNameOf n name := by
    rcases form with ⟨p, form⟩ | ⟨p, form⟩
    all_goals
      rcases kind with kind | kind
      all_goals simp [addStatement, addFunctionOrClass, form, kind, isExported, unnamed, present, text]
  rw [step, addNameOf, if_pos (isNew_iff.mpr fresh)]
  exact MultiMap.mem_getD_insert.mpr (.inr ⟨rfl, rfl⟩)

theorem mem_exportNames {before after : List Node} (statements : statementsOf root = before ++ n :: after)
    (declaration : IsExportedDeclaration n) (parsed : n.parsed = n)
    (text : n.name?.bind Node.identifierText? = some name)
    (fresh : name ∉ (before.foldl (addStatement t) {}).exportedNames) :
    name ∈ (ofFile root t).exportNames n := by
  have keeps := fun m n => (addStatement_grows t m n).toIncludes
  have there := mem_exportedAs_addStatement (t := t) declaration text fresh
  have file : ofFile root t = (statementsOf root).foldl (addStatement t) {} := rfl
  rw [exportNames, parsed, file, statements, List.foldl_append, List.foldl_cons]
  exact (Includes.foldl keeps _ after).exports _ there

end ModuleFacts

end ScriptFrontend
