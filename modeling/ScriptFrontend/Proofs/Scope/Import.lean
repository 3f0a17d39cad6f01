import ScriptFrontend.Proofs.Scope.Module

/-!
# The imports of a module

The imports of a module are the statements that name a module which is there at run time. Of all
statements, only these add to them, and only exports of everything set the mark for such exports.
-/

namespace ScriptFrontend

namespace ModuleFacts

/-- The statement names a module that is there at run time. -/
def isImport (n : Node) : Bool :=
  !n.modifierFlags.has ModifierFlags.isAmbient &&
    match n.form with
    | .importDeclaration p =>
      match p.clause.map Node.form with
      | some (.importClause true _ _) => false
      | _ => true
    | .importEquals p => !p.typeOnly && p.reference.kind == .externalModuleReference
    | .exportDeclaration p => !p.typeOnly && p.source.isSome
    | _ => false

def isStarExport (n : Node) : Bool :=
  match n.form with
  | .exportDeclaration p => p.clause.isNone
  | _ => false

variable {t : ScopeTable} {m m' m'' : ModuleFacts} {n : Node}

structure SameImports (m m' : ModuleFacts) : Prop where
  imports : m'.imports = m.imports
  star : m'.hasExportStar = m.hasExportStar

theorem SameImports.refl (m : ModuleFacts) : m.SameImports m := ⟨rfl, rfl⟩

theorem SameImports.trans (h : m.SameImports m') (h' : m'.SameImports m'') : m.SameImports m'' :=
  ⟨h'.imports.trans h.imports, h'.star.trans h.star⟩

theorem SameImports.foldl {α : Type} {step : ModuleFacts → α → ModuleFacts}
    (h : ∀ m a, SameImports m (step m a)) (m : ModuleFacts) (as : List α) :
    m.SameImports (as.foldl step m) := by
  induction as generalizing m with
  | nil => exact .refl m
  | cons a as ih => exact (h m a).trans (ih _)

theorem addName_sameImports (m : ModuleFacts) (name : String) : m.SameImports (m.addName name) := by
  rw [addName]
  split <;> exact ⟨rfl, rfl⟩

theorem addNameOf_sameImports (m : ModuleFacts) (declaration : Node) (name : String) :
    m.SameImports (m.addNameOf declaration name) := by
  rw [addNameOf]
  split
  · exact (addName_sameImports m name).trans ⟨rfl, rfl⟩
  · exact .refl m

theorem addSpecifier_sameImports (t : ScopeTable) (hasSource : Bool) (m : ModuleFacts) (n : Node) :
    m.SameImports (addSpecifier t hasSource m n) := by
  rw [addSpecifier]
  split
  · split
    · exact .refl m
    · rename_i exported _
      split
      · exact .refl m
      · refine (addName_sameImports m exported).trans ?_
        dsimp only
        repeat' split
        all_goals exact ⟨rfl, rfl⟩
  · exact .refl m

theorem addClause_sameImports (t : ScopeTable) (m : ModuleFacts) (n : Node) (source : Option Node)
    (clause : Node) : m.SameImports (addClause t m n source clause) := by
  rw [addClause]
  split
  · exact .foldl (addSpecifier_sameImports t source.isSome) m _
  · split
    · exact addNameOf_sameImports m n _
    · exact .refl m
  · exact .refl m

theorem addFunctionOrClass_sameImports (m : ModuleFacts) (n : Node) (modifiers : ModifierFlags) :
    m.SameImports (addFunctionOrClass m n modifiers) := by
  rw [addFunctionOrClass]
  split
  · split
    · exact .refl m
    · exact ⟨rfl, rfl⟩
  · split
    · exact addNameOf_sameImports m n _
    · exact .refl m

/-- Some imports are added, and everything of a module is exported behind if it was or one of them
does that. -/
structure AddsImports (m : ModuleFacts) (added : List Node) (m' : ModuleFacts) : Prop where
  imports : m'.imports = m.imports ++ added
  star : m'.hasExportStar = (m.hasExportStar || added.any isStarExport)

theorem SameImports.adds (h : m.SameImports m') : m.AddsImports [] m' :=
  ⟨h.imports.trans (List.append_nil _).symm, h.star.trans (Bool.or_false _).symm⟩

theorem addImport_adds (other : isStarExport n = false) (same : (m.addImport n).SameImports m') :
    m.AddsImports [n] m' :=
  ⟨same.imports, same.star.trans (by simp [other, addImport])⟩

theorem addExportDeclaration_adds {p : Form.ExportDeclaration} (form : n.form = .exportDeclaration p) :
    m.AddsImports (if !p.typeOnly && p.source.isSome then [n] else [])
      (addExportDeclaration t m n p) := by
  rw [addExportDeclaration]
  cases p.typeOnly with
  | true => exact (SameImports.refl m).adds
  | false =>
    rw [if_neg Bool.false_ne_true, Bool.not_false, Bool.true_and]
    cases source : p.source with
    | none =>
      cases p.clause with
      | none => exact (SameImports.refl m).adds
      | some clause => exact (addClause_sameImports t m n none clause).adds
    | some named =>
      cases given : p.clause with
      | none => exact ⟨rfl, by simp [isStarExport, form, given]⟩
      | some clause =>
        exact addImport_adds (by simp [isStarExport, form, given])
          (addClause_sameImports t (m.addImport n) n (some named) clause)

theorem addStatement_adds (t : ScopeTable) (m : ModuleFacts) (n : Node) :
    m.AddsImports ([n].filter isImport) (addStatement t m n) := by
  have named (names : List String) : m.SameImports (names.foldl addName m) :=
    .foldl addName_sameImports m names
  have same {m' : ModuleFacts} (h : m.SameImports m') (other : isImport n = false) :
      m.AddsImports ([n].filter isImport) m' := by
    rw [List.filter_cons, other]
    exact h.adds
  have import_ {m' : ModuleFacts} (h : (m.addImport n).SameImports m') (is : isImport n = true)
      (other : isStarExport n = false) : m.AddsImports ([n].filter isImport) m' := by
    rw [List.filter_cons, is]
    exact addImport_adds other h
  rw [addStatement]
  dsimp only
  cases ambient : n.modifierFlags.has ModifierFlags.isAmbient with
  | true => exact same (.refl m) (by simp [isImport, ambient])
  | false =>
    simp only [Bool.false_eq_true, if_false]
    split
    case h_1 p form =>
      split
      · rename_i clause
        exact same (.refl m) (by simp [isImport, ambient, form, clause])
      · rename_i other
        refine import_ (.refl _) ?_ (by simp [isStarExport, form])
        simp only [isImport, ambient, form, Bool.not_false, Bool.true_and]
    case h_2 p form =>
      cases typeOnly : p.typeOnly with
      | true => exact same (.refl m) (by simp [isImport, form, typeOnly])
      | false =>
        simp only [Bool.false_eq_true, if_false]
        split
        · rename_i kind
          exact import_ (.refl _) (by simp [isImport, ambient, form, typeOnly, kind])
            (by simp [isStarExport, form])
        · rename_i kind
          have other : isImport n = false := by simp [isImport, form, kind]
          split
          · exact same (named _) other
          · exact same (.refl m) other
    case h_3 p form =>
      have added := addExportDeclaration_adds (t := t) (m := m) form
      simpa [isImport, ambient, form, List.filter_cons] using added
    all_goals rename_i form
    case h_4 => split <;> exact same ⟨rfl, rfl⟩ (by simp [isImport, form])
    case h_5 =>
      have other : isImport n = false := by simp [isImport, form]
      split
      · exact same (.refl m) other
      · exact same (named _) other
    case h_6 | h_7 =>
      have other : isImport n = false := by simp [isImport, form]
      split
      · exact same (addFunctionOrClass_sameImports m n _) other
      · exact same (.refl m) other
    case h_8 | h_9 =>
      have other : isImport n = false := by simp [isImport, form]
      split
      · exact same (named _) other
      · exact same (.refl m) other
    case h_10 =>
      rename_i noImport noAlias noExport _ _ _ _ _
      refine same (.refl m) ?_
      rw [isImport, ambient]
      split
      · exact absurd ‹_› (noImport _)
      · exact absurd ‹_› (noAlias _)
      · exact absurd ‹_› (noExport _)
      · rfl

theorem ofFile_imports (root : Node) (t : ScopeTable) :
    (ofFile root t).imports = (((root.statements?).map (·.items)).getD []).filter isImport ∧
      (ofFile root t).hasExportStar =
        ((((root.statements?).map (·.items)).getD []).filter isImport).any isStarExport := by
  have loop (m : ModuleFacts) (items : List Node) :
      m.AddsImports (items.filter isImport) (items.foldl (addStatement t) m) := by
    induction items generalizing m with
    | nil => exact (SameImports.refl m).adds
    | cons n items ih =>
      have first := addStatement_adds t m n
      have rest := ih (addStatement t m n)
      rw [← List.singleton_append, List.filter_append]
      exact ⟨by rw [List.foldl_append, List.foldl_cons, List.foldl_nil, rest.imports, first.imports,
          List.append_assoc],
        by rw [List.foldl_append, List.foldl_cons, List.foldl_nil, rest.star, first.star,
          List.any_append, Bool.or_assoc]⟩
  have whole := loop {} (((root.statements?).map (·.items)).getD [])
  exact ⟨whole.imports, whole.star⟩

end ModuleFacts

end ScriptFrontend
