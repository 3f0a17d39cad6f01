import ScriptFrontend.Lowering.File
import ScriptFrontend.Proofs.Lowering.Replacement

/-!
# A namespace alone

What a namespace becomes does not depend on what else was lowered before it. One that stands alone and
holds only an exported function becomes a function with a copy of that function in it, and a statement
that makes the copy a member of the object of the namespace.
-/

namespace ScriptFrontend.Lower

open Lowering

variable {n f : Node} {name owner : String} {depth : Nat} {l : Lowering}

/-! ## Exported functions -/

structure IsExportedFunction (f : Node) (name : String) : Prop where
  kind : f.kind = .functionDeclaration
  shape : f.shape = .functionLike
  exported : f.isExported = true
  present : f.isAmbient = false
  named : f.declaredText? = some name
  bodied : f.body?.isSome = true

instance (f : Node) (name : String) : Decidable (IsExportedFunction f name) :=
  decidable_of_iff (f.kind = .functionDeclaration ∧ f.shape = .functionLike ∧ f.isExported = true ∧
      f.isAmbient = false ∧ f.declaredText? = some name ∧ f.body?.isSome = true)
    ⟨fun ⟨a, b, c, d, e, g⟩ => ⟨a, b, c, d, e, g⟩, fun ⟨a, b, c, d, e, g⟩ => ⟨a, b, c, d, e, g⟩⟩

def exportedCopy (f : Node) : Node :=
  f.copied f.kind f.name? (ModifierFlags.isExported ||| ModifierFlags.isDefault)

namespace IsExportedFunction

variable (h : IsExportedFunction f name)
include h

theorem form_eq : ∃ p, f.form = .functionLike p := by
  have bodied := h.bodied
  rw [Node.body?] at bodied
  split at bodied
  · exact ⟨_, ‹_›⟩
  · rename_i form
    cases h.shape.symm.trans (Node.shape_of_form form rfl)
  · rename_i form
    cases h.shape.symm.trans (Node.shape_of_form form rfl)
  · cases bodied

theorem exportedCopy_eq : (exportedCopy f).kind = .functionDeclaration ∧ (exportedCopy f).origin = some f ∧
    (exportedCopy f).declaredText? = some name := by
  obtain ⟨p, form⟩ := h.form_eq
  obtain ⟨own, found, text⟩ := Option.bind_eq_some_iff.mp h.named
  rw [exportedCopy, Node.copied, form, h.kind, found]
  exact ⟨rfl, rfl, text⟩

theorem namespaceBody_eq :
    (namespaceBody (depth + 1) [f] owner l).1 = [exportedCopy f, memberCopy owner name] := by
  have copied : exportedDeclaration? f owner = some [exportedCopy f, memberCopy owner name] := by
    have bodied : f.body?.isNone = false := by simpa using h.bodied
    rw [exportedDeclaration?, bodied, h.named, Bool.and_false]
    rfl
  have container : isContainer f = false := by simp [isContainer, h.kind]
  have other : f.isInnerAlias = false := by
    obtain ⟨p, form⟩ := h.form_eq
    rw [Node.isInnerAlias, form]
  rw [namespaceBody]
  simp only [List.foldlM_cons, List.foldlM_nil, container, other, h.kind, h.exported, h.present, copied]
  rfl

end IsExportedFunction

/-! ## Namespaces -/

/-- A namespace that is there at run time, whose body is no other namespace. -/
structure IsNamespace (n : Node) (name : String) : Prop where
  kind : n.kind = .moduleDeclaration
  shape : n.shape = .module
  present : n.isAmbient = false
  instantiated : n.isInstantiated = true
  named : n.declaredText? = some name
  plain : n.body?.map Node.shape ≠ some .module

instance (n : Node) (name : String) : Decidable (IsNamespace n name) :=
  decidable_of_iff (n.kind = .moduleDeclaration ∧ n.shape = .module ∧ n.isAmbient = false ∧
      n.isInstantiated = true ∧ n.declaredText? = some name ∧ n.body?.map Node.shape ≠ some .module)
    ⟨fun ⟨a, b, c, d, e, g⟩ => ⟨a, b, c, d, e, g⟩, fun ⟨a, b, c, d, e, g⟩ => ⟨a, b, c, d, e, g⟩⟩

def bodyItems (n : Node) : List Node := ((n.body?.bind Node.statements?).map (·.items)).getD []

namespace IsNamespace

variable (h : IsNamespace n name)
include h

theorem isContainer_eq : isContainer n = true := by simp [isContainer, h.kind]

theorem namespaceDeclaration_eq (depth : Nat) (l : Lowering) (role : Role) :
    ∃ l', (namespaceDeclaration (depth + 2) n role l).1 =
    declarationStatements n role (namespaceBody (depth + 1) (bodyItems n) role.name l').1 := by
  have plain := h.plain
  refine ⟨l.nameObject n role.name, ?_⟩
  rw [namespaceDeclaration, bodyItems]
  cases body : n.body? with
  | none => rfl
  | some inner =>
    rw [body] at plain
    dsimp only
    split
    · rename_i shape _
      exact absurd (congrArg some shape) plain
    · rename_i shape _
      exact absurd (congrArg some shape) plain
    · rw [Option.bind_some]
      cases inner.statements? <;> rfl

theorem declaration_out (depth : Nat) (l : Lowering) (s : BodyState) (place : Place) (owner : Option String) :
    ∃ l', (declaration (depth + 3) n s place owner l).1.out = s.out ++
      declarationStatements n ⟨name, !s.declared.contains name, place, owner⟩
        (namespaceBody (depth + 1) (bodyItems n) name l').1 := by
  have role : role? n s.declared place owner = some ⟨name, !s.declared.contains name, place, owner⟩ := by
    rw [role?, h.named, h.present, h.instantiated]
    simp
  obtain ⟨l', made⟩ := h.namespaceDeclaration_eq depth l
    ⟨name, !s.declared.contains name, place, owner⟩
  refine ⟨l', ?_⟩
  rw [declaration, role, ← made]
  cases form : n.form
  case enumeration => cases h.shape.symm.trans (Node.shape_of_form form rfl)
  all_goals rfl

theorem ofTree_replacement? {root : Node} (parsed : n.isSynthesized = false)
    (alone : ((root.statements?).map (·.items)).getD [] = [n]) :
    ∃ l' depth, (ofTree root).replacement? n =
      some (declarationStatements n ⟨name, true, .file, none⟩
        (namespaceBody (depth + 1) (bodyItems n) name l').1) := by
  have functions : Node.functionTexts [n] = [] := by simp [Node.functionTexts, h.kind]
  obtain ⟨l', out⟩ := h.declaration_out (2 * root.height) {} { declared := [] } .file none
  refine ⟨l', 2 * root.height, ?_⟩
  rw [ofTree, alone, statements, functions, List.foldlM_cons, h.isContainer_eq]
  change ((declaration (2 * root.height + 3) n { declared := [] } .file none {}).2.replace n
    (declaration (2 * root.height + 3) n { declared := [] } .file none {}).1.out).replacement? n = _
  rw [out, replacement?, parsed, replace]
  exact Std.HashMap.getElem?_insert_self

end IsNamespace

end ScriptFrontend.Lower
