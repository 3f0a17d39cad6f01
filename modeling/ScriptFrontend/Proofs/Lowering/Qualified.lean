import ScriptFrontend.Output.Emit
import ScriptFrontend.Proofs.Lowering.Replacement
import ScriptFrontend.Proofs.Numbering.File
import ScriptFrontend.Proofs.Scope.Resolution

/-!
# Names that are read as members of objects

A name is read as a member of the object of an enumeration or a namespace only if it stands for a name that is
exported there. The object goes by the name that the declaration has in the tree, so a parameter or a variable of that
name that lies between takes its place.
-/

namespace ScriptFrontend.Lowering

open Made

variable {ledger : Ledger} {root n e : Node}

/-- The declaration fills in an object, which holds what a name stands for. -/
structure IsMemberOf (t : ScopeTable) (n d : Node) (text object : String) : Prop where
  name : n.identifierText? = some text
  /-- The name stands for an exported symbol of its own text in the scope of the declaration. -/
  symbol : ∃ s scope, t.symbol? n = some s ∧ s.name = text ∧ s.isExported = true ∧ t.scopes[s.scope]? = some scope ∧
    Lower.isContainer scope.container = true ∧ scope.container.id = d.id
  fills : FillsObject d object

theorem memberOf?_eq {l : Lowering} {t : ScopeTable} (found : l.memberOf? t n = some e) :
    ∃ text object container, e = member (identifier object) text ∧ n.identifierText? = some text ∧
      t.exporterOf? n false = some container ∧ Lower.isContainer container = true ∧
      l.objectNames[container.id]? = some object := by
  rw [memberOf?] at found
  split at found
  · cases found
  · obtain ⟨container, exporter, found⟩ := Option.bind_eq_some_iff.mp found
    split at found
    · cases found
    · rename_i isContainer
      obtain ⟨object, named, found⟩ := Option.bind_eq_some_iff.mp found
      obtain ⟨text, reads, found⟩ := Option.bind_eq_some_iff.mp found
      cases found
      exact ⟨text, object, container, rfl, reads, exporter, by simpa using isContainer, named⟩

theorem exporterOf?_eq {t : ScopeTable} {container : Node} (found : t.exporterOf? n false = some container) :
    ∃ s scope, t.symbol? n = some s ∧ s.isExported = true ∧ t.scopes[s.scope]? = some scope ∧
      scope.container = container := by
  obtain ⟨s, symbol, found⟩ := Option.bind_eq_some_iff.mp found
  dsimp only at found
  split at found
  · cases found
  · rename_i exported
    obtain ⟨scope, held, found⟩ := Option.bind_eq_some_iff.mp found
    refine ⟨s, scope, symbol, ?_, held, ?_⟩
    · simp only [Bool.or_eq_true, not_or] at exported
      simpa using exported.1
    · split at found <;> cases found <;> rfl

/-- A name in a tree is read as a member of the object of a declaration in the tree that exports what it stands for. -/
theorem memberOf?_found (within : Within ledger root) (kind : root.kind = .sourceFile) (inside : root.Contains n)
    (found : (ofTree root).memberOf? (.ofTree root) n = some e) :
    ∃ d text object, root.Contains d ∧ IsMemberOf (.ofTree root) n d text object ∧
      e = member (identifier object) text := by
  have : ledger.IsPartOf ledger := ⟨fun _ => id⟩
  have statements := Bind.within_statements within
  have fits : (ScopeTable.ofTree root).Fits ledger ledger :=
    ScopeTable.ofTree_fits kind within fun n mem => .inl (statements.of_mem mem)
  obtain ⟨text, object, container, rfl, reads, exporter, isContainer, named⟩ := memberOf?_eq found
  obtain ⟨s, scope, symbol, exported, held, rfl⟩ := exporterOf?_eq exporter
  have closed : ∀ n, root.Contains n → ∀ m ∈ n.children, root.Contains m := fun _ contains _ mem => contains.tail mem
  obtain ⟨d, contains, same, fills⟩ := ofTree_namesFor closed (.refl root) _ _ named
  have isIn : Within ledger n := inside.closed (fun _ _ => Within.child) within
  have isName := fits.name_of_symbol? isIn (Node.nameText?_of_identifierText? reads) symbol
  exact ⟨d, text, object, contains, ⟨reads, ⟨s, scope, symbol, isName, exported, held, isContainer, same.symm⟩, fills⟩,
    rfl⟩

/-- In any file that is read, a name that is read as a member stands for an exported name of an enumeration or a
namespace, and the object goes by the name of that declaration. -/
theorem parsed_file_qualifies (fileName text : String) (target : ScriptTarget) (kind : ScriptKind)
    (setParents : Bool) :
    let l := LoweredFile.ofFile (.parse fileName text target kind setParents)
    ∀ n e, l.file.root.Contains n → l.lowering.memberOf? l.scopes n = some e →
      ∃ d name object, l.file.root.Contains d ∧ IsMemberOf l.scopes n d name object ∧
        e = member (identifier object) name := by
  intro l n e inside found
  obtain ⟨ledger, within⟩ := SourceFile.parse_within fileName text target kind setParents
  exact memberOf?_found within (SourceFile.parse_kind ..) inside found

end ScriptFrontend.Lowering
