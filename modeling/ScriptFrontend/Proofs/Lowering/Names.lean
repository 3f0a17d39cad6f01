import ScriptFrontend.Lowering.File
import ScriptFrontend.Proofs.Tree.Contains
import ScriptFrontend.Proofs.Tree.Names

/-!
# Names in what is lowered

What stands in the place of enumerations and namespaces goes by the names of the tree itself: by those
that the tree declares, and no others. So all names in the lowering of a tree are names of the tree.
-/

namespace ScriptFrontend

variable {A : String → Prop} {n : Node}

open Made

/-! ## Parts of declarations -/

namespace Node

theorem uses_boundNames (declaration n : Node) (h : Uses A n) :
    ∀ p ∈ boundNames declaration n, Uses A p.1 :=
  fun p mem => (contains_boundNames declaration n p mem).1.closed (fun _ _ => Uses.child) h

instance (n : Node) [h : Uses A n] : Uses A n.boundTexts :=
  Uses.list_iff.mpr fun text mem => by
    obtain ⟨p, bound, named⟩ := List.mem_filterMap.mp mem
    exact Uses.name ((uses_boundNames n n h p bound).of_identifierText? named)

instance (n : Node) [h : Uses A n] : Uses A n.declaredText? :=
  Uses.option_iff.mpr fun text found => by
    obtain ⟨name, is, named⟩ := Option.bind_eq_some_iff.mp found
    exact Uses.name ((h.child (mem_children_of_name? is)).of_identifierText? named)

instance (n : Node) [h : Uses A n] : Uses A n.statementVariables := by
  rw [statementVariables]
  split
  · rename_i form
    have parts := h.form form
    split
    · rename_i form'
      simp only [Uses.cons_iff, Uses.ofNode_iff, Uses.ofList?_iff] at parts
      have listed := parts.2.1.form form'
      simp only [Uses.cons_iff, Uses.ofList_iff] at listed
      have := listed.1
      infer_instance
    · infer_instance
  · infer_instance

instance (n : Node) [h : Uses A n] : Uses A n.modifiers? := by
  rw [modifiers?]
  split
  all_goals try infer_instance
  all_goals
    rename_i form
    have parts := h.form form
    simp_all

instance (n : Node) (removed : ModifierFlags) [Uses A n] : Uses A (n.modifiersWithout removed) := by
  have all : Uses A ((n.modifiers?.map (·.items)).getD []) := by
    cases found : n.modifiers? with
    | none => exact Uses.nil_iff.mpr trivial
    | some l =>
      have := Uses.of_some (inferInstance : Uses A n.modifiers?) found
      exact (inferInstance : Uses A l.items)
  rw [modifiersWithout]
  infer_instance

instance (n : Node) (kind : Kind) (name : Option Node) (removed : ModifierFlags) [h : Uses A n]
    [Uses A name] : Uses A (n.copied kind name removed) := by
  rw [copied]
  split
  · rename_i p form
    have parts := h.form form
    simp only [Uses.cons_iff, Uses.ofNode?_iff, Uses.ofList_iff, Uses.ofList?_iff] at parts
    obtain ⟨_, _, _, _, _, _, _, _, _, _, _⟩ := parts
    infer_instance
  · rename_i p form
    have parts := h.form form
    simp only [Uses.cons_iff, Uses.ofNode?_iff, Uses.ofList_iff, Uses.ofList?_iff] at parts
    obtain ⟨_, _, _, _, _, _⟩ := parts
    infer_instance
  · infer_instance

/-- The first name of a dotted name stays, and the others become names of members. -/
theorem uses_entityExpression [Uses A ""] (n : Node) (h : Uses A n) : Uses A n.entityExpression := by
  induction n using entityExpression.induct with
  | case1 head left right docs origin ih =>
    have slots := (Uses.mk_iff.mp h).2.1
    have := ih ((Uses.slot_iff.mp slots.head).of_mem (List.mem_singleton_self _))
    have := (Uses.slot_iff.mp slots.tail.head).of_mem (List.mem_singleton_self right)
    rw [entityExpression]
    infer_instance
  | case2 n other =>
    rw [entityExpression]
    · exact h
    · exact other

instance (n : Node) [Uses A ""] [h : Uses A n] : Uses A n.entityExpression := uses_entityExpression n h

end Node

namespace Lowering

instance : Named Role := ⟨fun role => names role.name ++ names role.owner⟩

instance (n : Node) (place : Place) : Uses A (exportModifier n place) := by
  rw [exportModifier]
  infer_instance

section

variable (role : Role) [h : Uses A role]

instance : Uses A role.name := ⟨(List.forall_mem_append.mp h.uses).1⟩

instance : Uses A role.owner := ⟨(List.forall_mem_append.mp h.uses).2⟩

instance (n : Node) : Uses A (variableOf n role) := by
  rw [variableOf]
  infer_instance

instance (place : Node) [Uses A place] : Uses A (objectAt place) := by
  rw [objectAt]
  infer_instance

instance (body : List Node) [Uses A body] : Uses A (fillingCall role body) := by
  have owned : Uses A role.owner := inferInstance
  rw [fillingCall]
  cases found : role.owner with
  | none => infer_instance
  | some owner =>
    have := owned.of_some found
    infer_instance

instance (n : Node) (body : List Node) [Uses A body] : Uses A (declarationStatements n role body) := by
  rw [declarationStatements]
  infer_instance

end

/-! ## Members -/

section

variable (enumeration : String) [Uses A enumeration]

instance (s : MemberState) : Uses A (followingValue enumeration s).1 := by
  rw [followingValue]
  split <;> infer_instance

instance (name : String) (value : Node) (isString : Bool) [Uses A value] :
    Uses A (memberAssignment enumeration name value isString) := by
  rw [memberAssignment]
  infer_instance

theorem memberStatement_uses {s : MemberState} [h : Uses A n] {p : Node × MemberState}
    (made : memberStatement enumeration s n = some p) : Uses A p.1 := by
  rw [memberStatement] at made
  split at made
  · rename_i name value form
    have parts := h.form form
    simp only [Uses.cons_iff, Uses.ofNode_iff, Uses.ofNode?_iff] at parts
    obtain ⟨text, -, made⟩ := Option.bind_eq_some_iff.mp made
    cases value with
    | none =>
      have : Uses A (followingValue enumeration s).1 := inferInstance
      cases made
      exact (inferInstance : Uses A (expressionStatement
        (memberAssignment enumeration text (followingValue enumeration s).1 false)))
    | some e =>
      have := parts.2.1.of_some rfl
      cases made
      infer_instance
  · cases made

theorem memberStatements_uses (s : MemberState) (members : List Node) (h : Uses A members) :
    Uses A (memberStatements enumeration s members) := by
  induction s, members using memberStatements.induct enumeration with
  | case1 => exact Uses.nil_iff.mpr trivial
  | case2 s n rest statement s' made ih =>
    have := h.head
    have : Uses A statement := memberStatement_uses (A := A) enumeration made
    have := ih h.tail
    rw [memberStatements, made]
    infer_instance
  | case3 s n rest made ih =>
    have := ih h.tail
    rw [memberStatements, made]
    infer_instance

instance (s : MemberState) (members : List Node) [h : Uses A members] :
    Uses A (memberStatements enumeration s members) := memberStatements_uses enumeration s members h

end

section

variable (owner : String) [Uses A owner] (n : Node) [h : Uses A n]

instance (name : String) [Uses A name] : Uses A (memberCopy owner name) := by
  rw [memberCopy]
  infer_instance

instance : Uses A (exportedVariables n owner) := by
  have declared : Uses A n.statementVariables := inferInstance
  rw [exportedVariables]
  generalize made : n.statementVariables.filterMap _ = valued
  have : Uses A valued := made ▸ Uses.list_iff.mpr fun p mem => by
    obtain ⟨v, inside, found⟩ := List.mem_filterMap.mp mem
    split at found
    · rename_i parts form
      have held := (declared.of_mem inside).form form
      simp only [Uses.cons_iff, Uses.ofNode_iff, Uses.ofNode?_iff] at held
      obtain ⟨_, -, -, initial, -⟩ := held
      obtain ⟨value, is, rfl⟩ := Option.map_eq_some_iff.mp found
      have := initial.of_some is
      infer_instance
    · cases found
  dsimp only
  infer_instance

theorem exportedDeclaration?_uses {copied : List Node} (made : exportedDeclaration? n owner = some copied) :
    Uses A copied := by
  rw [exportedDeclaration?] at made
  split at made
  · cases made
  · obtain ⟨name, named, made⟩ := Option.bind_eq_some_iff.mp made
    have := Uses.of_some (inferInstance : Uses A n.declaredText?) named
    cases made
    infer_instance

instance (place : Place) (owner : Option String) [Uses A ""] [owned : Uses A owner] :
    Uses A (aliasStatement n place owner) := by
  rw [aliasStatement]
  split
  · rename_i p form
    have parts := h.form form
    simp only [Uses.cons_iff, Uses.ofNode_iff, Uses.ofList?_iff] at parts
    obtain ⟨_, _, _, -⟩ := parts
    dsimp only
    split
    · rename_i owner name named
      have := owned.of_some rfl
      have : Uses A name := Uses.name (Uses.of_identifierText? inferInstance named)
      infer_instance
    · infer_instance
  · infer_instance

end

/-! ## The search -/

structure OfNames (A : String → Prop) (l : Lowering) : Prop where
  replacements : ∀ (k : Nat) (v : List Node), l.replacements[k]? = some v → Uses A v
  objectNames : ∀ (k : Nat) (name : String), l.objectNames[k]? = some name → Uses A name

variable {l : Lowering}

theorem ofNames_empty : OfNames A {} where
  replacements k v found := by
    change ({} : Std.HashMap Nat (List Node))[k]? = some v at found
    rw [Std.HashMap.getElem?_empty] at found
    cases found
  objectNames k v found := by
    change ({} : Std.HashMap Nat String)[k]? = some v at found
    rw [Std.HashMap.getElem?_empty] at found
    cases found

theorem OfNames.replace (h : OfNames A l) (n : Node) {v : List Node} (uses : Uses A v) :
    OfNames A (l.replace n v) where
  replacements k other found := by
    change (l.replacements.insert n.id v)[k]? = some other at found
    rw [Std.HashMap.getElem?_insert] at found
    split at found
    · cases found
      exact uses
    · exact h.replacements k other found
  objectNames := h.objectNames

theorem OfNames.nameObject (h : OfNames A l) (n : Node) {name : String} (uses : Uses A name) :
    OfNames A (l.nameObject n name) where
  replacements := h.replacements
  objectNames k other found := by
    change (l.objectNames.insert n.id name)[k]? = some other at found
    rw [Std.HashMap.getElem?_insert] at found
    split at found
    · cases found
      exact uses
    · exact h.objectNames k other found

theorem OfNames.replacement? (h : OfNames A l) {v : List Node} (found : l.replacement? n = some v) :
    Uses A v := by
  rw [Lowering.replacement?] at found
  split at found
  · cases found
  · exact h.replacements _ _ found

end Lowering

namespace Lower

open Lowering

instance : Named BodyState := ⟨fun s => names s.out⟩

instance (s : BodyState) [h : Uses A s] : Uses A s.out := ⟨h.uses⟩

instance (s : BodyState) (statements : List Node) [Uses A s] [Uses A statements] :
    Uses A (s.add statements) :=
  ⟨(inferInstance : Uses A (s.out ++ statements)).uses⟩

instance (s : BodyState) (declared : List String) [h : Uses A s] : Uses A (s.declare declared) := ⟨h.uses⟩

/-- A search that makes what it leaves, and what it gives back, of some names only. -/
class Writes (A : String → Prop) {α : Type} [Named α] (x : Lower α) : Prop where
  writes : ∀ {l}, OfNames A l → OfNames A (x l).2 ∧ Uses A (x l).1

namespace Writes

variable {α β : Type} [Named α] [Named β] {x : Lower α} {f : α → Lower β}

instance ofPure (a : α) [uses : Uses A a] : Writes A (pure a : Lower α) := ⟨fun h => ⟨h, uses⟩⟩

instance ofBind [first : Writes A x] [rest : ∀ a : Given A α, Writes A (f a.value)] : Writes A (x >>= f) where
  writes h :=
    have ⟨kept, uses⟩ := first.writes h
    (rest ⟨_, uses⟩).writes kept

theorem then_ (first : Writes A x) (rest : ∀ a : Given A α, Writes A (f a.value)) :
    Writes A (x >>= f) := ofBind

theorem ofForM {as : List Node} {g : Node → Lower Unit} (h : ∀ a ∈ as, Writes A (g a)) :
    Writes A (as.forM g) := by
  induction as with
  | nil => exact ofPure ()
  | cons a as ih =>
    have first := h a (List.mem_cons_self ..)
    have rest := ih fun a mem => h a (List.mem_cons_of_mem _ mem)
    exact ofBind (x := g a) (f := fun _ => as.forM g)

theorem ofOptionForM {o : Option Node} {g : Node → Lower Unit} (h : ∀ a ∈ o, Writes A (g a)) :
    Writes A (o.forM g) := by
  cases o with
  | none => exact ofPure ()
  | some a => exact h a rfl

theorem ofFoldlM {as : List Node} {step : β → Node → Lower β}
    (h : ∀ b : Given A β, ∀ a ∈ as, Writes A (step b.value a))
    {b : β} (uses : Uses A b) : Writes A (as.foldlM step b) := by
  induction as generalizing b with
  | nil => exact ofPure b
  | cons a as ih =>
    have first := h ⟨b, uses⟩ a (List.mem_cons_self ..)
    have rest (b : Given A β) : Writes A (as.foldlM step b.value) :=
      ih (fun b a mem => h b a (List.mem_cons_of_mem _ mem)) b.uses
    rw [List.foldlM_cons]
    exact ofBind (x := step b a)

end Writes

instance (n : Node) (name : String) [uses : Uses A name] :
    Writes A (modify (·.nameObject n name) : Lower Unit) :=
  ⟨fun h => ⟨h.nameObject n uses, inferInstance⟩⟩

instance (n : Node) (v : List Node) [uses : Uses A v] : Writes A (modify (·.replace n v) : Lower Unit) :=
  ⟨fun h => ⟨h.replace n uses, inferInstance⟩⟩

theorem role?_uses {declared : List String} {place : Place} {owner : Option String} {role : Role} [Uses A n]
    [Uses A owner] (found : role? n declared place owner = some role) : Uses A role := by
  rw [role?] at found
  obtain ⟨name, named, found⟩ := Option.bind_eq_some_iff.mp found
  have own := Uses.of_some (inferInstance : Uses A n.declaredText?) named
  split at found
  · cases found
  · cases found
    exact ⟨(inferInstance : Uses A (name, owner)).uses⟩

/-- At a depth, the searches of trees with some names go by those names. -/
structure WritesAt (A : String → Prop) (depth : Nat) : Prop where
  below : ∀ n, Uses A n → Writes A (below depth n)
  statements : ∀ place items, Uses A items → Writes A (statements depth place items)
  declaration : ∀ n s place owner, Uses A n → Uses A s → Uses A owner →
    Writes A (declaration depth n s place owner)
  namespaceDeclaration : ∀ n role, Uses A n → Uses A role → Writes A (namespaceDeclaration depth n role)
  namespaceBody : ∀ items owner, Uses A items → Uses A owner → Writes A (namespaceBody depth items owner)

section

variable {depth : Nat} (ih : WritesAt A depth)
include ih

theorem below_writes (uses : Uses A n) : Writes A (below (depth + 1) n) := by
  rw [below]
  refine .ofForM fun child inside => ?_
  have child_uses := uses.child inside
  split
  · have conditions : Writes A (child.clauseExpression?.forM (below depth)) :=
      .ofOptionForM fun e found =>
        ih.below e (child_uses.child (Node.mem_children_of_clauseExpression? found))
    refine .then_ conditions fun _ => ?_
    split
    · rename_i l found
      exact ih.statements _ _ (Uses.list_iff.mpr fun m mem =>
        child_uses.child (Node.mem_children_of_statements? found mem))
    · exact ih.below child child_uses
  · exact .ofPure ()

theorem statements_writes [Uses A ""] {place : Place} {items : List Node} (uses : Uses A items) :
    Writes A (statements (depth + 1) place items) := by
  rw [statements]
  refine .then_ (.ofFoldlM (fun s n mem => ?_) ⟨List.forall_mem_nil _⟩) fun _ => .ofPure ()
  have n_uses := uses.of_mem mem
  split
  · refine .then_ (ih.declaration n s.value place none n_uses s.uses inferInstance) fun s => ?_
    have : Uses A ({ s.value with out := [] } : BodyState) := ⟨List.forall_mem_nil _⟩
    infer_instance
  · split
    · infer_instance
    · have := ih.below n n_uses
      infer_instance

theorem declaration_writes {s : BodyState} {place : Place} {owner : Option String} (uses : Uses A n)
    (kept : Uses A s) (owned : Uses A owner) : Writes A (declaration (depth + 1) n s place owner) := by
  rw [declaration]
  split
  · exact .ofPure s
  · rename_i role found
    have role_uses : Uses A role := role?_uses found
    have inner := ih.namespaceDeclaration n role uses role_uses
    dsimp only
    split
    · rename_i members form
      have parts := uses.form form
      simp only [Uses.cons_iff, Uses.ofList_iff] at parts
      have := parts.2.2.1
      infer_instance
    · infer_instance

theorem namespaceDeclaration_writes {role : Role} (uses : Uses A n) (role_uses : Uses A role) :
    Writes A (namespaceDeclaration (depth + 1) n role) := by
  rw [namespaceDeclaration]
  refine .then_ inferInstance fun _ => ?_
  dsimp only
  split
  · infer_instance
  · rename_i inner found
    have inner_uses := uses.child (Node.mem_children_of_body? found)
    split
    · rename_i name _ named
      have := Uses.of_some (inferInstance : Uses A inner.declaredText?) named
      have : Uses A (⟨name, true, .inside, some role.name⟩ : Role) :=
        ⟨(inferInstance : Uses A (name, some role.name)).uses⟩
      have := ih.namespaceDeclaration inner ⟨name, true, .inside, some role.name⟩ inner_uses this
      infer_instance
    · infer_instance
    · split
      · rename_i l held
        have items_uses : Uses A l.items := Uses.list_iff.mpr fun m mem =>
          inner_uses.child (Node.mem_children_of_statements? held mem)
        have := ih.namespaceBody l.items role.name items_uses inferInstance
        infer_instance
      · infer_instance

theorem namespaceBody_writes [Uses A ""] {items : List Node} {owner : String} (uses : Uses A items)
    (owned : Uses A owner) : Writes A (namespaceBody (depth + 1) items owner) := by
  rw [namespaceBody]
  refine .then_ (.ofFoldlM (fun s n mem => ?_) ⟨List.forall_mem_nil _⟩) fun s => .ofPure s.value.out
  have n_uses := uses.of_mem mem
  have searched := ih.below n n_uses
  have exporter : Uses A (if n.isExported then some owner else none) := inferInstance
  dsimp only
  split
  · exact ih.declaration _ _ _ _ n_uses s.uses exporter
  · repeat' split
    all_goals try infer_instance
    rename_i copied made
    have : Uses A copied := exportedDeclaration?_uses owner n made
    infer_instance

end

theorem writesAt [Uses A ""] (depth : Nat) : WritesAt A depth := by
  induction depth with
  | zero =>
    exact ⟨fun _ _ => .ofPure (), fun _ _ _ => .ofPure (), fun _ s _ _ _ _ _ => .ofPure s,
      fun _ _ _ _ => .ofPure [], fun _ _ _ _ => .ofPure []⟩
  | succ depth ih =>
    exact ⟨fun _ uses => below_writes ih uses, fun _ _ uses => statements_writes ih uses,
      fun _ _ _ _ uses kept owned => declaration_writes ih uses kept owned,
      fun _ _ uses role => namespaceDeclaration_writes ih uses role,
      fun _ _ uses owned => namespaceBody_writes ih uses owned⟩

end Lower

namespace Lowering

theorem ofTree_ofNames [Uses A ""] {root : Node} (uses : Uses A root) : OfNames A (ofTree root) := by
  refine (((Lower.writesAt _).statements _ _ (Uses.list_iff.mpr fun n inside => ?_)).writes ofNames_empty).1
  cases held : root.statements? with
  | none => simp [held] at inside
  | some l =>
    rw [held] at inside
    exact uses.child (Node.mem_children_of_statements? held inside)

end Lowering

end ScriptFrontend
