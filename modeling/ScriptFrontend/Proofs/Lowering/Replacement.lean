import ScriptFrontend.Lowering.File
import ScriptFrontend.Proofs.Tree.Form

/-!
# What stands in the place of a statement

The search of a tree goes down to children. It puts something in the place of a node only where that
is an enumeration, a namespace or a name for a part of a module, and then what that becomes. It names
an object only for an enumeration or a namespace, by the name that this declares.
-/

namespace ScriptFrontend.Lowering

inductive StandsFor (n : Node) : List Node → Prop where
  | nothing (container : Lower.isContainer n = true) : StandsFor n []
  | declaration (container : Lower.isContainer n = true) (role : Role) (body : List Node) :
      StandsFor n (declarationStatements n role body)
  | innerAlias (inner : n.isInnerAlias = true) (place : Place) : StandsFor n [aliasStatement n place none]

theorem origin_withOrigin (n original : Node) : (n.withOrigin original).origin = some original := by
  cases n
  rfl

theorem variableOf_origin {n m : Node} {role : Role} (from_ : (variableOf n role).origin = some m) :
    m = n := by
  rw [variableOf] at from_
  split at from_ <;> exact (Option.some.inj from_).symm

theorem aliasStatement_origin {n m : Node} {place : Place} {owner : Option String}
    (from_ : (aliasStatement n place owner).origin = some m) : m = n := by
  rw [aliasStatement] at from_
  split at from_ <;> exact (Option.some.inj ((origin_withOrigin _ n).symm.trans from_)).symm

theorem StandsFor.origin {n m part : Node} {v : List Node} (stands : StandsFor n v) (mem : part ∈ v)
    (from_ : part.origin = some m) : m = n := by
  cases stands with
  | nothing => cases mem
  | declaration container role body =>
    rcases List.mem_cons.mp mem with rfl | mem
    · exact variableOf_origin from_
    rcases List.mem_cons.mp mem with rfl | mem
    · cases from_
    · cases List.mem_singleton.mp mem
      exact (Option.some.inj from_).symm
  | innerAlias inner place =>
    cases List.mem_singleton.mp mem
    exact aliasStatement_origin from_

/-- Whatever stands in the place of a node was made for one of the given nodes. -/
def MadeFor (given : Node → Prop) (l : Lowering) : Prop :=
  ∀ (k : Nat) (v : List Node), l.replacements[k]? = some v → ∃ n, given n ∧ n.id = k ∧ StandsFor n v

variable {given : Node → Prop} {n : Node} {l : Lowering}

theorem MadeFor.replace (h : MadeFor given l) (mem : given n) {v : List Node} (stands : StandsFor n v) :
    MadeFor given (l.replace n v) := by
  intro k other found
  change (l.replacements.insert n.id v)[k]? = some other at found
  rw [Std.HashMap.getElem?_insert] at found
  split at found
  · rename_i same
    cases found
    exact ⟨n, mem, eq_of_beq same, stands⟩
  · exact h k other found

theorem madeFor_empty : MadeFor given {} := by
  intro k v found
  change ({} : Std.HashMap Nat (List Node))[k]? = some v at found
  rw [Std.HashMap.getElem?_empty] at found
  cases found

/-- An enumeration or a namespace, which may be the only part of another one, with a name. -/
structure FillsObject (n : Node) (name : String) : Prop where
  isContainer : Lower.isContainer n = true ∨ n.shape = .module
  declared : n.declaredText? = some name

def NamesFor (given : Node → Prop) (l : Lowering) : Prop :=
  ∀ (k : Nat) (name : String), l.objectNames[k]? = some name → ∃ n, given n ∧ n.id = k ∧ FillsObject n name

theorem NamesFor.nameObject (h : NamesFor given l) (mem : given n) {name : String} (fills : FillsObject n name) :
    NamesFor given (l.nameObject n name) := by
  intro k other found
  change (l.objectNames.insert n.id name)[k]? = some other at found
  rw [Std.HashMap.getElem?_insert] at found
  split at found
  · rename_i same
    cases found
    exact ⟨n, mem, eq_of_beq same, fills⟩
  · exact h k other found

theorem namesFor_empty : NamesFor given {} := by
  intro k name found
  change ({} : Std.HashMap Nat String)[k]? = some name at found
  rw [Std.HashMap.getElem?_empty] at found
  cases found

/-- A condition that stays true when something is put in the place of a given node or names the object of one. -/
class IsKept (given : Node → Prop) (I : Lowering → Prop) : Prop where
  replace : ∀ {l n v}, given n → StandsFor n v → I l → I (l.replace n v)
  nameObject : ∀ {l n name}, given n → FillsObject n name → I l → I (l.nameObject n name)

instance : IsKept given (MadeFor given) where
  replace mem stands h := h.replace mem stands
  nameObject _ _ h := h

instance : IsKept given (NamesFor given) where
  replace _ _ h := h
  nameObject mem fills h := h.nameObject mem fills

/-- What a search gives back meets a condition. -/
def Yields {α : Type} (P : α → Prop) (x : Lower α) : Prop := ∀ l, P (x l).1

namespace Yields

variable {α β : Type} {P : β → Prop} {R : α → Prop} {x : Lower α} {f : α → Lower β}

theorem pure {b : β} (h : P b) : Yields P (Pure.pure b) := fun _ => h

theorem bind (hx : Yields R x) (hf : ∀ a, R a → Yields P (f a)) : Yields P (x >>= f) :=
  fun l => hf _ (hx l) (x l).2

theorem then_ (h : ∀ a, Yields P (f a)) : Yields P (x >>= f) := fun l => h _ (x l).2

end Yields

/-- The search leaves a condition true. -/
class Keeps (I : Lowering → Prop) {α : Type} (x : Lower α) : Prop where
  keeps : ∀ {l}, I l → I (x l).2

namespace Keeps

variable {I : Lowering → Prop} {α β : Type} {x : Lower α} {f : α → Lower β}

instance ofPure (a : α) : Keeps I (pure a : Lower α) := ⟨id⟩

instance ofBind [hx : Keeps I x] [hf : ∀ a, Keeps I (f a)] : Keeps I (x >>= f) where
  keeps h := (hf _).keeps (hx.keeps h)

theorem then_ (hx : Keeps I x) (hf : ∀ a, Keeps I (f a)) : Keeps I (x >>= f) := ofBind

theorem ofForM {as : List Node} {g : Node → Lower PUnit} (h : ∀ a ∈ as, Keeps I (g a)) :
    Keeps I (as.forM g) := by
  induction as with
  | nil => exact ofPure _
  | cons a as ih =>
    have first := h a (List.mem_cons_self ..)
    have rest := ih fun a mem => h a (List.mem_cons_of_mem _ mem)
    exact ofBind (x := g a) (f := fun _ => as.forM g)

theorem ofOptionForM {o : Option Node} {g : Node → Lower PUnit} (h : ∀ a ∈ o, Keeps I (g a)) :
    Keeps I (o.forM g) := by
  cases o with
  | none => exact ofPure _
  | some a => exact h a rfl

/-- A fold over some nodes whose steps need something of what was folded so far. -/
theorem ofFoldlM {as : List Node} {step : β → Node → Lower β} (Inv : β → Prop)
    (h : ∀ b, Inv b → ∀ a ∈ as, Keeps I (step b a) ∧ Yields Inv (step b a)) {b : β}
    (init : Inv b) :
    Keeps I (as.foldlM step b) := by
  induction as generalizing b with
  | nil => exact ofPure b
  | cons a as ih =>
    obtain ⟨first, next⟩ := h b init a (List.mem_cons_self ..)
    have rest := fun b inv => ih (b := b) (fun b inv a mem => h b inv a (List.mem_cons_of_mem _ mem)) inv
    rw [List.foldlM_cons]
    exact ⟨fun made => (rest _ (next _)).keeps (first.keeps made)⟩

end Keeps

end ScriptFrontend.Lowering

namespace ScriptFrontend.Lower

open Lowering

variable {given : Node → Prop} {I : Lowering → Prop} [IsKept given I] {n : Node}

theorem nameObject_keeps (mem : given n) {name : String} (fills : FillsObject n name) :
    Keeps I (modify (·.nameObject n name) : Lower PUnit) := ⟨IsKept.nameObject mem fills⟩

theorem replace_keeps (mem : given n) {v : List Node} (stands : StandsFor n v) :
    Keeps I (modify (·.replace n v) : Lower PUnit) := ⟨IsKept.replace mem stands⟩

theorem declaredText?_of_role? {declared : List String} {place : Place} {owner : Option String} {role : Role}
    (found : role? n declared place owner = some role) : n.declaredText? = some role.name := by
  obtain ⟨name, isName, found⟩ := Option.bind_eq_some_iff.mp found
  split at found
  · cases found
  · cases found
    exact isName

theorem namespaceDeclaration_succ_yields (depth : Nat) (n : Node) (role : Role) :
    Yields (fun v => ∃ body, v = declarationStatements n role body) (namespaceDeclaration (depth + 1) n role) := by
  have made (body : List Node) :
      Yields (fun v => ∃ body, v = declarationStatements n role body)
        (pure (declarationStatements n role body)) := .pure ⟨body, rfl⟩
  rw [namespaceDeclaration]
  refine .then_ fun _ => ?_
  dsimp only
  repeat' split
  all_goals exact .then_ fun body => made body

/-- What a namespace becomes, unless the search ends above it. -/
theorem namespaceDeclaration_yields (depth : Nat) (n : Node) (role : Role) :
    Yields (fun v => v = [] ∨ ∃ body, v = declarationStatements n role body)
      (namespaceDeclaration depth n role) := by
  cases depth with
  | zero => exact .pure (.inl rfl)
  | succ depth => exact fun l => .inr (namespaceDeclaration_succ_yields depth n role l)

/-- To the statements made so far are added those that a declaration becomes, or none. -/
theorem declaration_yields (depth : Nat) (n : Node) (s : BodyState) (place : Place)
    (owner : Option String) :
    Yields (fun t => t.out = s.out ∨ ∃ role body, t.out = s.out ++ declarationStatements n role body)
      (declaration depth n s place owner) := by
  cases depth with
  | zero => exact .pure (.inl rfl)
  | succ depth =>
    rw [declaration]
    split
    · exact .pure (.inl rfl)
    · rename_i role _
      dsimp only
      split
      · exact .then_ fun _ => .pure (.inr ⟨role, _, rfl⟩)
      · refine .bind (namespaceDeclaration_yields depth n role) fun v made => .pure ?_
        rcases made with rfl | ⟨body, rfl⟩
        · exact .inl (List.append_nil _)
        · exact .inr ⟨role, body, rfl⟩

/-- At a depth, the searches of given nodes leave a condition true. -/
structure Search (given : Node → Prop) (I : Lowering → Prop) (depth : Nat) : Prop where
  below : ∀ n, given n → Keeps I (below depth n)
  statements : ∀ place items, (∀ n ∈ items, given n) → Keeps I (statements depth place items)
  declaration : ∀ n s place owner, given n → isContainer n = true → Keeps I (declaration depth n s place owner)
  namespaceDeclaration : ∀ n role, given n → FillsObject n role.name → Keeps I (namespaceDeclaration depth n role)
  namespaceBody : ∀ items owner, (∀ n ∈ items, given n) → Keeps I (namespaceBody depth items owner)

section

variable {depth : Nat} (ih : Search given I depth)
include ih

omit [IsKept given I] in
theorem below_keeps (closed : ∀ n, given n → ∀ m ∈ n.children, given m) (mem : given n) :
    Keeps I (below (depth + 1) n) := by
  rw [below]
  refine .ofForM fun child inside => ?_
  have child_given := closed n mem child inside
  split
  · have clause : Keeps I (child.clauseExpression?.forM (below depth)) :=
      .ofOptionForM fun e found =>
        ih.below e (closed child child_given e (Node.mem_children_of_clauseExpression? found))
    refine .then_ clause fun _ => ?_
    split
    · rename_i l found
      exact ih.statements _ _ fun m mem =>
        closed child child_given m (Node.mem_children_of_statements? found mem)
    · exact ih.below child child_given
  · exact .ofPure _

theorem statements_keeps {place : Place} {items : List Node} (mem : ∀ n ∈ items, given n) :
    Keeps I (statements (depth + 1) place items) := by
  rw [statements]
  refine .then_ (.ofFoldlM (·.out = []) (fun s empty n inside => ?_) rfl) fun _ => .ofPure _
  have inside := mem n inside
  split
  · rename_i container
    refine ⟨⟨fun {l} made => ?_⟩, fun l => rfl⟩
    refine IsKept.replace inside ?_ ((ih.declaration n s place none inside container).keeps made)
    rcases declaration_yields depth n s place none l with same | ⟨role, body, added⟩
    · exact (same.trans empty) ▸ .nothing container
    · rw [empty, List.nil_append] at added
      exact added ▸ .declaration container role body
  · split
    · rename_i inner
      have := replace_keeps (I := I) inside (.innerAlias inner place)
      exact ⟨.ofBind, fun _ => empty⟩
    · have := ih.below n inside
      exact ⟨.ofBind, fun _ => empty⟩

theorem declaration_keeps {s : BodyState} {place : Place} {owner : Option String} (mem : given n)
    (container : isContainer n = true) : Keeps I (declaration (depth + 1) n s place owner) := by
  rw [declaration]
  split
  · exact .ofPure _
  · rename_i role found
    have fills : FillsObject n role.name := ⟨.inl container, declaredText?_of_role? found⟩
    have inner := ih.namespaceDeclaration n role mem fills
    have named := nameObject_keeps (I := I) mem fills
    dsimp only
    split <;> exact .ofBind

theorem namespaceDeclaration_keeps (closed : ∀ n, given n → ∀ m ∈ n.children, given m) {role : Role}
    (mem : given n) (fills : FillsObject n role.name) : Keeps I (namespaceDeclaration (depth + 1) n role) := by
  rw [namespaceDeclaration]
  have named := nameObject_keeps (I := I) mem fills
  refine .then_ named fun _ => ?_
  dsimp only
  split
  · exact .then_ (.ofPure _) fun _ => .ofPure _
  · rename_i inner found
    have inner_given := closed n mem inner (Node.mem_children_of_body? found)
    split
    · rename_i name isModule isName
      exact .then_ (ih.namespaceDeclaration _ _ inner_given ⟨.inr isModule, isName⟩) fun _ => .ofPure _
    · exact .then_ (.ofPure _) fun _ => .ofPure _
    · split
      · rename_i l held
        have items_given (m : Node) (inside : m ∈ l.items) : given m :=
          closed inner inner_given m (Node.mem_children_of_statements? held inside)
        exact .then_ (ih.namespaceBody _ _ items_given) fun _ => .ofPure _
      · exact .then_ (.ofPure _) fun _ => .ofPure _

omit [IsKept given I] in
theorem namespaceBody_keeps {items : List Node} {owner : String} (mem : ∀ n ∈ items, given n) :
    Keeps I (namespaceBody (depth + 1) items owner) := by
  rw [namespaceBody]
  refine .then_
    (.ofFoldlM (fun _ => True) (fun s _ n inside => ⟨?_, fun _ => trivial⟩) trivial) fun _ =>
    .ofPure _
  have searched := ih.below n (mem n inside)
  dsimp only
  split
  · exact ih.declaration _ _ _ _ (mem n inside) ‹_›
  · repeat' split
    all_goals infer_instance

end

/-- Searching below given nodes that all lead to given nodes leaves a condition true. -/
theorem search (closed : ∀ n, given n → ∀ m ∈ n.children, given m) (depth : Nat) :
    Search given I depth := by
  induction depth with
  | zero =>
    exact ⟨fun _ _ => .ofPure _, fun _ _ _ => .ofPure _, fun _ _ _ _ _ _ => .ofPure _,
      fun _ _ _ _ => .ofPure _, fun _ _ _ => .ofPure _⟩
  | succ depth ih =>
    exact ⟨fun _ mem => below_keeps ih closed mem, fun _ _ mem => statements_keeps ih mem,
      fun _ _ _ _ mem container => declaration_keeps ih mem container,
      fun _ _ mem fills => namespaceDeclaration_keeps ih closed mem fills,
      fun _ _ mem => namespaceBody_keeps ih mem⟩

end ScriptFrontend.Lower

namespace ScriptFrontend.Lowering

variable {given : Node → Prop} {root : Node}

/-- What is true of no lowering yet, and stays true, is true of the lowering of a tree. -/
theorem ofTree_kept {I : Lowering → Prop} [IsKept given I] (closed : ∀ n, given n → ∀ m ∈ n.children, given m)
    (mem : given root) (start : I {}) : I (ofTree root) := by
  have searches (depth : Nat) : Lower.Search given I depth := Lower.search closed depth
  refine ((searches _).statements _ _ fun n inside => ?_).keeps start
  cases held : root.statements? with
  | none => simp [held] at inside
  | some l =>
    rw [held] at inside
    exact closed root mem n (Node.mem_children_of_statements? held inside)

theorem ofTree_madeFor (closed : ∀ n, given n → ∀ m ∈ n.children, given m) (mem : given root) :
    MadeFor given (ofTree root) := ofTree_kept closed mem madeFor_empty

theorem ofTree_namesFor (closed : ∀ n, given n → ∀ m ∈ n.children, given m) (mem : given root) :
    NamesFor given (ofTree root) := ofTree_kept closed mem namesFor_empty

end ScriptFrontend.Lowering
