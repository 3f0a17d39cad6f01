import ScriptFrontend.Proofs.Lowering.Names
import ScriptFrontend.Proofs.Lowering.Replacement
import ScriptFrontend.Proofs.Name.Supply
import ScriptFrontend.Proofs.Registration.State

/-!
# Names in the body of a registered module

What is made of the statements of a module goes by the names in them, by the names that the registered
form was given for itself, and by those that were drawn on the way. Names are drawn from the one supply
of the module, so that none is drawn twice.
-/

namespace ScriptFrontend.Registration

open Made

variable {A : String → Prop} {n : Node} {c : Context} {s t : State}

/-! ## Drawn names -/

def State.Draws (s t : State) : Prop := ∃ given, s.names.Gives given t.names

instance : Stable State.Draws where
  refl s := ⟨[], .done s.names⟩
  trans _ _ _ := fun ⟨_, h⟩ ⟨_, h'⟩ => ⟨_, h.append h'⟩
  unique s base := ⟨_, .of_unique s.names base⟩
  temporary s := ⟨_, .of_temporary s.names⟩
  hoist s name := by
    split
    · exact ⟨[], .done s.names⟩
    · exact ⟨[], .done s.names⟩

theorem State.Draws.of_eq (same : t.names = s.names) : s.Draws t := ⟨[], same ▸ .done s.names⟩

theorem State.Draws.mono (h : s.Draws t) {name : String} (mem : name ∈ s.names.used) : name ∈ t.names.used :=
  have ⟨_, gives⟩ := h
  (gives.row.mem_used name).mpr (.inr mem)

def putInFront (statements : List Node) : Register Unit :=
  modify fun s => { s with functions := s.functions ++ statements }

def holdFor (n : Node) (exports : List Node) : Register Unit :=
  modify fun s => { s with deferred := hold n exports s.deferred }

instance (statements : List Node) : Keeps State.Draws (putInFront statements) := .ofModify fun _ => .of_eq rfl

instance (n : Node) (exports : List Node) : Keeps State.Draws (holdFor n exports) :=
  .ofModify fun _ => .of_eq rfl

theorem hoistFunction_eq (n : Node) : hoistFunction n =
    if n.body?.isNone then pure () else (do
      let c ← read
      let name ← localOf n
      putInFront (n.copied .functionDeclaration (some (n.name?.getD (identifier name)))
        (ModifierFlags.isExported ||| ModifierFlags.isDefault) :: exportsOf c n name)) := rfl

theorem deferExports_eq (n : Node) : deferExports n = (do
    let c ← read
    n.declaredText?.forM fun name => holdFor n (declarationExports c n name)) := rfl

instance (n : Node) : Keeps State.Draws (hoistFunction n) := by
  rw [hoistFunction_eq]
  infer_instance

instance (n : Node) : Keeps State.Draws (deferExports n) := by
  rw [deferExports_eq]
  infer_instance

instance (n : Node) : Keeps State.Draws (release n) := .ofModifyGet fun _ => .of_eq rfl

/-- The names that were drawn between two states are among some names. -/
def State.DrawsOnly (A : String → Prop) (s t : State) : Prop :=
  ∀ name, name ∉ s.names.used → name ∈ t.names.used → A name

/-! ## What a context and a state refer to -/

/-- The names that a registered form was given for itself are among some names. -/
class Context.OfNames (A : String → Prop) (c : Context) : Prop where
  exporter : Uses A c.exporter
  context : Uses A c.context
  locals : ∀ (k : Nat) (name : String), c.locals[k]? = some name → Uses A name
  bindings : ∀ (k : Nat) (name : String), c.bindings[k]? = some name → Uses A name
  lowering : c.lowering.OfNames A
  made : c.lowering.MadeFor (Uses A)

structure GivenContext (A : String → Prop) where
  value : Context
  ofNames : value.OfNames A

instance (c : GivenContext A) : c.value.OfNames A := c.ofNames

/-- What stands in front of the body and what is held is made of some names. -/
structure State.OfNames (A : String → Prop) (s : State) : Prop where
  hoisted : Uses A s.hoisted
  functions : Uses A s.functions
  deferred : ∀ p ∈ s.deferred, Uses A p.2

section

variable [fits : c.OfNames A]

instance (n : Node) : Uses A (c.local? n) := by
  rw [Context.local?]
  split
  · infer_instance
  · exact Uses.option_iff.mpr fun name found => fits.locals _ name found

instance (n : Node) [Uses A n] : Uses A (expand c n) := by
  rw [expand]
  cases found : c.lowering.replacement? n with
  | none => exact (inferInstance : Uses A [n])
  | some v => exact fits.lowering.replacement? found

/-- What stands in the place of a node that was read stands for no other nodes than such with given
names. -/
theorem origin_uses {part : Node} (parsed : n.origin = none) (mem : part ∈ expand c n) :
    Uses A part.origin := by
  refine Uses.option_iff.mpr fun m from_ => ?_
  rw [expand, Lowering.replacement?] at mem
  have itself (same : part ∈ [n]) : Uses A m := by
    rw [List.mem_singleton.mp same, parsed] at from_
    cases from_
  split at mem
  · exact itself mem
  · cases found : c.lowering.replacements[n.id]? with
    | none =>
      rw [found] at mem
      exact itself mem
    | some v =>
      rw [found] at mem
      obtain ⟨declaration, uses, -, stands⟩ := fits.made _ _ found
      exact stands.origin mem from_ ▸ uses

instance (name : String) (value : Node) [Uses A value] : Uses A (exportCall c name value) := by
  have := fits.exporter
  rw [exportCall]
  infer_instance

instance (name : String) (value : Node) [Uses A value] : Uses A (exportStatement c name value) := by
  rw [exportStatement]
  infer_instance

end

theorem hold_uses {exports : List Node} {held : List (Node × List Node)} (added : Uses A exports)
    (h : ∀ p ∈ held, Uses A p.2) : ∀ p ∈ hold n exports held, Uses A p.2 := by
  induction held with
  | nil =>
    rw [hold]
    exact List.forall_mem_singleton.mpr added
  | cons first rest ih =>
    obtain ⟨m, old⟩ := first
    obtain ⟨_, later⟩ := List.forall_mem_cons.mp h
    rw [hold]
    split
    · exact List.forall_mem_cons.mpr ⟨inferInstance, later⟩
    · exact List.forall_mem_cons.mpr ⟨‹_›, ih later⟩

/-! ## Computations -/

/-- A computation that goes by some names: what it leaves and what it gives back is made of them, if
the names that it draws are among them. -/
class Writes (A : String → Prop) {α : Type} [Named α] (x : Register α) : Prop where
  writes : ∀ {c s}, c.OfNames A → s.OfNames A → s.DrawsOnly A (x c s).2 →
    (x c s).2.OfNames A ∧ Uses A (x c s).1

namespace Writes

variable {α β γ : Type} [Named α] [Named β] {x : Register α} {f : α → Register β}

instance ofPure (a : α) [uses : Uses A a] : Writes A (pure a : Register α) := ⟨fun _ h _ => ⟨h, uses⟩⟩

theorem seq (first : Writes A x) [draws : Keeps State.Draws x] (rest : ∀ a : Given A α, Writes A (f a.value))
    [draws' : ∀ a, Keeps State.Draws (f a)] : Writes A (x >>= f) where
  writes {c s} fits h drawn := by
    rw [Keeps.bind_run] at drawn ⊢
    have later := (draws' (x c s).1).keeps c (x c s).2
    obtain ⟨kept, uses⟩ := first.writes fits h fun name fresh mem => drawn name fresh (later.mono mem)
    refine (rest ⟨_, uses⟩).writes fits kept fun name fresh mem => drawn name (fun old => fresh ?_) mem
    exact (draws.keeps c s).mono old

instance ofBind [first : Writes A x] [Keeps State.Draws x] [rest : ∀ a : Given A α, Writes A (f a.value)]
    [∀ a, Keeps State.Draws (f a)] : Writes A (x >>= f) := .seq first rest

instance (priority := 1100) ofRead {f : Context → Register β}
    [rest : ∀ c : GivenContext A, Writes A (f c.value)] :
    Writes A (read >>= f) :=
  ⟨fun {c _} fits h drawn => (rest ⟨c, fits⟩).writes fits h drawn⟩

instance ofMap {g : α → β} [hx : Writes A x] [made : ∀ a : Given A α, Uses A (g a.value)] :
    Writes A (g <$> x) :=
  ⟨fun fits h drawn =>
    have ⟨kept, uses⟩ := hx.writes fits h drawn
    ⟨kept, made ⟨_, uses⟩⟩⟩

theorem ofModify {g : State → State} (h : ∀ s : State, s.OfNames A → (g s).OfNames A) :
    Writes A (modify g : Register Unit) := ⟨fun _ kept _ => ⟨h _ kept, inferInstance⟩⟩

theorem ofForIn {l : List γ} {init : β} {g : γ → β → Register (ForInStep β)}
    (h : ∀ a ∈ l, ∀ b : Given A β, Writes A (g a b.value)) [draws : ∀ a b, Keeps State.Draws (g a b)]
    (uses : Uses A init) : Writes A (forIn l init g) := by
  induction l generalizing init with
  | nil => exact ofPure init
  | cons a l ih =>
    rw [List.forIn_cons]
    refine @seq _ _ _ _ _ _ _ (h a (List.mem_cons_self ..) ⟨init, uses⟩) (draws a init) (fun r => ?_)
      (fun r => by cases r <;> infer_instance)
    obtain ⟨r, uses⟩ := r
    cases r with
    | done b =>
      have : Uses A b := ⟨uses.uses⟩
      exact ofPure b
    | yield b => exact ih (fun a mem => h a (List.mem_cons_of_mem _ mem)) ⟨uses.uses⟩

theorem ofForM {l : List β} {g : β → Register Unit} [h : ∀ a : Given A β, Writes A (g a.value)]
    [draws : ∀ a, Keeps State.Draws (g a)] (uses : Uses A l) : Writes A (l.forM g) := by
  induction l with
  | nil => exact ofPure ()
  | cons a l ih =>
    have first := h ⟨a, uses.head⟩
    have rest := ih uses.tail
    exact ofBind (x := g a) (f := fun _ => l.forM g)

instance {l : List β} {g : β → Register Unit} [uses : Uses A l] [∀ a : Given A β, Writes A (g a.value)]
    [∀ a, Keeps State.Draws (g a)] : Writes A (l.forM g) := .ofForM uses

instance ofOptionForM {o : Option β} {g : β → Register Unit} [uses : Uses A o]
    [h : ∀ a : Given A β, Writes A (g a.value)] : Writes A (o.forM g) := by
  cases o with
  | none => exact ofPure ()
  | some a => exact h ⟨a, uses.of_some rfl⟩

theorem ofMapM {l : List β} {g : β → Register α} [h : ∀ a : Given A β, Writes A (g a.value)]
    [draws : ∀ a, Keeps State.Draws (g a)] (uses : Uses A l) : Writes A (l.mapM g) := by
  induction l with
  | nil => exact ofPure []
  | cons a l ih =>
    have first := h ⟨a, uses.head⟩
    have rest := ih uses.tail
    rw [List.mapM_cons]
    infer_instance

instance {l : List β} {g : β → Register α} [uses : Uses A l] [∀ a : Given A β, Writes A (g a.value)]
    [∀ a, Keeps State.Draws (g a)] : Writes A (l.mapM g) := .ofMapM uses

instance ofOptionMapM {o : Option β} {g : β → Register α} [uses : Uses A o]
    [h : ∀ a : Given A β, Writes A (g a.value)] : Writes A (o.mapM g) := by
  cases o with
  | none => exact ofPure (none : Option α)
  | some a =>
    have := h ⟨a, uses.of_some rfl⟩
    exact ofMap

end Writes

/-! ## Variables -/

instance (name : String) [uses : Uses A name] : Writes A (hoist name) := .ofModify fun s h => by
  split
  · exact h
  · have := h.hoisted
    exact ⟨(inferInstance : Uses A (s.hoisted ++ [name])), h.functions, h.deferred⟩

theorem draw_writes {draw : NameSupply → String × NameSupply} (step : ∀ s, NameSupply.Gives.Step s (draw s)) :
    Writes A (modifyGet fun s : State =>
      ((draw s.names).1, { s with names := (draw s.names).2 }) : Register String) where
  writes {_ s} _ h drawn := by
    refine ⟨⟨h.hoisted, h.functions, h.deferred⟩, Uses.name (drawn _ (step s.names).fresh ?_)⟩
    exact ((step s.names).mem_used _).mpr (.inl rfl)

instance (base : String) : Writes A (newName base) := draw_writes fun s => NameSupply.Gives.step_unique s base

instance : Writes A newTemporary := by
  have : Writes A (modifyGet fun s : State => (s.names.temporary.1, { s with names := s.names.temporary.2 }) :
      Register String) := draw_writes NameSupply.Gives.step_temporary
  have : Keeps State.Draws
    (modifyGet fun s : State => (s.names.temporary.1, { s with names := s.names.temporary.2 }) :
      Register String) := .ofModifyGet fun s => ⟨_, .of_temporary s.names⟩
  exact .ofBind

/-! ## Patterns -/

instance (value : Node) [Uses A value] : Writes A (nameValue value) := by
  rw [nameValue]
  split <;> infer_instance

instance (value : Node) (other : Option Node) [Uses A value] [h : Uses A other] :
    Writes A (withDefault value other) := by
  cases other with
  | none =>
    rw [withDefault]
    infer_instance
  | some other =>
    have := h.of_some rfl
    rw [withDefault]
    infer_instance

instance (target value : Node) [h : Uses A target] [Uses A value] : Writes A (wholePattern target value) := by
  rw [wholePattern]
  refine @Writes.ofRead _ _ _ _ fun c => ?_
  dsimp only
  generalize made : (target.boundNames target).flatMap _ = exports
  have : Uses A exports := made ▸ Uses.list_iff.mpr fun e mem => by
    obtain ⟨p, bound, mem⟩ := List.mem_flatMap.mp mem
    split at mem
    · cases mem
    · rename_i text named
      have := Uses.name ((Node.uses_boundNames target target h p bound).of_identifierText? named)
      exact Uses.of_mem (inferInstance : Uses A ((exportNames c.value p.1).map fun name =>
        exportCall c.value name (identifier text))) mem
  infer_instance

theorem partOf?_uses [Uses A "slice"] {isObject : Bool} {value part : Node} {index : Nat}
    {p : Form.BindingElement}
    [Uses A value] (name : Uses A p.name) (key : Uses A p.propertyName)
    (found : partOf? isObject value index p = some part) : Uses A part := by
  rw [partOf?] at found
  split at found
  · have keyed : Uses A (p.propertyName.getD p.name) := inferInstance
    dsimp only at found
    split at found
    · rename_i text _ form
      have := keyed.of_identifier form
      cases found
      infer_instance
    · cases found
      infer_instance
    · rename_i e form
      have := keyed.form form
      simp only [Uses.cons_iff, Uses.ofNode_iff] at this
      have := this.1
      cases found
      infer_instance
    · cases found
  · split at found
    · cases found
      infer_instance
    · cases found
      infer_instance

theorem flatten_writes [Uses A "slice"] (value target : Node) (h : Uses A value) (h' : Uses A target) :
    Writes A (flatten value target) := by
  refine flatten.induct (fun value target => Uses A value → Uses A target → Writes A (flatten value target))
    (fun isObject value index items => Uses A value → Uses A items →
      Writes A (flattenElements isObject value index items))
    ?pattern ?name ?done ?left ?taken ?other value target h h'
  case pattern =>
    intro value h multiLine lh items docs origin ih value_uses target_uses
    have items_uses : Uses A items := Uses.slot_iff.mp (Uses.mk_iff.mp target_uses).2.1.head
    rw [flatten]
    dsimp only at ih ⊢
    refine .seq inferInstance fun x => ?_
    have := ih x.value.2 inferInstance items_uses
    split <;> infer_instance
  case name =>
    intro value target other value_uses target_uses
    rw [flatten]
    · infer_instance
    · exact other
  case done =>
    intro isObject value index _ _
    rw [flattenElements]
    infer_instance
  case left =>
    intro isObject value index head dots key target default docs origin rest parts none ih value_uses uses
    have := ih value_uses uses.tail
    rw [flattenElements]
    simp only [parts] at none
    simp only [none]
    infer_instance
  case taken =>
    intro isObject value index head dots key target default docs origin rest parts part some ih ih'
      value_uses uses
    have := ih value_uses uses.tail
    obtain ⟨_, _, target_uses, _, -⟩ :
        Uses A dots ∧ Uses A key ∧ Uses A (Slot.node target) ∧ Uses A default ∧ True := by
      simpa using (Uses.mk_iff.mp uses.head).2.1
    replace target_uses := (Uses.slot_iff.mp target_uses).head
    have := partOf?_uses target_uses inferInstance some
    rw [flattenElements]
    simp only [parts] at some
    simp only [some]
    refine .seq inferInstance fun x => ?_
    have := ih' x.value.2 inferInstance target_uses
    infer_instance
  case other =>
    intro isObject value index first rest other ih value_uses uses
    have := ih value_uses uses.tail
    rw [flattenElements]
    · infer_instance
    · exact other

section

variable [Uses A "slice"]

instance (value target : Node) [h : Uses A value] [h' : Uses A target] : Writes A (flatten value target) :=
  flatten_writes value target h h'

instance (n : Node) (out : List Node) [h : Uses A n] [Uses A out] : Writes A (variableRound n out) := by
  rw [variableRound]
  split
  · rename_i p form
    have parts := h.form form
    simp only [Uses.cons_iff, Uses.ofNode_iff, Uses.ofNode?_iff] at parts
    obtain ⟨_, -, -, value, -⟩ := parts
    cases found : p.value with
    | none => infer_instance
    | some e =>
      have := value.of_some found
      infer_instance
  · infer_instance

instance (l : Node) [h : Uses A l] : Writes A (hoistVariables l) := by
  unfold hoistVariables
  split
  · rename_i declarations form
    have parts := h.form form
    simp only [Uses.cons_iff, Uses.ofList_iff] at parts
    have := parts.1
    have items : Uses A declarations.items := inferInstance
    change Writes A (forIn declarations.items [] variableRound >>= pure)
    have rounds : Writes A (forIn declarations.items [] variableRound) := .ofForIn (fun n mem out => by
      have := items.of_mem mem
      infer_instance) inferInstance
    infer_instance
  · infer_instance

instance (n : Node) (assignments : List Node) [Uses A assignments] :
    Uses A (assignmentStatement? n assignments) := by
  rw [assignmentStatement?]
  infer_instance

/-! ## Statements -/

instance (l : Node) [h : Uses A l] : Writes A (loopHead l) := by
  rw [loopHead]
  split
  · infer_instance
  · dsimp only
    split
    · rename_i declarations form
      have parts := h.form form
      simp only [Uses.cons_iff, Uses.ofList_iff] at parts
      have := parts.1
      have items : Uses A declarations.items := inferInstance
      have : Uses A (declarations.items.head?.bind Node.name?) := Uses.option_iff.mpr fun name found => by
        obtain ⟨n, first, named⟩ := Option.bind_eq_some_iff.mp found
        have := items.of_mem (List.mem_of_head? first)
        exact Uses.of_some (inferInstance : Uses A n.name?) named
      infer_instance
    · infer_instance

instance (start : Option Node) [h : Uses A start] : Writes A (loopStart start) := by
  cases start with
  | none =>
    rw [loopStart]
    infer_instance
  | some l =>
    have := h.of_some rfl
    rw [loopStart]
    split <;> infer_instance

section Nested

variable {visit : Node → Register Node} [∀ n : Given A Node, Writes A (visit n.value)]
  [∀ n, Keeps State.Draws (visit n)]

instance (n : Node) [h : Uses A n] : Writes A (listStatement visit n) := by
  have visited : Writes A (visit n) := inferInstanceAs (Writes A (visit (⟨n, h⟩ : Given A Node).value))
  rw [listStatement]
  split
  · infer_instance
  · rename_i l form
    have parts := h.form form
    simp only [Uses.cons_iff, Uses.ofNode_iff] at parts
    have := parts.2.1
    split <;> infer_instance
  · infer_instance

instance (l : NodeList) [h : Uses A l] : Writes A (statementList visit l) := by
  have items : Uses A l.items := inferInstance
  unfold statementList
  refine @Writes.ofRead _ _ _ _ fun c =>
    .seq (.ofForIn (fun n mem out => ?_) inferInstance) fun out => inferInstance
  have n_uses := items.of_mem mem
  have expanded : Uses A (expand c.value n) := inferInstance
  refine .seq (.ofForIn (fun m mem out => ?_) out.uses) fun out => inferInstance
  have := expanded.of_mem mem
  infer_instance

instance (n : Node) [h : Uses A n] : Writes A (clause visit n) := by
  rw [clause]
  split
  · rename_i form
    have parts := h.form form
    simp only [Uses.cons_iff, Uses.ofNode?_iff, Uses.ofList_iff] at parts
    obtain ⟨_, _, -⟩ := parts
    infer_instance
  · infer_instance

instance (n : Node) [h : Uses A n] : Writes A (caseBlock visit n) := by
  rw [caseBlock]
  split
  · rename_i form
    have parts := h.form form
    simp only [Uses.cons_iff, Uses.ofList_iff] at parts
    have := parts.1
    infer_instance
  · infer_instance

instance (n : Node) [h : Uses A n] : Writes A (handler visit n) := by
  rw [handler]
  split
  · rename_i binding body form
    have parts := h.form form
    simp only [Uses.cons_iff, Uses.ofNode?_iff, Uses.ofNode_iff] at parts
    obtain ⟨_, body_uses, -⟩ := parts
    have visited : Writes A (visit body) :=
      inferInstanceAs (Writes A (visit (⟨body, body_uses⟩ : Given A Node).value))
    infer_instance
  · infer_instance

end Nested

theorem nested_writes (depth : Nat) (n : Node) (h : Uses A n) : Writes A (nested depth n) := by
  induction depth generalizing n with
  | zero => exact .ofPure n
  | succ depth ih =>
    have visit (n : Node) [h : Uses A n] : Writes A (nested depth n) := ih n h
    rw [nested]
    split
    case h_11 => infer_instance
    all_goals
      rename_i form
      have parts := h.form form
      simp only [Uses.cons_iff, Uses.ofNode_iff, Uses.ofNode?_iff, Uses.ofList_iff] at parts
      obtain ⟨_, parts⟩ := parts
      try obtain ⟨_, parts⟩ := parts
      try obtain ⟨_, parts⟩ := parts
      try obtain ⟨_, parts⟩ := parts
      first
      | infer_instance
      | exact .seq inferInstance fun _ => inferInstance

instance (depth : Nat) (n : Node) [h : Uses A n] : Writes A (nested depth n) := nested_writes depth n h

/-! ## Statements of the module -/

instance (n : Node) [h : Uses A n] : Writes A (localOf n) := by
  rw [localOf]
  split
  · rename_i name found
    have := Uses.of_some (inferInstance : Uses A n.declaredText?) found
    infer_instance
  · infer_instance

instance [c.OfNames A] (n : Node) (name : String) [Uses A name] : Uses A (exportsOf c n name) := by
  rw [exportsOf]
  infer_instance

instance [c.OfNames A] (n : Node) (name : String) [Uses A name] : Uses A (declarationExports c n name) := by
  rw [declarationExports]
  infer_instance

instance (statements : List Node) [Uses A statements] : Writes A (putInFront statements) :=
  .ofModify fun s h => by
    have := h.functions
    exact ⟨h.hoisted, (inferInstance : Uses A (s.functions ++ statements)), h.deferred⟩

instance (n : Node) [Uses A n] : Writes A (hoistFunction n) := by
  rw [hoistFunction_eq]
  split <;> infer_instance

instance (n : Node) [Uses A n] : Writes A (classStatements n) := by
  rw [classStatements]
  infer_instance

instance (n : Node) (exports : List Node) [added : Uses A exports] : Writes A (holdFor n exports) :=
  .ofModify fun _ h => ⟨h.hoisted, h.functions, hold_uses added h.deferred⟩

instance (n : Node) [Uses A n] : Writes A (deferExports n) := by
  rw [deferExports_eq]
  infer_instance

instance (n : Node) : Writes A (release n) where
  writes {_ s} _ h _ := by
    refine ⟨⟨h.hoisted, h.functions, fun p mem => h.deferred p (List.mem_of_mem_eraseP mem)⟩, ?_⟩
    have found : Uses A ((s.deferred.find? (·.1.id == n.id)).map (·.2)) :=
      Uses.option_iff.mpr fun exports found => by
      obtain ⟨p, first, rfl⟩ := Option.map_eq_some_iff.mp found
      exact h.deferred p (List.mem_of_find?_eq_some first)
    exact (inferInstance : Uses A (((s.deferred.find? (·.1.id == n.id)).map (·.2)).getD []))

instance (n : Node) [h : Uses A n] [origin : Uses A n.origin] : Writes A (variableStatements n) := by
  rw [variableStatements]
  split
  · rename_i declaration found
    have := origin.of_some (Option.filter_eq_some_iff.mp found).1
    infer_instance
  · split
    · rename_i l form
      have parts := h.form form
      simp only [Uses.cons_iff, Uses.ofNode_iff] at parts
      have := parts.2.1
      infer_instance
    · infer_instance

instance (n : Node) : Writes A (hoistLocal n) := by
  rw [hoistLocal]
  infer_instance

instance (clause : Node) [h : Uses A clause] : Uses A clause.importBindings := by
  rw [Node.importBindings]
  split
  · rename_i bindings form
    have parts := h.form form
    simp only [Uses.cons_iff, Uses.ofNode?_iff] at parts
    obtain ⟨_, bindings_use, -⟩ := parts
    cases bindings with
    | none => infer_instance
    | some b =>
      have b_uses := bindings_use.of_some rfl
      dsimp only
      split
      · rename_i name form'
        have parts := b_uses.form form'
        simp only [Uses.cons_iff, Uses.ofNode_iff] at parts
        have := parts.1
        infer_instance
      · rename_i l form'
        have parts := b_uses.form form'
        simp only [Uses.cons_iff, Uses.ofList_iff] at parts
        have := parts.1
        have items : Uses A l.items := inferInstance
        generalize made : l.items.filterMap _ = named
        have : Uses A named := made ▸ Uses.list_iff.mpr fun p mem => by
          obtain ⟨specifier, inside, found⟩ := List.mem_filterMap.mp mem
          have specifier_uses := items.of_mem inside
          split at found
          · rename_i form
            have parts := specifier_uses.form form
            simp only [Uses.cons_iff, Uses.ofNode?_iff, Uses.ofNode_iff] at parts
            have := parts.2.1
            cases found
            infer_instance
          · cases found
        infer_instance
      · infer_instance
  · infer_instance

instance [c.OfNames A] (n : Node) [h : Uses A n] : Uses A (importExports c n) := by
  rw [importExports]
  split
  · rename_i p form
    have parts := h.form form
    simp only [Uses.cons_iff, Uses.ofNode_iff, Uses.ofNode?_iff, Uses.ofList?_iff] at parts
    have := parts.2.1
    infer_instance
  · infer_instance

theorem statement_writes (depth : Nat) (h : Uses A n) (origin : Uses A n.origin) :
    Writes A (statement depth n) := by
  rw [statement]
  split
  · infer_instance
  · refine @Writes.ofRead _ _ _ _ fun c => ?_
    split
    case h_7 =>
      split
      · rename_i form
        have parts := h.form form
        simp only [Uses.cons_iff, Uses.ofNode_iff] at parts
        have := parts.2.1
        infer_instance
      · infer_instance
    case h_12 => split <;> infer_instance
    all_goals infer_instance

theorem body_writes (depth : Nat) {items : List Node} (uses : Uses A items)
    (parsed : ∀ n ∈ items, n.origin = none) :
    Writes A (body depth items) := by
  rw [body]
  refine @Writes.ofRead _ _ _ _ fun c =>
    .seq (.ofForIn (fun n mem out => ?_) inferInstance) fun out => inferInstance
  have n_uses := uses.of_mem mem
  have expanded : Uses A (expand c.value n) := inferInstance
  refine .seq (.ofForIn (fun part inside out => ?_) out.uses) fun out => inferInstance
  have := statement_writes depth (expanded.of_mem inside) (origin_uses (parsed n mem) inside)
  infer_instance

end

end ScriptFrontend.Registration
