import ScriptFrontend.Proofs.Tree.Contains
import ScriptFrontend.Proofs.Tree.Names

/-!
# Binding step by step

Binding takes steps of four kinds: it declares a node, refers to a name, enters a scope and leaves one. The
steps of a visit make a walk. In a walk each scope that is entered is left again, and what is declared or
referred to in a scope stands in the node that makes the scope.
-/

namespace ScriptFrontend

variable {α β : Type} {c n m : Node} {s : BindState}

/-! ## Steps -/

structure Declaration where
  node : Node
  name : Node
  named : node.name? = some name
  flags : SymbolFlags
  isExported : Bool

/-- Which of the scopes around a declaration holds its name. -/
inductive ScopePlace where
  | innermost
  /-- The innermost scope that holds the variables of functions. -/
  | hoisted

def BindState.scopeAt (s : BindState) : ScopePlace → Nat
  | .innermost => s.current
  | .hoisted => s.table.variableScope s.current

inductive BindStep where
  | declare (place : ScopePlace) (d : Declaration)
  | refer (name : Node)
  | enter (kind : ScopeKind) (container : Node)
  | leave

def BindStep.apply (s : BindState) : BindStep → BindState
  | .declare place d =>
    { s with table := s.table.declare (s.scopeAt place) d.name d.node d.flags d.isExported }
  | .refer name => { s with table := s.table.refer s.current name }
  | .enter kind container =>
    { table := s.table.addScope ⟨kind, container, [], some s.current⟩, current := s.table.scopes.size }
  | .leave => { s with current := (s.table.scope s.current).parent.getD s.current }

def BindState.run (s : BindState) (steps : List BindStep) : BindState := steps.foldl BindStep.apply s

@[simp]
theorem BindState.run_nil (s : BindState) : s.run [] = s := rfl

@[simp]
theorem BindState.run_cons (s : BindState) (e : BindStep) (es : List BindStep) :
    s.run (e :: es) = (e.apply s).run es := rfl

@[simp]
theorem BindState.run_append (s : BindState) (es es' : List BindStep) : s.run (es ++ es') = (s.run es).run es' :=
  List.foldl_append

/-- Steps in a node. What is declared or referred to stands in it, and what goes on in a scope is a walk in the node
that makes the scope. -/
inductive Walk : Node → List BindStep → Prop
  | done (c : Node) : Walk c []
  | declare {c : Node} {d : Declaration} {es : List BindStep} (place : ScopePlace) (inside : c.Contains d.node)
    (rest : Walk c es) : Walk c (.declare place d :: es)
  | refer {c name : Node} {es : List BindStep} (inside : c.Contains name) (rest : Walk c es) :
    Walk c (.refer name :: es)
  | scope {c container : Node} {inner es : List BindStep} (kind : ScopeKind) (inside : c.Contains container)
    (within : Walk container inner) (rest : Walk c es) :
    Walk c (.enter kind container :: (inner ++ .leave :: es))

def OnlyDeclares (P : Node → Prop) (place : ScopePlace) (es : List BindStep) : Prop :=
  ∀ e ∈ es, ∃ d : Declaration, e = .declare place d ∧ P d.node

theorem OnlyDeclares.mono {P P' : Node → Prop} {place : ScopePlace} {es : List BindStep} (h : OnlyDeclares P place es)
    (sub : ∀ n, P n → P' n) : OnlyDeclares P' place es :=
  fun e mem => (h e mem).imp fun _ is => ⟨is.1, sub _ is.2⟩

namespace Walk

variable {es es' : List BindStep}

theorem append (h : Walk c es) (h' : Walk c es') : Walk c (es ++ es') := by
  induction h with
  | done => exact h'
  | declare place inside _ ih => exact .declare place inside (ih h')
  | refer inside _ ih => exact .refer inside (ih h')
  | @scope c container inner es kind inside within _ _ ih =>
    rw [List.cons_append, List.append_assoc]
    exact .scope kind inside within (ih h')

theorem outside (h : Walk m es) (contains : n.Contains m) : Walk n es := by
  induction h with
  | done => exact .done n
  | declare place inside _ ih => exact .declare place (contains.trans inside) (ih contains)
  | refer inside _ ih => exact .refer (contains.trans inside) (ih contains)
  | scope kind inside within _ _ ih => exact .scope kind (contains.trans inside) within (ih contains)

theorem of_onlyDeclares {place : ScopePlace} (h : OnlyDeclares c.Contains place es) : Walk c es := by
  induction es with
  | nil => exact .done c
  | cons e es ih =>
    obtain ⟨⟨d, rfl, inside⟩, rest⟩ := List.forall_mem_cons.mp h
    exact .declare place inside (ih rest)

end Walk

/-! ## Frames -/

abbrev Scope.Frame := ScopeKind × Node × Option Nat

def Scope.frame (s : Scope) : Scope.Frame := (s.kind, s.container, s.parent)

namespace ScopeTable

variable {t t' : ScopeTable}

def frames (t : ScopeTable) : List Scope.Frame := t.scopes.toList.map Scope.frame

theorem length_frames (t : ScopeTable) : t.frames.length = t.scopes.size := by
  rw [frames, List.length_map, Array.length_toList]

theorem frame_scope (t : ScopeTable) (i : Nat) : (t.scope i).frame = t.frames.getD i (default : Scope).frame := by
  rw [scope, frames, Array.getD_eq_getD_getElem?, List.getD_eq_getElem?_getD, List.getElem?_map,
    Array.getElem?_toList]
  cases t.scopes[i]? <;> rfl

theorem frame_of_getElem? {i : Nat} {frame : Scope.Frame} (held : t.frames[i]? = some frame) :
    (t.scope i).frame = frame := by
  rw [frame_scope, List.getD_eq_getElem?_getD, held, Option.getD_some]

theorem getElem?_frames_kept (kept : t.frames <+: t'.frames) {i : Nat} {frame : Scope.Frame}
    (held : t.frames[i]? = some frame) : t'.frames[i]? = some frame := by
  obtain ⟨lt, is⟩ := List.getElem?_eq_some_iff.mp held
  rw [List.prefix_iff_getElem?.mp kept i lt, is]

theorem frame_scope_kept (kept : t.frames <+: t'.frames) {i : Nat} (lt : i < t.scopes.size) :
    (t'.scope i).frame = (t.scope i).frame := by
  have held := List.getElem?_eq_getElem (Nat.lt_of_lt_of_eq lt t.length_frames.symm)
  rw [frame_of_getElem? (getElem?_frames_kept kept held), frame_of_getElem? held]

theorem variableScope_congr (same : t'.frames = t.frames) (i : Nat) : t'.variableScope i = t.variableScope i := by
  have size : t'.scopes.size = t.scopes.size := by rw [← length_frames, same, length_frames]
  rw [variableScope, variableScope, size]
  generalize t.scopes.size = fuel
  induction fuel generalizing i with
  | zero => rfl
  | succ fuel ih =>
    have frame : (t'.scope i).frame = (t.scope i).frame := by rw [frame_scope, frame_scope, same]
    have kind : (t'.scope i).kind = (t.scope i).kind := congrArg Prod.fst frame
    have parent : (t'.scope i).parent = (t.scope i).parent := congrArg (·.2.2) frame
    rw [variableScope.go, variableScope.go, kind, parent]
    split
    · rw [ih]
    · rfl

theorem frames_addScope (t : ScopeTable) (s : Scope) : (t.addScope s).frames = t.frames ++ [s.frame] := by
  rw [frames, frames, addScope, Array.toList_push, List.map_append, List.map_singleton]

theorem frames_symbolIn (t : ScopeTable) (i : Nat) (name : String) : (t.symbolIn i name).2.frames = t.frames := by
  rw [symbolIn]
  split
  · rfl
  · refine List.ext_getElem? fun j => ?_
    rw [frames, frames, List.getElem?_map, List.getElem?_map, Array.getElem?_toList, Array.getElem?_toList,
      Array.getElem?_modify]
    split
    · cases t.scopes[j]? <;> rfl
    · rfl

theorem frames_declare (t : ScopeTable) (i : Nat) (name declaration : Node) (flags : SymbolFlags)
    (isExported : Bool) : (t.declare i name declaration flags isExported).frames = t.frames := by
  rw [declare]
  split
  · rfl
  · rfl
  · exact frames_symbolIn t i _

theorem frames_refer (t : ScopeTable) (i : Nat) (name : Node) : (t.refer i name).frames = t.frames := by
  rw [refer]
  repeat' split
  all_goals rfl

end ScopeTable

theorem BindState.scopeAt_declare (s : BindState) (place : ScopePlace) (d : Declaration) (place' : ScopePlace) :
    ((BindStep.declare place d).apply s).scopeAt place' = s.scopeAt place' := by
  cases place' with
  | innermost => rfl
  | hoisted => exact ScopeTable.variableScope_congr (s.table.frames_declare _ _ _ _ _) s.current

theorem OnlyDeclares.scopeAt {P : Node → Prop} {place place' : ScopePlace} {es : List BindStep}
    (h : OnlyDeclares P place es) (s : BindState) : (s.run es).scopeAt place' = s.scopeAt place' := by
  induction es generalizing s with
  | nil => rfl
  | cons e es ih =>
    obtain ⟨⟨d, rfl, -⟩, rest⟩ := List.forall_mem_cons.mp h
    rw [BindState.run_cons, ih rest, BindState.scopeAt_declare]

/-- Leaving leads back to the scope that the scope was entered from. -/
theorem BindStep.apply_leave {kind : ScopeKind} {s' : BindState} (current : s'.current = s.table.scopes.size)
    (kept : ((BindStep.enter kind c).apply s).table.frames <+: s'.table.frames) :
    BindStep.leave.apply s' = { s' with current := s.current } := by
  have entered : ((BindStep.enter kind c).apply s).table.frames = s.table.frames ++ [(kind, c, some s.current)] :=
    s.table.frames_addScope _
  have held : s'.table.frames[s'.current]? = some (kind, c, some s.current) := by
    refine ScopeTable.getElem?_frames_kept kept ?_
    rw [current, ← s.table.length_frames, entered]
    exact List.getElem?_concat_length
  have parent : (s'.table.scope s'.current).parent = some s.current :=
    congrArg (·.2.2) (ScopeTable.frame_of_getElem? held)
  rw [BindStep.apply, parent, Option.getD_some]

/-- A walk ends in the scope that it begins in. It adds scopes behind those that there are. -/
theorem Walk.frames {es : List BindStep} (h : Walk c es) (s : BindState) :
    (s.run es).current = s.current ∧ s.table.frames <+: (s.run es).table.frames := by
  induction h generalizing s with
  | done => exact ⟨rfl, List.prefix_refl _⟩
  | declare place inside _ ih =>
    obtain ⟨current, kept⟩ := ih _
    exact ⟨current, (s.table.frames_declare _ _ _ _ _) ▸ kept⟩
  | refer inside _ ih =>
    obtain ⟨current, kept⟩ := ih _
    exact ⟨current, (s.table.frames_refer _ _) ▸ kept⟩
  | @scope _ container inner es kind _ _ _ inside rest =>
    let entered := (BindStep.enter kind container).apply s
    have before : s.table.frames <+: entered.table.frames := by
      rw [show entered.table.frames = _ from s.table.frames_addScope _]
      exact List.prefix_append _ _
    obtain ⟨current, kept⟩ := inside entered
    have left : (BindStep.leave.apply (entered.run inner)).current = s.current := by
      rw [BindStep.apply_leave current kept]
    obtain ⟨current', kept'⟩ := rest (BindStep.leave.apply (entered.run inner))
    rw [BindState.run_cons, BindState.run_append, BindState.run_cons]
    exact ⟨current'.trans left, (before.trans kept).trans kept'⟩

/-! ## Computations -/

def IsVisit (visit : Node → StateM BindState Unit) : Prop :=
  ∀ n s, ∃ es, Walk n es ∧ (visit n s).2 = s.run es

/-- From such states on, a computation takes such steps, if visits are walks. -/
class Takes (Q : List BindStep → Prop) (here : BindState → Prop) (x : Bind α) : Prop where
  takes : ∀ visit, IsVisit visit → ∀ s, here s → ∃ es, Q es ∧ (x visit s).2 = s.run es

abbrev Walks (c : Node) (x : Bind α) : Prop := Takes (Walk c) (fun _ => True) x

/-- Such steps may follow such steps, and lead from such states to such states. -/
class Composes (Q : List BindStep → Prop) (here : BindState → Prop) : Prop where
  nil : Q []
  append : ∀ {es es'}, Q es → Q es' → Q (es ++ es')
  stays : ∀ {es s}, Q es → here s → here (s.run es)

instance (c : Node) : Composes (Walk c) (fun _ => True) where
  nil := .done c
  append := .append
  stays _ _ := trivial

instance (c : Node) (k : Nat) : Composes (Walk c) (fun s => s.current = k) where
  nil := .done c
  append := .append
  stays walk here := (walk.frames _).1.trans here

instance (P : Node → Prop) (place place' : ScopePlace) (k : Nat) :
    Composes (OnlyDeclares P place) (fun s => s.scopeAt place' = k) where
  nil := List.forall_mem_nil _
  append h h' := List.forall_mem_append.mpr ⟨h, h'⟩
  stays h here := (h.scopeAt _).trans here

instance (P : Node → Prop) (place : ScopePlace) : Composes (OnlyDeclares P place) (fun _ => True) where
  nil := List.forall_mem_nil _
  append h h' := List.forall_mem_append.mpr ⟨h, h'⟩
  stays _ _ := trivial

namespace Takes

variable {Q Q' : List BindStep → Prop} {here here' : BindState → Prop} {x : Bind α} {f : α → Bind β}

theorem mono (h : Takes Q' here' x) (more : ∀ es, Q' es → Q es) (fewer : ∀ s, here s → here' s) : Takes Q here x :=
  ⟨fun visit is s place => (h.takes visit is s (fewer s place)).imp fun es taken => ⟨more es taken.1, taken.2⟩⟩

theorem outside (h : Walks m x) (inside : In n m) : Walks n x :=
  h.mono (fun _ walk => walk.outside (In.node_iff.mp inside)) fun _ => id

theorem walks {place : ScopePlace} (h : Takes (OnlyDeclares c.Contains place) here x) : Takes (Walk c) here x :=
  h.mono (fun _ => .of_onlyDeclares) fun _ => id

theorem look {f : BindState → Bind β} (h : ∀ s, here s → Takes Q (· = s) (f s)) : Takes Q here (get >>= f) :=
  ⟨fun visit is s place => (h s place).takes visit is s rfl⟩

theorem lookCurrent {f : BindState → Bind β} (h : ∀ s, Takes Q (fun s' => s'.current = s.current) (f s)) :
    Takes Q here (get >>= f) :=
  .look fun s _ => (h s).mono (fun _ => id) fun _ same => congrArg BindState.current same

instance (priority := low) {k : Nat} [h : Walks c x] : Takes (Walk c) (fun s => s.current = k) x :=
  h.mono (fun _ => id) fun _ _ => trivial

theorem step {e : BindStep} (only : Q [e]) (same : ∀ visit s, here s → (x visit s).2 = e.apply s) : Takes Q here x :=
  ⟨fun visit _ s place => ⟨[e], only, same visit s place⟩⟩

variable [composes : Composes Q here]

include composes

instance pure (a : α) : Takes Q here (Pure.pure a) := ⟨fun _ _ _ _ => ⟨[], composes.nil, rfl⟩⟩

instance get : Takes Q here (MonadState.get : Bind BindState) := ⟨fun _ _ _ _ => ⟨[], composes.nil, rfl⟩⟩

theorem seq (first : Takes Q here x) (rest : ∀ a, Takes Q here (f a)) : Takes Q here (x >>= f) where
  takes visit is s place := by
    obtain ⟨es, taken, same⟩ := first.takes visit is s place
    obtain ⟨es', taken', same'⟩ := (rest (x visit s).1).takes visit is _ (same ▸ composes.stays taken place)
    refine ⟨es ++ es', composes.append taken taken', ?_⟩
    rw [BindState.run_append, ← same]
    exact same'

instance bind [first : Takes Q here x] [rest : ∀ a, Takes Q here (f a)] : Takes Q here (x >>= f) := .seq first rest

omit composes in
instance ite (p : Prop) {_ : Decidable p} (x y : Bind α) [yes : Takes Q here x] [no : Takes Q here y] :
    Takes Q here (if p then x else y) := by
  split <;> assumption

theorem ofOption {a : Option α} {f : α → Bind Unit} (h : ∀ x ∈ a, Takes Q here (f x)) : Takes Q here (a.forM f) := by
  cases a with
  | none => exact pure ()
  | some x => exact h x rfl

theorem ofList {as : List α} {f : α → Bind Unit} (h : ∀ a ∈ as, Takes Q here (f a)) : Takes Q here (as.forM f) := by
  induction as with
  | nil => exact pure ()
  | cons a as ih =>
    exact .seq (h a (List.mem_cons_self ..)) fun _ => ih fun b mem => h b (List.mem_cons_of_mem _ mem)

theorem ofLoop {as : List α} {f : α → β → Bind (ForInStep β)} (h : ∀ a ∈ as, ∀ b, Takes Q here (f a b)) (b : β) :
    Takes Q here (forIn as b f) := by
  induction as generalizing b with
  | nil => exact pure b
  | cons a as ih =>
    rw [List.forIn_cons]
    refine .seq (h a (List.mem_cons_self ..) b) fun step => ?_
    cases step with
    | done b => exact pure b
    | yield b => exact ih (fun a mem => h a (List.mem_cons_of_mem _ mem)) b

end Takes

namespace Bind

/-! ## Declarations -/

variable {P : Node → Prop} {here : BindState → Prop} {k : Nat}

theorem declare_takes {name declaration : Node} (inside : P declaration) (named : declaration.name? = some name)
    (flags : SymbolFlags) (isExported : Bool) :
    Takes (OnlyDeclares P .innermost) here (declare name declaration flags isExported) := by
  refine .step (e := .declare .innermost ⟨declaration, name, named, flags, isExported⟩) ?_ fun _ _ _ => rfl
  intro e mem
  exact ⟨_, List.mem_singleton.mp mem, inside⟩

theorem declareBound_takes (place : ScopePlace) {name declaration : Node} (inside : P declaration)
    (within : ∀ m, name.Contains m → P m) (named : declaration.name? = some name) (flags : SymbolFlags)
    (isExported : Bool) : Takes (OnlyDeclares P place) (fun s => s.scopeAt place = k)
      (declareBound k name declaration flags isExported) := by
  refine ⟨fun visit _ s is => ?_⟩
  let declareAll (names : List (Node × Node)) (t : ScopeTable) : ScopeTable :=
    names.foldl (fun t p => t.declare k p.1 p.2 flags isExported) t
  change ∃ es, OnlyDeclares P place es ∧
    { s with table := declareAll (Node.boundNames declaration name) s.table } = s.run es
  have bound := Node.contains_boundNames declaration name
  generalize Node.boundNames declaration name = names at bound
  -- each declaration leaves the place where it is, so the next one is for the same scope
  induction names generalizing s with
  | nil => exact ⟨[], List.forall_mem_nil _, rfl⟩
  | cons p names ih =>
    obtain ⟨⟨contains, element, is_named⟩, rest⟩ := List.forall_mem_cons.mp bound
    let d : Declaration := ⟨p.2, p.1, is_named named, flags, isExported⟩
    have inside' : P p.2 := by
      rcases element with same | contains
      · rwa [same]
      · exact within _ contains
    obtain ⟨es, only, same⟩ := ih ((BindStep.declare place d).apply s) ((s.scopeAt_declare place d place).trans is) rest
    refine ⟨.declare place d :: es, List.forall_mem_cons.mpr ⟨⟨d, rfl, inside'⟩, only⟩, ?_⟩
    rw [BindState.run_cons, ← same, BindStep.apply, is]
    rfl

theorem contains_listedVariables {v : Node} (mem : v ∈ n.listedVariables) : n.Contains v := by
  rw [Node.listedVariables] at mem
  split at mem
  · rename_i form
    split at mem
    · exact .ofChild (Node.mem_children form (by simp [Form.slots, Slot.ofList, Slot.nodes, mem])) (.refl v)
    · cases mem
  · cases mem

theorem declareVariables_takes (place : ScopePlace) (within : ∀ m, n.Contains m → P m) (flags : SymbolFlags)
    (isExported : Bool) :
    Takes (OnlyDeclares P place) (fun s => s.scopeAt place = k) (declareVariables k n flags isExported) := by
  refine .ofList fun v mem => ?_
  have inside := contains_listedVariables mem
  split
  · rename_i p form
    have named : v.name? = some p.name := by rw [Node.name?, form]
    refine declareBound_takes place (within v inside) (fun m contains => ?_) named flags isExported
    exact within m ((inside.tail (Node.mem_children_of_name? named)).trans contains)
  · infer_instance

theorem declareFunctionVariables_takes {ns : List Node}
    (within : ∀ n ∈ ns, ∀ p ∈ n.functionVariables, ∀ m, p.1.Contains m → P m) :
    Takes (OnlyDeclares P .hoisted) here (declareFunctionVariables ns) := by
  refine .look fun s _ => .mono (.seq (.ofLoop (fun p mem _ => ?_) _) fun _ => inferInstance)
    (fun _ => id) fun s' (same : s' = s) => congrArg (BindState.scopeAt · .hoisted) same
  obtain ⟨n, inside, declared⟩ := List.mem_flatMap.mp mem
  exact .seq (declareVariables_takes .hoisted (within n inside p declared) _ _) fun _ => inferInstance

theorem mem_children_of_importClause {typeOnly : Bool} {name bindings : Option Node}
    (form : n.form = .importClause typeOnly name bindings) (held : bindings = some m) : m ∈ n.children :=
  Node.mem_children form (by simp [held, Form.slots, Slot.ofNode?, Slot.nodes])

theorem mem_children_of_list {multiLine : Bool} {items : NodeList} (form : n.form = .list multiLine items)
    (mem : m ∈ items.items) : m ∈ n.children :=
  Node.mem_children form (by simp [Form.slots, Slot.ofList, Slot.nodes, mem])

theorem importBindings_named {clause : Node} : ∀ p ∈ clause.importBindings,
    p.2.name? = some p.1 ∧ clause.Contains p.2 := by
  intro p mem
  rw [Node.importBindings] at mem
  split at mem
  · rename_i typeOnly name bindings form
    rcases List.mem_append.mp mem with byDefault | byName
    · obtain ⟨name, held, rfl⟩ : ∃ x, name = some x ∧ (x, clause) = p := by simpa using byDefault
      exact ⟨by rw [Node.name?, form, held], .refl _⟩
    · cases held : bindings with
      | none => simp [held] at byName
      | some b =>
        have child : clause.Contains b := .ofChild (mem_children_of_importClause form held) (.refl _)
        rw [held] at byName
        dsimp only at byName
        split at byName
        · rename_i form'
          cases List.mem_singleton.mp byName
          exact ⟨by rw [Node.name?, form'], child⟩
        · rename_i form'
          obtain ⟨s, inside, is⟩ := List.mem_filterMap.mp byName
          split at is
          · rename_i form''
            cases is
            exact ⟨by rw [Node.name?, form''], child.tail (mem_children_of_list form' inside)⟩
          · cases is
        · cases byName
  · cases mem

theorem mem_children_of_importDeclaration {p : Form.ImportDeclaration} (form : n.form = .importDeclaration p)
    (held : p.clause = some m) : m ∈ n.children :=
  Node.mem_children form (by simp [held, Form.slots, Slot.ofNode?, Slot.nodes])

variable [Composes (OnlyDeclares n.Contains .innermost) here]

theorem declareImport_takes : Takes (OnlyDeclares n.Contains .innermost) here (declareImport n) := by
  rw [declareImport]
  split
  · rename_i p form
    split
    · rename_i clause held
      split
      · refine .seq (.ofLoop (fun q mem _ => ?_) _) fun _ => inferInstance
        obtain ⟨named, contains⟩ := importBindings_named q mem
        have inside : n.Contains q.2 := .ofChild (mem_children_of_importDeclaration form held) contains
        exact .seq (declare_takes inside named _ _) fun _ => inferInstance
      · infer_instance
    · infer_instance
  · infer_instance

theorem declareImportEquals_takes (isExported : Bool) :
    Takes (OnlyDeclares n.Contains .innermost) here (declareImportEquals n isExported) := by
  rw [declareImportEquals]
  split
  · rename_i p form
    have named : n.name? = some p.name := by rw [Node.name?, form]
    repeat' split
    · infer_instance
    · exact declare_takes (.refl n) named _ _
    · exact declare_takes (.refl n) named _ _
  · infer_instance

theorem declareNamed_takes (flags : SymbolFlags) (isExported : Bool) :
    Takes (OnlyDeclares n.Contains .innermost) here (declareNamed n flags isExported) :=
  .ofOption fun _ named => declare_takes (.refl n) named flags isExported

theorem declareStatement_takes (n : Node) :
    Takes (OnlyDeclares n.Contains .innermost) (fun _ => True) (declareStatement n) := by
  rw [declareStatement]
  split
  · split
    · rename_i list form
      have parts := (In.self n).slots form
      simp only [Form.slots, In.cons_iff, In.ofNode_iff] at parts
      have within (m : Node) (contains : list.Contains m) : n.Contains m := (In.node_iff.mp parts.2.1).trans contains
      have declares (isExported : Bool) : Takes (OnlyDeclares n.Contains .innermost) (fun _ => True)
          (get >>= fun s => declareVariables s.current list SymbolFlags.blockVariable isExported) :=
        .lookCurrent fun s => declareVariables_takes .innermost within _ _
      exact @Takes.ite _ _ _ _ _ _ _ (declares _) inferInstance
    · infer_instance
  · exact declareNamed_takes _ _
  · exact declareNamed_takes _ _
  · exact declareNamed_takes _ _
  · exact @Takes.ite _ _ _ _ _ _ _ (declareNamed_takes _ _) inferInstance
  · exact declareImport_takes
  · exact declareImportEquals_takes _
  · infer_instance

theorem declareStatements_takes {ns : List Node} (within : ∀ n ∈ ns, ∀ m, n.Contains m → P m) :
    Takes (OnlyDeclares P .innermost) (fun _ => True) (ns.forM declareStatement) :=
  .ofList fun n mem => (declareStatement_takes n).mono (fun _ only => only.mono (within n mem)) fun _ => id

/-! ## Visits -/

section

variable {c : Node}

instance (n : Node) [h : In c n] : Walks c (visit n) :=
  ⟨fun _ is s _ => (is n s).imp fun _ visited => ⟨visited.1.outside (In.node_iff.mp h), visited.2⟩⟩

instance (n : Option Node) [h : In c n] : Walks c (visit? n) :=
  .ofOption fun _ found => have := h.of_some found; inferInstance

instance (ns : List Node) [h : In c ns] : Walks c (visitAll ns) :=
  .ofList fun _ mem => have := h.of_mem mem; inferInstance

instance (ns : Option NodeList) [h : In c ns] : Walks c (visitList? ns) :=
  .ofOption fun _ found => have := h.of_some found; inferInstance

instance (n : Node) [h : In c n] : Walks c (visitChildren n) :=
  have : In c n.children := In.list_iff.mpr fun _ mem => h.child mem
  inferInstanceAs (Walks c (visitAll n.children))

instance (name : Node) [h : In c name] : Walks c (refer name) :=
  .step (e := .refer name) (.refer (In.node_iff.mp h) (.done c)) fun _ _ _ => rfl

theorem inScope_walks {p : Bind Unit} (inner : Walks n p) (h : In c n) (kind : ScopeKind) :
    Walks c (inScope kind n p) where
  takes visit is s _ := by
    let entered := (BindStep.enter kind n).apply s
    obtain ⟨es, walk, same⟩ := inner.takes visit is entered trivial
    obtain ⟨current, kept⟩ := walk.frames entered
    refine ⟨.enter kind n :: (es ++ [.leave]), .scope kind (In.node_iff.mp h) walk (.done c), ?_⟩
    rw [BindState.run_cons, BindState.run_append, BindState.run_cons, BindState.run_nil,
      BindStep.apply_leave current kept]
    change { (p visit entered).2 with current := s.current } = _
    rw [same]

instance (items : List Node) [h : In c items] : Walks c (items.forM declareStatement) :=
  (declareStatements_takes fun _ mem _ contains => (In.node_iff.mp (h.of_mem mem)).trans contains).walks

instance (items : List Node) [In c items] : Walks c (statements items) := by
  rw [statements]
  infer_instance

instance (items : List Node) [h : In c items] : Walks c (functionStatements items) := by
  refine .seq (Takes.walks (declareFunctionVariables_takes fun n mem p declared m contains => ?_)) fun _ =>
    inferInstance
  exact ((In.node_iff.mp (h.of_mem mem)).trans (Node.contains_functionVariables n p declared)).trans contains

instance (name : Node) [In c name] : Walks c (propertyName name) := by
  rw [propertyName]
  infer_instance

instance (name : Option Node) [h : In c name] : Walks c (name.forM propertyName) :=
  .ofOption fun _ held => have := h.of_some held; inferInstance

instance (name : Node) [h : In c name] : Walks c (boundName name) := by
  rw [boundName]
  split
  · infer_instance
  · rename_i form
    have parts := h.slots form
    simp only [Form.slots, In.cons_iff, In.ofList_iff] at parts
    have := parts.1
    infer_instance
  · infer_instance

instance (name : Node) [h : In c name] : Walks c (entityName name) := by
  induction name using entityName.induct generalizing h with
  | case1 head left rest docs origin ih =>
    rw [entityName]
    have : In c left := h.child (by simp [Node.children, Node.slots, Slot.nodes])
    exact ih
  | case2 n other | case3 n other =>
    rw [entityName.eq_def]
    split
    · exact absurd rfl (other _ _ _ _ _)
    · infer_instance

end

theorem declare_name_walks {name : Node} (named : n.name? = some name) (flags : SymbolFlags) (isExported : Bool) :
    Walks n (declare name n flags isExported) :=
  (declare_takes (.refl n) named flags isExported).walks

theorem declareBound_walks {name v : Node} (h : In n v) (named : v.name? = some name) (flags : SymbolFlags)
    (isExported : Bool) : Takes (Walk n) (fun s => s.current = k) (declareBound k name v flags isExported) := by
  have inside := In.node_iff.mp h
  have within (m : Node) (contains : name.Contains m) : n.Contains m :=
    (inside.tail (Node.mem_children_of_name? named)).trans contains
  exact (declareBound_takes .innermost inside within named flags isExported).walks

theorem declareVariables_walks {list : Node} (h : In n list) (flags : SymbolFlags) (isExported : Bool) :
    Takes (Walk n) (fun s => s.current = k) (declareVariables k list flags isExported) :=
  (declareVariables_takes .innermost (fun _ contains => (In.node_iff.mp h).trans contains) flags isExported).walks

theorem mem_of_mem_parameters {items : List Node} {v : Node × Form.Parameter}
    (mem : v ∈ items.filterMap fun parameter =>
      match parameter.form with
      | .parameter parts => some (parameter, parts)
      | _ => none) : v.1 ∈ items ∧ v.1.form = .parameter v.2 := by
  obtain ⟨m, inside, is⟩ := List.mem_filterMap.mp mem
  split at is
  · cases is
    exact ⟨inside, ‹_›⟩
  · cases is

theorem functionBody_walks {body : Option Node} (h : In n body) :
    Walks n (match body with
      | some body =>
        if body.kind == .block then functionStatements ((body.statements?.map (·.items)).getD [])
        else visit body
      | none => Pure.pure ()) := by
  split
  · have inside := h.of_some rfl
    have := inside.statements
    infer_instance
  · infer_instance

theorem function_walks (n : Node) : Walks n (function n) := by
  rw [function]
  split
  · rename_i p form
    have parts := (In.self n).slots form
    simp only [Form.slots, In.cons_iff, In.ofNode?_iff, In.ofList_iff, In.ofList?_iff] at parts
    obtain ⟨_, -, _, -, -, -, listed, -, -, bodied, -⟩ := parts
    have named : n.name? = p.name := by rw [Node.name?, form]
    have items : In n p.parameters.items := inferInstance
    have body := functionBody_walks bodied
    refine .seq inferInstance fun _ => ?_
    extract_lets -underBinder isNamedByValue inside
    have rest (u : Unit) : Walks n (inside u) := by
      refine inScope_walks ?_ (.self n) _
      extract_lets -underBinder inside
      have rest (u : Unit) : Walks n (inside u) := by
        refine .lookCurrent fun s => .seq (.ofLoop (fun v mem _ => ?_) _) fun _ =>
          .seq (.ofLoop (fun v mem _ => ?_) _) fun _ => inferInstance
        · obtain ⟨mem, form⟩ := mem_of_mem_parameters mem
          have named : v.1.name? = some v.2.name := by rw [Node.name?, form]
          exact .seq (declareBound_walks (items.of_mem mem) named _ _) fun _ => inferInstance
        · obtain ⟨mem, form⟩ := mem_of_mem_parameters mem
          have parts := (items.of_mem mem).slots form
          simp only [Form.slots, In.cons_iff, In.ofNode_iff, In.ofNode?_iff, In.ofList?_iff] at parts
          obtain ⟨_, -, _, -, -, _, -⟩ := parts
          infer_instance
      split
      · exact .seq (.ofOption fun _ held => declare_name_walks (named.trans held) _ _) rest
      · exact rest ()
    split
    · exact .seq inferInstance rest
    · exact rest ()
  · infer_instance

theorem classBody_walks {p : Form.ClassLike} (heritage : In n p.heritage) (members : In n p.members) :
    Walks n (classBody n p) := by
  rw [classBody]
  refine .seq (.ofLoop (fun clause mem _ => ?_) _) fun _ => inScope_walks inferInstance (.self n) _
  have clauses : In n ((p.heritage.map (·.items)).getD []) := inferInstance
  have inside := clauses.of_mem mem
  split
  · rename_i types form
    have parts := inside.slots form
    simp only [Form.slots, In.cons_iff, In.ofList_iff] at parts
    have := parts.1
    infer_instance
  · infer_instance

theorem classLike_walks (n : Node) : Walks n (classLike n) := by
  rw [classLike]
  split
  · rename_i p form
    have parts := (In.self n).slots form
    simp only [Form.slots, In.cons_iff, In.ofNode?_iff, In.ofList_iff, In.ofList?_iff] at parts
    obtain ⟨_, -, -, heritage, members, -⟩ := parts
    have body := classBody_walks heritage members
    refine .seq inferInstance fun _ => ?_
    split
    · rename_i name _ held
      have named : n.name? = some name := by rw [Node.name?, form]; exact held
      exact inScope_walks (.seq (declare_name_walks named _ _) fun _ => body) (.self n) _
    · exact body
  · infer_instance

theorem enumeration_walks (n : Node) : Walks n (enumeration n) := by
  rw [enumeration]
  split
  · rename_i members form
    have parts := (In.self n).slots form
    simp only [Form.slots, In.cons_iff, In.ofList_iff, In.ofList?_iff] at parts
    have inside : In n members.items := have := parts.2.2.1; inferInstance
    refine inScope_walks (.seq (.ofLoop (fun member mem _ => ?_) _) fun _ => inferInstance) (.self n) _
    split
    · rename_i name value form
      have named : member.name? = some name := by rw [Node.name?, form]
      have declares := (declare_name_walks named SymbolFlags.enumMember true).outside (inside.of_mem mem)
      infer_instance
    · infer_instance
  · infer_instance

theorem loop_walks (n : Node) : Walks n (loop n) := by
  rw [loop]
  refine inScope_walks ?_ (.self n) _
  dsimp only
  split
  · rename_i list held
    have inside : In n list := by
      have is := (Option.filter_eq_some_iff.mp held).1
      split at is
      · rename_i form
        have parts := (In.self n).slots form
        simp only [Form.slots, In.cons_iff, In.ofNode?_iff] at parts
        exact parts.1.of_some is
      · rename_i form
        have parts := (In.self n).slots form
        simp only [Form.slots, In.cons_iff, In.ofNode_iff] at parts
        cases is
        exact parts.2.1
      · cases is
    exact .lookCurrent fun s => .seq (declareVariables_walks inside _ _) fun _ => inferInstance
  · infer_instance

theorem cases_walks (n : Node) : Walks n (cases n) := by
  rw [cases]
  refine inScope_walks ?_ (.self n) _
  split
  · rename_i clauses form
    have parts := (In.self n).slots form
    simp only [Form.slots, In.cons_iff, In.ofList_iff] at parts
    have inside : In n clauses.items := have := parts.1; inferInstance
    refine .seq (.ofLoop (fun clause mem _ => ?_) _) fun _ =>
      .seq (.ofLoop (fun clause mem _ => ?_) _) fun _ => inferInstance
    · have statements := (inside.of_mem mem).statements
      infer_instance
    · split
      · rename_i form
        have parts := (inside.of_mem mem).slots form
        simp only [Form.slots, In.cons_iff, In.ofNode?_iff, In.ofList_iff] at parts
        obtain ⟨_, _, -⟩ := parts
        infer_instance
      · infer_instance
  · infer_instance

theorem namespaceBody_walks (n : Node) : Walks n (namespaceBody n) := by
  induction n using namespaceBody.induct with
  | case1 _ _ _ _ _ _ other =>
    rw [namespaceBody, if_pos other]
    infer_instance
  | case2 head a name body docs origin other ih =>
    have inside : In (.mk head .module [a, .node name, .node body] docs origin) body :=
      (In.self _).child (by simp [Node.children, Node.slots, Slot.nodes])
    rw [namespaceBody, if_neg other]
    refine inScope_walks ?_ (.self _) _
    split
    · rename_i form
      have parts := inside.slots form
      simp only [Form.slots, In.cons_iff, In.ofList_iff] at parts
      have := parts.1
      infer_instance
    · rename_i name _ form
      have named : body.name? = some name := by rw [Node.name?, form]
      exact .outside (.seq (declare_name_walks named _ _) fun _ => ih) inside
    · infer_instance
  | case3 n other =>
    rw [namespaceBody.eq_def]
    split
    · exact absurd rfl (other _ _ _ _ _ _)
    · infer_instance

theorem catchClause_walks (n : Node) : Walks n (catchClause n) := by
  rw [catchClause]
  split
  · rename_i binding body form
    have parts := (In.self n).slots form
    simp only [Form.slots, In.cons_iff, In.ofNode_iff, In.ofNode?_iff] at parts
    obtain ⟨bound, _, -⟩ := parts
    refine inScope_walks ?_ (.self n) _
    dsimp only
    split
    · rename_i v
      have inside := bound.of_some rfl
      split
      · rename_i p form
        have named : v.name? = some p.name := by rw [Node.name?, form]
        exact .lookCurrent fun s => .seq (declareBound_walks inside named _ _) fun _ => inferInstance
      · infer_instance
    · infer_instance
  · infer_instance

theorem exportedLocals_walks (n : Node) : Walks n (exportedLocals n) := by
  rw [exportedLocals]
  split
  · rename_i p form
    refine @Takes.ite _ _ _ _ _ _ _ inferInstance ?_
    split
    · rename_i specifiers listed
      obtain ⟨clause, held, form'⟩ := Option.map_eq_some_iff.mp listed
      have parts := (In.self n).slots form
      simp only [Form.slots, In.cons_iff, In.ofNode?_iff] at parts
      have inside := parts.2.1.of_some held
      refine .seq (.ofLoop (fun s mem _ => ?_) _) fun _ => inferInstance
      split
      · rename_i form''
        have parts := (inside.child (mem_children_of_list form' mem)).slots form''
        simp only [Form.slots, In.cons_iff, In.ofNode_iff, In.ofNode?_iff] at parts
        obtain ⟨_, _, -⟩ := parts
        infer_instance
      · infer_instance
    · infer_instance
  · infer_instance

theorem valueParts_walks (n : Node) : Walks n (valueParts n) := by
  rw [valueParts]
  split
  all_goals try infer_instance
  all_goals
    rename_i form
    have parts := (In.self n).slots form
    simp only [Form.slots, In.cons_iff, In.ofNode_iff, In.ofNode?_iff, In.ofList?_iff] at parts
    casesm* _ ∧ _
    infer_instance

theorem node_walks (n : Node) : Walks n (node n) := by
  rw [node]
  refine @Takes.ite _ _ _ _ _ _ _ inferInstance ?_
  split
  · infer_instance
  iterate 7 exact function_walks n
  iterate 2 exact classLike_walks n
  · refine .ofOption fun list held => inScope_walks ?_ (.self n) _
    have : In n list.items :=
      In.list_iff.mpr fun _ mem => (In.self n).child (Node.mem_children_of_statements? held mem)
    infer_instance
  iterate 3 exact loop_walks n
  · exact cases_walks n
  · exact catchClause_walks n
  · exact enumeration_walks n
  · exact namespaceBody_walks n
  · exact exportedLocals_walks n
  · exact valueParts_walks n

theorem visitTo_isVisit (depth : Nat) : IsVisit (visitTo depth) := by
  induction depth with
  | zero => exact fun n s => ⟨[], .done n, rfl⟩
  | succ depth ih => exact fun n s => (node_walks n).takes _ ih s trivial

end Bind

end ScriptFrontend
