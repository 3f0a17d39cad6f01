import Mathlib.Data.List.Nodup
import ScriptFrontend.Proofs.Scope.Walk

/-!
# The store of scopes and symbols

Scopes and symbols are known by their numbers alone. Whatever steps binding takes, the numbers that a table holds
are those of scopes and symbols that there are: a scope lies in one with a smaller number, and a symbol is known in
its own scope under its own name and nowhere else. So declarations share a symbol just if they are for the same
scope and have the same name.
-/

namespace ScriptFrontend

/-- A declaration with the scope and the name that it is for, and the symbol that it was given. -/
structure Entry where
  scope : Nat
  text : String
  node : Node
  symbol : Nat

/-- What a declaration in a scope adds. A name without a text declares nothing. -/
def Declaration.entries (d : Declaration) (t : ScopeTable) (scope : Nat) : List Entry :=
  (d.name.nameText?.filter (· != "")).toList.map fun text =>
    { scope, text, node := d.node, symbol := (t.symbolIn scope text).1 }

def BindStep.entries (s : BindState) : BindStep → List Entry
  | .declare place d => d.entries s.table (s.scopeAt place)
  | .refer _ | .enter .. | .leave => []

def BindState.entries (s : BindState) : List BindStep → List Entry
  | [] => []
  | e :: es => e.entries s ++ (e.apply s).entries es

variable {t : ScopeTable} {entries : List Entry} {i j k : Nat} {name : String}

namespace ScopeTable

/-! ## Tables -/

theorem scope_eq_default (beyond : t.scopes.size ≤ i) : t.scope i = default := by
  rw [scope, Array.getD_eq_getD_getElem?, Array.getElem?_eq_none beyond]
  rfl

theorem scope_addScope (t : ScopeTable) (s : Scope) (j : Nat) :
    (t.addScope s).scope j = if j = t.scopes.size then s else t.scope j := by
  rw [scope, scope, addScope, Array.getD_eq_getD_getElem?, Array.getD_eq_getD_getElem?, Array.getElem?_push]
  split <;> rfl

theorem scope_modify (held : i < t.scopes.size) (f : Scope → Scope) (symbols : Array Symbol) (j : Nat) :
    scope { t with symbols, scopes := t.scopes.modify i f } j = if i = j then f (t.scope j) else t.scope j := by
  rw [scope, scope, Array.getD_eq_getD_getElem?, Array.getD_eq_getD_getElem?, Array.getElem?_modify]
  split
  · rename_i same
    rw [Array.getElem?_eq_getElem (same ▸ held)]
    rfl
  · rfl

theorem symbol?_of_lookup? (found : t.lookup? i name = some k) : ∃ j, (t.scope j).symbol? name = some k := by
  rw [lookup?] at found
  generalize t.scopes.size = fuel at found
  induction fuel generalizing i with
  | zero => exact ⟨i, found⟩
  | succ fuel ih =>
    rw [lookup?.go] at found
    split at found
    · exact ⟨i, found ▸ ‹_›⟩
    · exact ih found
    · cases found

/-- All numbers in the table are in order, and its symbols are those of the entries. -/
structure Keeps (t : ScopeTable) (entries : List Entry) : Prop where
  parent : ∀ i p : Nat, (t.scope i).parent = some p → p < i
  locals : ∀ (i : Nat) (name : String) (k : Nat), (name, k) ∈ (t.scope i).locals ↔
    ∃ s, t.symbols[k]? = some s ∧ s.scope = i ∧ s.name = name
  distinct : ∀ i : Nat, ((t.scope i).locals.map Prod.fst).Nodup
  resolved : ∀ id k : Nat, t.resolved[id]? = some k → k < t.symbols.size
  known : ∀ e ∈ entries, ∃ s, t.symbols[e.symbol]? = some s ∧ s.scope = e.scope ∧ s.name = e.text
  declarations : ∀ (k : Nat) (s : Symbol), t.symbols[k]? = some s →
    s.declarations = (entries.filter (·.symbol == k)).map Entry.node

namespace Keeps

theorem ofRoot (root : Node) : (ofRoot root).Keeps [] where
  parent i p is := by
    rcases i with _ | i <;> cases is
  locals i name k := by
    have none : ((ScopeTable.ofRoot root).scope i).locals = [] := by
      rcases i with _ | i <;> rfl
    rw [none]
    simp [ScopeTable.ofRoot]
  distinct i := by
    rcases i with _ | i <;> exact List.nodup_nil
  resolved id k is := by simp [ScopeTable.ofRoot] at is
  known := List.forall_mem_nil _
  declarations k s is := by simp [ScopeTable.ofRoot] at is

theorem symbol?_iff (h : t.Keeps entries) :
    (t.scope i).symbol? name = some k ↔ ∃ s, t.symbols[k]? = some s ∧ s.scope = i ∧ s.name = name := by
  rw [← h.locals, Scope.symbol?]
  constructor
  · intro found
    obtain ⟨before, behind, same, -⟩ := List.lookup_eq_some_iff.mp found
    exact same ▸ List.mem_append_cons_self
  · intro mem
    cases found : (t.scope i).locals.lookup name with
    | none => simpa using List.lookup_eq_none_iff.mp found _ mem
    | some k' =>
      obtain ⟨before, behind, same, -⟩ := List.lookup_eq_some_iff.mp found
      have mem' : (name, k') ∈ (t.scope i).locals := same ▸ List.mem_append_cons_self
      have both := List.inj_on_of_nodup_map (h.distinct i) mem' mem rfl
      exact congrArg (some ·.2) both

theorem unique (h : t.Keeps entries) {k' : Nat} {s s' : Symbol} (held : t.symbols[k]? = some s)
    (held' : t.symbols[k']? = some s') (scope : s.scope = s'.scope) (name : s.name = s'.name) : k = k' :=
  Option.some.inj ((h.symbol?_iff.mpr ⟨s, held, scope, name⟩).symm.trans (h.symbol?_iff.mpr ⟨s', held', rfl, rfl⟩))

theorem scope_lt (h : t.Keeps entries) {s : Symbol} (held : t.symbols[k]? = some s) : s.scope < t.scopes.size := by
  by_contra beyond
  have mem := (h.locals _ _ k).mpr ⟨s, held, rfl, rfl⟩
  rw [scope_eq_default (Nat.le_of_not_lt beyond)] at mem
  cases mem

theorem variableScope_le (h : t.Keeps entries) (i : Nat) : t.variableScope i ≤ i := by
  rw [variableScope]
  generalize t.scopes.size = fuel
  induction fuel generalizing i with
  | zero => exact Nat.le_refl i
  | succ fuel ih =>
    rw [variableScope.go]
    split
    · rename_i p parent
      split
      · exact Nat.le_refl i
      · exact Nat.le_trans (ih p) (Nat.le_of_lt (h.parent i p parent))
    · exact Nat.le_refl i

theorem addScope (h : t.Keeps entries) (kind : ScopeKind) (container : Node) (held : i < t.scopes.size) :
    (t.addScope ⟨kind, container, [], some i⟩).Keeps entries where
  parent j p is := by
    rw [scope_addScope] at is
    split at is
    · cases is
      omega
    · exact h.parent j p is
  locals j name k := by
    rw [scope_addScope]
    split
    · refine iff_of_false List.not_mem_nil ?_
      rintro ⟨s, found, rfl, -⟩
      exact absurd (h.scope_lt found) (by omega)
    · exact h.locals j name k
  distinct j := by
    rw [scope_addScope]
    split
    · exact List.nodup_nil
    · exact h.distinct j
  resolved := h.resolved
  known := h.known
  declarations := h.declarations

theorem filter_next (h : t.Keeps entries) : entries.filter (·.symbol == t.symbols.size) = [] := by
  refine List.filter_eq_nil_iff.mpr fun e mem same => ?_
  obtain ⟨s, found, -⟩ := h.known e mem
  have lt := (Array.getElem?_eq_some_iff.mp found).1
  exact absurd (eq_of_beq same) (by omega)

theorem addSymbol (h : t.Keeps entries) (held : i < t.scopes.size) (fresh : (t.scope i).symbol? name = none) :
    Keeps { t with
      symbols := t.symbols.push { name, scope := i }
      scopes := t.scopes.modify i fun s => { s with locals := (name, t.symbols.size) :: s.locals } } entries := by
  have scopes := t.scope_modify held (fun s => { s with locals := (name, t.symbols.size) :: s.locals })
    (t.symbols.push { name, scope := i })
  have kept {k : Nat} {s : Symbol} (found : t.symbols[k]? = some s) :
      (t.symbols.push { name, scope := i })[k]? = some s := by
    rw [Array.getElem?_push, if_neg (Nat.ne_of_lt (Array.getElem?_eq_some_iff.mp found).1), found]
  refine ⟨fun j p is => ?_, fun j known k => ?_, fun j => ?_, fun id k is => ?_, fun e mem => ?_, fun k s is => ?_⟩
  · rw [scopes] at is
    split at is <;> exact h.parent j p is
  · have old := h.locals j known k
    rw [scopes, Array.getElem?_push]
    by_cases new : k = t.symbols.size
    · -- the number is new, so no scope held it before
      have none : t.symbols[k]? = none := Array.getElem?_eq_none (by omega)
      rw [none] at old
      split
      all_goals simp_all [eq_comm]
    · split
      all_goals simp_all
  · rw [scopes]
    split
    · rename_i same
      subst same
      refine List.nodup_cons.mpr ⟨fun mem => ?_, h.distinct i⟩
      obtain ⟨p, inside, is⟩ := List.mem_map.mp mem
      simpa [is] using List.lookup_eq_none_iff.mp fresh p inside
    · exact h.distinct j
  · rw [Array.size_push]
    exact Nat.lt_succ_of_lt (h.resolved id k is)
  · obtain ⟨s, found, is⟩ := h.known e mem
    exact ⟨s, kept found, is⟩
  · rw [Array.getElem?_push] at is
    split at is
    · rename_i new
      cases is
      rw [new, h.filter_next]
      rfl
    · exact h.declarations k s is

theorem symbolIn (h : t.Keeps entries) (held : i < t.scopes.size) (name : String) :
    (t.symbolIn i name).2.Keeps entries ∧
      ∃ s, (t.symbolIn i name).2.symbols[(t.symbolIn i name).1]? = some s ∧ s.scope = i ∧ s.name = name := by
  rw [ScopeTable.symbolIn]
  split
  · exact ⟨h, h.symbol?_iff.mp ‹_›⟩
  · exact ⟨h.addSymbol held ‹_›, _, Array.getElem?_push_size, rfl, rfl⟩

theorem addDeclaration (h : t.Keeps entries) {s : Symbol} (held : t.symbols[k]? = some s) (declaration : Node)
    (flags : SymbolFlags) (isExported : Bool) (id : Nat) :
    Keeps { t with
      symbols := t.symbols.modify k (·.declare declaration flags isExported)
      resolved := t.resolved.insert id k } (entries ++ [⟨s.scope, s.name, declaration, k⟩]) := by
  have same (j : Nat) (is : Symbol → Prop) (only : ∀ s, is (s.declare declaration flags isExported) ↔ is s) :
      (∃ s, (t.symbols.modify k (·.declare declaration flags isExported))[j]? = some s ∧ is s) ↔
        ∃ s, t.symbols[j]? = some s ∧ is s := by
    rw [Array.getElem?_modify]
    split
    · cases t.symbols[j]? with
      | none => rfl
      | some s => simp [only]
    · rfl
  refine ⟨h.parent, fun i name j => ?_, h.distinct, fun id' j is => ?_, ?_, fun j s' is => ?_⟩
  · exact (h.locals i name j).trans (same j _ fun _ => Iff.rfl).symm
  · rw [Array.size_modify]
    rw [Std.HashMap.getElem?_insert] at is
    split at is
    · cases is
      exact (Array.getElem?_eq_some_iff.mp held).1
    · exact h.resolved id' j is
  · intro e mem
    refine (same e.symbol _ fun _ => Iff.rfl).mpr ?_
    rcases List.mem_append.mp mem with old | new
    · exact h.known e old
    · cases List.mem_singleton.mp new
      exact ⟨s, held, rfl, rfl⟩
  · rw [Array.getElem?_modify] at is
    rw [List.filter_append, List.map_append]
    split at is
    · rename_i here
      subst here
      rw [held] at is
      cases is
      rw [List.filter_cons_of_pos (by simp), List.filter_nil, ← h.declarations k s held]
      rfl
    · rw [List.filter_cons_of_neg (by simpa using ‹_›), List.filter_nil, List.map_nil, List.append_nil]
      exact h.declarations j s' is

theorem declare (h : t.Keeps entries) (held : i < t.scopes.size) (d : Declaration) :
    (t.declare i d.name d.node d.flags d.isExported).Keeps (entries ++ d.entries t i) := by
  rw [ScopeTable.declare]
  split
  · rename_i reads
    rw [Declaration.entries, reads]
    exact (List.append_nil entries).symm ▸ h
  · rename_i reads
    rw [Declaration.entries, reads]
    exact (List.append_nil entries).symm ▸ h
  · rename_i text written reads
    obtain ⟨kept, s, symbol, scope, name⟩ := h.symbolIn held text
    have added : d.entries t i = [⟨s.scope, s.name, d.node, (t.symbolIn i text).1⟩] := by
      rw [Declaration.entries, reads, Option.filter_some_pos (by simpa using written), scope, name]
      rfl
    rw [added]
    exact kept.addDeclaration symbol d.node d.flags d.isExported d.name.id

theorem refer (h : t.Keeps entries) (i : Nat) (name : Node) : (t.refer i name).Keeps entries := by
  rw [ScopeTable.refer]
  split
  · exact h
  · split
    · rename_i k found
      obtain ⟨j, known⟩ := symbol?_of_lookup? found
      obtain ⟨s, held, -⟩ := h.symbol?_iff.mp known
      refine { h with resolved := fun id k' is => ?_ }
      rw [Std.HashMap.getElem?_insert] at is
      split at is
      · cases is
        exact (Array.getElem?_eq_some_iff.mp held).1
      · exact h.resolved id k' is
    · exact { h with }

end Keeps

end ScopeTable

/-! ## Steps -/

def BindState.ofRoot (root : Node) : BindState := ⟨.ofRoot root, 0⟩

/-- The table keeps the entries, and the current scope is one of it. -/
structure BindState.Keeps (s : BindState) (entries : List Entry) : Prop where
  table : s.table.Keeps entries
  current : s.current < s.table.scopes.size

namespace BindState.Keeps

variable {s : BindState}

theorem ofRoot (root : Node) : (ofRoot root).Keeps [] := ⟨.ofRoot root, Nat.zero_lt_one⟩

theorem scopeAt_lt (h : s.Keeps entries) (place : ScopePlace) : s.scopeAt place < s.table.scopes.size := by
  cases place with
  | innermost => exact h.current
  | hoisted => exact Nat.lt_of_le_of_lt (h.table.variableScope_le _) h.current

theorem apply (h : s.Keeps entries) (e : BindStep) : (e.apply s).Keeps (entries ++ e.entries s) := by
  cases e with
  | declare place d =>
    have size : (s.table.declare (s.scopeAt place) d.name d.node d.flags d.isExported).scopes.size =
        s.table.scopes.size := by
      rw [← ScopeTable.length_frames, ScopeTable.frames_declare, ScopeTable.length_frames]
    exact ⟨h.table.declare (h.scopeAt_lt place) d, Nat.lt_of_lt_of_eq h.current size.symm⟩
  | refer name =>
    have size : (s.table.refer s.current name).scopes.size = s.table.scopes.size := by
      rw [← ScopeTable.length_frames, ScopeTable.frames_refer, ScopeTable.length_frames]
    rw [BindStep.entries, List.append_nil]
    exact ⟨h.table.refer s.current name, Nat.lt_of_lt_of_eq h.current size.symm⟩
  | enter kind container =>
    rw [BindStep.entries, List.append_nil]
    refine ⟨h.table.addScope kind container h.current, ?_⟩
    exact Nat.lt_of_lt_of_eq (Nat.lt_succ_self _) (Array.size_push _).symm
  | leave =>
    rw [BindStep.entries, List.append_nil]
    refine ⟨h.table, ?_⟩
    change (s.table.scope s.current).parent.getD s.current < s.table.scopes.size
    cases parent : (s.table.scope s.current).parent with
    | none => exact h.current
    | some p => exact Nat.lt_trans (h.table.parent _ p parent) h.current

theorem run (h : s.Keeps entries) (es : List BindStep) : (s.run es).Keeps (entries ++ s.entries es) := by
  induction es generalizing s entries with
  | nil =>
    rw [BindState.entries, List.append_nil]
    exact h
  | cons e es ih =>
    rw [BindState.entries, ← List.append_assoc]
    exact ih (h.apply e)

end BindState.Keeps

/-! ## Walks -/

/-- Scopes are made by nodes in those that make the scopes around them. The node stands in what makes the current
scope. -/
structure BindState.Encloses (s : BindState) (c : Node) : Prop where
  nested : ∀ i p : Nat, (s.table.scope i).parent = some p →
    (s.table.scope p).container.Contains (s.table.scope i).container
  inside : (s.table.scope s.current).container.Contains c

namespace BindState.Encloses

variable {s s' : BindState} {c m : Node}

theorem ofRoot (root : Node) : (ofRoot root).Encloses root where
  nested i p parent := by
    rcases i with _ | i <;> cases parent
  inside := .refl root

theorem congr (h : s.Encloses c) (frames : s'.table.frames = s.table.frames) (current : s'.current = s.current) :
    s'.Encloses c := by
  have frame (i : Nat) : (s'.table.scope i).frame = (s.table.scope i).frame := by
    rw [ScopeTable.frame_scope, ScopeTable.frame_scope, frames]
  have container (i : Nat) : (s'.table.scope i).container = (s.table.scope i).container := congrArg (·.2.1) (frame i)
  have parent (i : Nat) : (s'.table.scope i).parent = (s.table.scope i).parent := congrArg (·.2.2) (frame i)
  constructor
  · intro i p is
    rw [container, container]
    exact h.nested i p (parent i ▸ is)
  · rw [current, container]
    exact h.inside

/-- Each scope that a declaration may be for is made by a node around the declaration. -/
theorem scopeAt (h : s.Encloses c) (place : ScopePlace) : (s.table.scope (s.scopeAt place)).container.Contains c := by
  cases place with
  | innermost => exact h.inside
  | hoisted =>
    have inside := h.inside
    change (s.table.scope (s.table.variableScope s.current)).container.Contains c
    rw [ScopeTable.variableScope]
    generalize s.table.scopes.size = fuel at *
    generalize s.current = i at inside
    induction fuel generalizing i with
    | zero => exact inside
    | succ fuel ih =>
      rw [ScopeTable.variableScope.go]
      split
      · rename_i p parent
        split
        · exact inside
        · exact ih p ((h.nested i p parent).trans inside)
      · exact inside

theorem enter (h : s.Encloses c) (keeps : s.Keeps entries) (inside : c.Contains m) (kind : ScopeKind) :
    ((BindStep.enter kind m).apply s).Encloses m := by
  have scopes (i : Nat) : ((BindStep.enter kind m).apply s).table.scope i =
      if i = s.table.scopes.size then ⟨kind, m, [], some s.current⟩ else s.table.scope i :=
    s.table.scope_addScope _ i
  constructor
  · intro i p parent
    rw [scopes] at parent
    rw [scopes i, scopes p]
    split at parent
    · rename_i new
      cases parent
      rw [if_pos new, if_neg (Nat.ne_of_lt keeps.current)]
      exact h.inside.trans inside
    · rename_i old
      have before := keeps.table.parent i p parent
      have held : i < s.table.scopes.size := by
        by_contra beyond
        rw [ScopeTable.scope_eq_default (Nat.le_of_not_lt beyond)] at parent
        cases parent
      rw [if_neg old, if_neg (by omega)]
      exact h.nested i p parent
  · change ((s.table.addScope _).scope s.table.scopes.size).container.Contains m
    rw [ScopeTable.scope_addScope, if_pos rfl]
    exact .refl m

theorem back (h : s.Encloses c) (keeps : s.Keeps entries) (h' : s'.Encloses m)
    (kept : s.table.frames <+: s'.table.frames) : Encloses { s' with current := s.current } c where
  nested := h'.nested
  inside := by
    have container : (s'.table.scope s.current).container = (s.table.scope s.current).container :=
      congrArg (·.2.1) (ScopeTable.frame_scope_kept kept keeps.current)
    exact container ▸ h.inside

end BindState.Encloses

/-- The scope of an entry is made by a node around what is declared, which has the name of the entry. -/
structure Entry.StandsIn (e : Entry) (t : ScopeTable) : Prop where
  scope_lt : e.scope < t.scopes.size
  inside : (t.scope e.scope).container.Contains e.node
  named : e.node.name?.bind Node.nameText? = some e.text

theorem Entry.StandsIn.later {e : Entry} {t' : ScopeTable} (h : e.StandsIn t) (kept : t.frames <+: t'.frames) :
    e.StandsIn t' where
  scope_lt := by
    rw [← ScopeTable.length_frames]
    exact Nat.lt_of_lt_of_le (t.length_frames.symm ▸ h.scope_lt) kept.length_le
  inside := by
    have container : (t'.scope e.scope).container = (t.scope e.scope).container :=
      congrArg (·.2.1) (ScopeTable.frame_scope_kept kept h.scope_lt)
    exact container ▸ h.inside
  named := h.named

theorem BindState.entries_append (s : BindState) (es es' : List BindStep) :
    s.entries (es ++ es') = s.entries es ++ (s.run es).entries es' := by
  induction es generalizing s with
  | nil => rfl
  | cons e es ih => rw [List.cons_append, BindState.entries, BindState.entries, ih, List.append_assoc, run_cons]

theorem Walk.entries_stand {s : BindState} {c : Node} {es : List BindStep} (h : Walk c es) (around : s.Encloses c)
    (keeps : s.Keeps entries) :
    (s.run es).Encloses c ∧ ∀ e ∈ s.entries es, e.StandsIn (s.run es).table := by
  -- the scopes that an entry is about are old ones later, so what holds of them then holds in the end
  induction h generalizing s entries with
  | done => exact ⟨around, List.forall_mem_nil _⟩
  | @declare c d es place inside rest ih =>
    have frames : ((BindStep.declare place d).apply s).table.frames = s.table.frames :=
      s.table.frames_declare _ _ _ _ _
    obtain ⟨around', later⟩ := ih (around.congr frames rfl) (keeps.apply _)
    refine ⟨around', List.forall_mem_append.mpr ⟨fun e mem => ?_, later⟩⟩
    obtain ⟨text, reads, rfl⟩ := List.mem_map.mp mem
    have stands : Entry.StandsIn ⟨s.scopeAt place, text, d.node, (s.table.symbolIn (s.scopeAt place) text).1⟩ s.table :=
      ⟨keeps.scopeAt_lt place, (around.scopeAt place).trans inside, by
        rw [d.named, Option.bind_some]
        exact (Option.eq_some_of_filter_eq_some (Option.mem_toList.mp reads))⟩
    exact stands.later (frames ▸ (rest.frames _).2)
  | refer inside _ ih => exact ih (around.congr (s.table.frames_refer _ _) rfl) (keeps.apply _)
  | @scope c container inner es kind inside within rest ih ih' =>
    let entered := (BindStep.enter kind container).apply s
    have frames : entered.table.frames = s.table.frames ++ [(kind, container, some s.current)] :=
      s.table.frames_addScope _
    obtain ⟨current, kept⟩ := within.frames entered
    obtain ⟨deeper, inner_stand⟩ := ih (around.enter keeps inside kind) (keeps.apply _)
    have around' : (BindStep.leave.apply (entered.run inner)).Encloses c := by
      rw [BindStep.apply_leave current kept]
      exact around.back keeps deeper ((frames ▸ List.prefix_append _ _).trans kept)
    obtain ⟨around'', stand⟩ := ih' around' (((keeps.apply _).run inner).apply .leave)
    rw [BindState.run_cons, BindState.run_append, BindState.run_cons]
    refine ⟨around'', ?_⟩
    change ∀ e ∈ entered.entries (inner ++ .leave :: es), _
    rw [BindState.entries_append]
    refine List.forall_mem_append.mpr ⟨fun e mem => ?_, stand⟩
    exact (inner_stand e mem).later (rest.frames (BindStep.leave.apply (entered.run inner))).2

/-! ## Trees -/

def BindState.ofTree (root : Node) : BindState :=
  (Bind.functionStatements (((root.statements?).map (·.items)).getD []) (Bind.visitTo root.height) (ofRoot root)).2

theorem BindState.ofTree_eq_run (root : Node) : ∃ steps, Walk root steps ∧ ofTree root = (ofRoot root).run steps := by
  have := (In.self root).statements
  have walks : Walks root (Bind.functionStatements (((root.statements?).map (·.items)).getD [])) := inferInstance
  exact walks.takes _ (Bind.visitTo_isVisit root.height) (ofRoot root) trivial

/-- Binding a tree ends in the scope that it begins in. Each scope lies in one with a smaller number. Each symbol is
known in one scope, under its own name, and there only once. All numbers in the table are numbers of scopes and of
symbols that there are. What is declared is declared by a walk in the tree, each time for a scope around it and under
its own name, and two declarations have one symbol just if they are for one scope and have one name. -/
theorem BindState.ofTree_store (root : Node) :
    let t := ScopeTable.ofTree root
    (ofTree root).table = t ∧ (ofTree root).current = 0 ∧
      (∀ i p : Nat, (t.scope i).parent = some p → p < i ∧ i < t.scopes.size) ∧
      (∀ i : Nat, ((t.scope i).locals.map Prod.fst).Nodup) ∧
      (∀ (k : Nat) (s : Symbol), t.symbols[k]? = some s → s.scope < t.scopes.size ∧
        ∀ (i : Nat) (name : String), (name, k) ∈ (t.scope i).locals ↔ i = s.scope ∧ name = s.name) ∧
      (∀ (i : Nat) (name : String) (k : Nat), (name, k) ∈ (t.scope i).locals →
        i < t.scopes.size ∧ k < t.symbols.size) ∧
      (∀ id k : Nat, t.resolved[id]? = some k → k < t.symbols.size) ∧
      ∃ (steps : List BindStep) (declared : List Entry),
        Walk root steps ∧ (ofRoot root).run steps = ofTree root ∧ (ofRoot root).entries steps = declared ∧
        (∀ e ∈ declared, e.StandsIn t ∧
          ∃ s : Symbol, t.symbols[e.symbol]? = some s ∧ s.scope = e.scope ∧ s.name = e.text) ∧
        (∀ (k : Nat) (s : Symbol), t.symbols[k]? = some s →
          s.declarations = (declared.filter (·.symbol == k)).map Entry.node) ∧
        ∀ e ∈ declared, ∀ e' ∈ declared, e.symbol = e'.symbol ↔ e.scope = e'.scope ∧ e.text = e'.text := by
  intro t
  obtain ⟨steps, walk, same⟩ := ofTree_eq_run root
  have table : t = ((ofRoot root).run steps).table := congrArg BindState.table same
  have keeps : t.Keeps ((ofRoot root).entries steps) := by
    rw [table]
    exact ((Keeps.ofRoot root).run steps).table
  have stand : ∀ e ∈ (ofRoot root).entries steps, e.StandsIn t := by
    rw [table]
    exact (walk.entries_stand (.ofRoot root) (.ofRoot root)).2
  have scope_lt {i : Nat} (other : t.scope i ≠ default) : i < t.scopes.size :=
    Nat.lt_of_not_le fun beyond => other (ScopeTable.scope_eq_default beyond)
  refine ⟨rfl, ?_, fun i p parent => ⟨keeps.parent i p parent, scope_lt ?_⟩, keeps.distinct,
    fun k s held => ⟨keeps.scope_lt held, fun i name => ?_⟩, fun i name k mem => ⟨scope_lt ?_, ?_⟩, keeps.resolved,
    steps, _, walk, same.symm, rfl, fun e mem => ⟨stand e mem, keeps.known e mem⟩, keeps.declarations,
    fun e mem e' mem' => ?_⟩
  · rw [same]
    exact (walk.frames (ofRoot root)).1
  · intro empty
    rw [empty] at parent
    cases parent
  · rw [keeps.locals, held]
    simp [eq_comm]
  · intro empty
    rw [empty] at mem
    cases mem
  · obtain ⟨s, held, -⟩ := (keeps.locals i name k).mp mem
    exact (Array.getElem?_eq_some_iff.mp held).1
  · obtain ⟨s, held, scope, name⟩ := keeps.known e mem
    obtain ⟨s', held', scope', name'⟩ := keeps.known e' mem'
    rw [← scope, ← name, ← scope', ← name']
    constructor
    · intro shared
      cases (shared ▸ held).symm.trans held'
      exact ⟨rfl, rfl⟩
    · exact fun is => keeps.unique held held' is.1 is.2

/-! ### Two enumerations with one name -/

/-- The tree of two enumerations with one name, each with one member. The first one has a member of its own name. -/
def mergedEnumerations : Node :=
  let node (kind : Kind) (id : Nat) (form : Form) : Node :=
    .ofForm { kind, id, pos := 0, stop := 0, flags := .empty } form
  let name (id : Nat) (text : String) : Node := node .identifier id (.identifier text none)
  let member (id : Nat) (text : String) : Node := node .enumMember (id + 1) (.enumMember (name id text) none)
  let enumeration (id : Nat) (text : String) : Node :=
    node .enumDeclaration (id + 3) (.enumeration none (name id "A") (.ofItems [member (id + 1) text] 0 0))
  node .sourceFile 10
    (.sourceFile (.ofItems [enumeration 1 "A", enumeration 5 "B"] 0 0) (node .endOfFileToken 9 .token))

/-- The enumerations share a symbol, which the scopes of their members do not know. -/
theorem mergedEnumerations_share :
    let t := ScopeTable.ofTree mergedEnumerations
    ((t.scope 1).parent = some 0 ∧ 0 < 1 ∧ 1 < t.scopes.size) ∧
      (∃ s, t.symbols[0]? = some s ∧ ∀ i name, (name, 0) ∈ (t.scope i).locals ↔ i = s.scope ∧ name = s.name) ∧
      (("A", 0) ∈ (t.scope 0).locals ∧ 0 < t.scopes.size) ∧
      (t.resolved[5]? = some 0 ∧ 0 < t.symbols.size) ∧
      ∃ steps, Walk mergedEnumerations steps ∧
        (((BindState.ofRoot mergedEnumerations).entries steps).filter (·.symbol == 0)).length = 2 := by
  obtain ⟨-, -, parents, -, symbols, locals, resolved, steps, declared, walk, -, rfl, -, declarations, -⟩ :=
    BindState.ofTree_store mergedEnumerations
  have names : (ScopeTable.ofTree mergedEnumerations).resolved =
      (((({} : Std.HashMap Nat Nat).insert 1 0).insert 5 0).insert 2 1).insert 6 2 := rfl
  have found : (ScopeTable.ofTree mergedEnumerations).resolved[5]? = some 0 := by
    rw [names, Std.HashMap.getElem?_insert, if_neg (by decide), Std.HashMap.getElem?_insert, if_neg (by decide),
      Std.HashMap.getElem?_insert_self]
  have known : ("A", 0) ∈ ((ScopeTable.ofTree mergedEnumerations).scope 0).locals := List.mem_cons_self
  have shared := congrArg List.length (declarations 0 _ rfl)
  rw [List.length_map] at shared
  exact ⟨⟨rfl, parents 1 0 rfl⟩, ⟨_, rfl, (symbols 0 _ rfl).2⟩, ⟨known, (locals 0 "A" 0 known).1⟩,
    ⟨found, resolved 5 0 found⟩, steps, walk, shared.symm⟩

end ScriptFrontend
