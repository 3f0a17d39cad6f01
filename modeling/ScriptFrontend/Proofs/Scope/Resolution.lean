import ScriptFrontend.Proofs.Numbering.Ledger
import ScriptFrontend.Proofs.Scope.Store

/-!
# What names stand for

A name stands for a symbol of its own text, and whatever declares a symbol declares it by that text.
-/

namespace ScriptFrontend

variable {l : Ledger} {n m : Node} {t : ScopeTable}

/-! ## Names -/

def Shape.nameText? : Shape → Option String
  | .identifier text _ => some text
  | .literal text _ _ => some text
  | _ => none

theorem Node.nameText?_eq (n : Node) : n.nameText? = n.shape.nameText? := by
  rw [nameText?, identifierText?, literalText?]
  cases n.shape <;> rfl

theorem Node.nameText?_of_identifierText? {text : String} (is : n.identifierText? = some text) :
    n.nameText? = some text := by
  rw [nameText?, is]
  rfl

def Node.nameOf? (n : Node) : Option String := n.name?.bind nameText?

/-- A node with a text was read, so the ledger has its mark. -/
theorem Within.has (h : Within l n) {text : String} (named : n.nameText? = some text) : l.Has n.mark := by
  refine h.mark.resolve_left fun blank => ?_
  have shape : n.shape = Node.blank.shape := congrArg Mark.shape blank
  rw [Node.nameText?_eq, shape] at named
  cases named

/-! ## Ledgers -/

theorem Within.inside (h : Within l n) (contains : n.Contains m) : Within l m :=
  contains.closed (fun _ _ => Within.child) h

class Ledger.IsPartOf (l' : Ledger) (l : outParam Ledger) : Prop where
  has : ∀ m, l'.Has m → l.Has m

theorem Ledger.IsPartOf.within {l' : Ledger} [part : l'.IsPartOf l] (h : Within l' n) : Within l n :=
  ⟨fun m mem => (h.holds m mem).imp_right (part.has m)⟩

/-! ## Tables -/

/-- Symbols have the texts of their declarations, of the names that stand for them, and of the names under
which scopes know them. In scopes other than that of the file, they are declared by nodes in the second
ledger. -/
structure ScopeTable.Fits (l l' : Ledger) (t : ScopeTable) : Prop where
  declared : ∀ (i : Nat) (s : Symbol), t.symbols[i]? = some s → ∀ d ∈ s.declarations,
    d.nameOf? = some s.name ∧ (s.scope = 0 ∨ l'.Holds d.mark)
  resolved : ∀ k i : Nat, t.resolved[k]? = some i →
    ∃ m s, l.Has m ∧ m.id = k ∧ t.symbols[i]? = some s ∧ m.shape.nameText? = some s.name
  locals : ∀ (j : Nat) (name : String) (i : Nat), (t.scope j).symbol? name = some i →
    ∃ s, t.symbols[i]? = some s ∧ s.name = name ∧ s.scope = j
  file : ∃ s, t.scopes[0]? = some s ∧ s.container.kind = .sourceFile

namespace ScopeTable.Fits

variable {l' : Ledger}

theorem ofRoot (l l' : Ledger) {root : Node} (kind : root.kind = .sourceFile) : (ofRoot root).Fits l l' where
  declared i s found := by simp [ScopeTable.ofRoot] at found
  resolved k i found := by simp [ScopeTable.ofRoot] at found
  locals j name i found := by
    have empty : ((ScopeTable.ofRoot root).scope j).locals = [] := by
      rcases j with _ | j <;> rfl
    rw [Scope.symbol?, empty] at found
    cases found
  file := ⟨_, rfl, kind⟩

theorem addScope (h : t.Fits l l') {s : Scope} (empty : s.locals = []) : (t.addScope s).Fits l l' where
  declared := h.declared
  resolved := h.resolved
  locals j name i found := by
    rw [scope_addScope] at found
    split at found
    · rw [Scope.symbol?, empty] at found
      cases found
    · exact h.locals j name i found
  file := by
    obtain ⟨s', first, kind⟩ := h.file
    refine ⟨s', ?_, kind⟩
    rw [ScopeTable.addScope, Array.getElem?_push, if_neg (Array.getElem?_eq_some_iff.mp first).1.ne, first]

/-- A name is known in a scope under the number that it is given there. -/
theorem symbolIn (h : t.Fits l l') (i : Nat) (name : String) :
    (t.symbolIn i name).2.Fits l l' ∧ (t.symbolIn i name).2.resolved = t.resolved ∧
      ∃ s, (t.symbolIn i name).2.symbols[(t.symbolIn i name).1]? = some s ∧ s.name = name ∧ s.scope = i := by
  rw [ScopeTable.symbolIn]
  split
  · exact ⟨h, rfl, h.locals i name _ ‹_›⟩
  · have kept {k : Nat} {s : Symbol} (found : t.symbols[k]? = some s) :
        (t.symbols.push { name, scope := i })[k]? = some s := by
      rw [Array.getElem?_push, if_neg (Array.getElem?_eq_some_iff.mp found).1.ne, found]
    refine ⟨⟨fun k s found => ?_, fun k j found => ?_, fun j known k found => ?_, ?_⟩, rfl, _,
      Array.getElem?_push_size, rfl, rfl⟩
    · rw [Array.getElem?_push] at found
      split at found
      · cases found
        exact List.forall_mem_nil _
      · exact h.declared k s found
    · obtain ⟨m, s, has, id, symbol, text⟩ := h.resolved k j found
      exact ⟨m, s, has, id, kept symbol, text⟩
    · have old (found : (t.scope j).symbol? known = some k) := h.locals j known k found
      have later (found : ∃ s, t.symbols[k]? = some s ∧ s.name = known ∧ s.scope = j) :
          ∃ s, (t.symbols.push { name, scope := i })[k]? = some s ∧ s.name = known ∧ s.scope = j :=
        found.imp fun _ held => ⟨kept held.1, held.2⟩
      rw [ScopeTable.scope, Array.getD_eq_getD_getElem?] at old
      rw [ScopeTable.scope, Array.getD_eq_getD_getElem?, Array.getElem?_modify] at found
      split at found
      · rename_i same
        cases held : t.scopes[j]? with
        | none =>
          rw [held] at found old
          exact later (old found)
        | some scope =>
          rw [held] at found old
          rw [Option.map_some, Option.getD_some, Scope.symbol?, List.lookup_cons] at found
          split at found
          · rename_i here
            cases found
            exact ⟨_, Array.getElem?_push_size, (eq_of_beq here).symm, same⟩
          · exact later (old found)
      · exact later (old found)
    · obtain ⟨s, first, kind⟩ := h.file
      rw [Array.getElem?_modify, first]
      split <;> exact ⟨_, rfl, kind⟩

theorem declare (h : t.Fits l l') {i : Nat} {name declaration : Node} (inside : Within l name)
    (named : declaration.name? = some name) (place : i = 0 ∨ l'.Holds declaration.mark) (flags : SymbolFlags)
    (isExported : Bool) : (t.declare i name declaration flags isExported).Fits l l' := by
  rw [ScopeTable.declare]
  split
  · exact h
  · exact h
  · rename_i text _ found
    obtain ⟨fits, same, s, symbol, is, scope⟩ := h.symbolIn i text
    generalize t.symbolIn i text = made at fits same symbol
    obtain ⟨k, t'⟩ := made
    have kept {j : Nat} {s : Symbol} (held : t'.symbols[j]? = some s) : ∃ s',
        (t'.symbols.modify k (·.declare declaration flags isExported))[j]? = some s' ∧
          s'.name = s.name ∧ s'.scope = s.scope := by
      rw [Array.getElem?_modify, held]
      split <;> exact ⟨_, rfl, rfl, rfl⟩
    refine ⟨fun j s' held d mem => ?_, fun id j held => ?_, fun j known i held => ?_, fits.file⟩
    · rw [Array.getElem?_modify] at held
      split at held
      · rename_i here
        cases here
        rw [symbol, Option.map_some] at held
        cases held
        rcases List.mem_append.mp mem with old | new
        · exact fits.declared _ _ symbol d old
        · cases List.mem_singleton.mp new
          rw [Node.nameOf?, named, Option.bind_some, found]
          exact ⟨congrArg some is.symm, scope ▸ place⟩
      · exact fits.declared j s' held d mem
    · rw [Std.HashMap.getElem?_insert] at held
      split at held
      · rename_i here
        cases held
        obtain ⟨s', symbol', same', -⟩ := kept symbol
        exact ⟨name.mark, s', inside.has found, eq_of_beq here, symbol', by
          rw [same', is, ← found, Node.nameText?_eq]; rfl⟩
      · obtain ⟨m, s, has, number, symbol, text⟩ := fits.resolved id j (same ▸ held)
        obtain ⟨s', symbol', same', -⟩ := kept symbol
        exact ⟨m, s', has, number, symbol', text.trans (congrArg some same'.symm)⟩
    · obtain ⟨s, symbol, named, scope⟩ := fits.locals j known i held
      obtain ⟨s', symbol', same, same'⟩ := kept symbol
      exact ⟨s', symbol', same.trans named, same'.trans scope⟩

theorem lookup? (h : t.Fits l l') {i : Nat} {name : String} {k : Nat} (found : t.lookup? i name = some k) :
    ∃ s, t.symbols[k]? = some s ∧ s.name = name := by
  obtain ⟨j, known⟩ := symbol?_of_lookup? found
  obtain ⟨s, held, named, -⟩ := h.locals j name k known
  exact ⟨s, held, named⟩

theorem refer (h : t.Fits l l') (i : Nat) {name : Node} (inside : Within l name) :
    (t.refer i name).Fits l l' := by
  rw [ScopeTable.refer]
  split
  · exact h
  · rename_i text named
    replace named := Node.nameText?_of_identifierText? named
    split
    · rename_i symbol found
      obtain ⟨s, symbol, is⟩ := h.lookup? found
      refine ⟨h.declared, fun k j resolved => ?_, h.locals, h.file⟩
      rw [Std.HashMap.getElem?_insert] at resolved
      split at resolved
      · rename_i here
        cases resolved
        exact ⟨name.mark, s, inside.has named, eq_of_beq here, symbol, by
          rw [is, ← named, Node.nameText?_eq]; rfl⟩
      · exact h.resolved k j resolved
    · exact ⟨h.declared, h.resolved, h.locals, h.file⟩

theorem name_of_symbol? (h : t.Fits l l') (within : Within l n) {text : String} (named : n.nameText? = some text)
    {s : Symbol} (found : t.symbol? n = some s) : s.name = text := by
  obtain ⟨j, resolved, held⟩ := Option.bind_eq_some_iff.mp found
  rw [symbolOf?, Node.parsed_of_origin within.parsed] at resolved
  split at resolved
  · cases resolved
  · obtain ⟨m, s', has, same, held', text'⟩ := h.resolved n.id j resolved
    cases held.symm.trans held'
    have mark : m = n.mark := has.entry.symm.trans ((congrArg l.entry same).trans (within.has named).entry)
    rw [mark] at text'
    exact Option.some.inj (text'.symm.trans ((Node.nameText?_eq n).symm.trans named))

end ScopeTable.Fits

/-! ## Binding -/

variable {l' : Ledger} {c : Node} {s : BindState} {es : List BindStep}

/-- In the scope of the file, nodes of the first ledger may be declared that are not in the second one. -/
theorem OnlyDeclares.fits {place : ScopePlace} (h : OnlyDeclares (Within l) place es) (file : s.scopeAt place = 0)
    (fits : s.table.Fits l l') : (s.run es).table.Fits l l' := by
  induction es generalizing s with
  | nil => exact fits
  | cons e es ih =>
    obtain ⟨⟨d, rfl, within⟩, rest⟩ := List.forall_mem_cons.mp h
    have name : Within l d.name := within.child (Node.mem_children_of_name? d.named)
    exact ih rest ((s.scopeAt_declare place d place).trans file)
      (fits.declare name d.named (.inl file) d.flags d.isExported)

/-- A walk in a node of the second ledger keeps tables in order. -/
theorem Walk.fits [l'.IsPartOf l] (h : Walk c es) (within : Within l' c) (fits : s.table.Fits l l') :
    (s.run es).table.Fits l l' := by
  induction h generalizing s with
  | done => exact fits
  | @declare _ d _ place inside _ ih =>
    have held := within.inside inside
    have name : Within l' d.name := held.child (Node.mem_children_of_name? d.named)
    exact ih within (fits.declare (Ledger.IsPartOf.within name) d.named (.inr held.mark) d.flags d.isExported)
  | refer inside _ ih => exact ih within (fits.refer _ (Ledger.IsPartOf.within (within.inside inside)))
  | scope kind inside _ _ ih ih' =>
    rw [BindState.run_cons, BindState.run_append, BindState.run_cons]
    exact ih' within (ih (within.inside inside) (fits.addScope rfl))

namespace Bind

theorem within_statements (h : Within l' n) : Within l' (((n.statements?).map (·.items)).getD []) := by
  cases held : n.statements? with
  | none => exact inferInstanceAs (Within l' ([] : List Node))
  | some list => exact .of_forall fun _ mem => h.child (Node.mem_children_of_statements? held mem)

/-! ## Imports -/

/-- A statement without others inside it declares only variables of its own. -/
theorem functionVariables_eq_nil (own : n.ownFunctionVariables = []) (flat : n.kind.nestsStatements = false) :
    n.functionVariables = [] := by
  obtain ⟨h, s, slots, docs, origin⟩ := n
  rw [Node.functionVariables, own, List.nil_append]
  exact if_neg (Bool.eq_false_iff.mp flat)

/-- The statement imports a module, and does nothing else than to bind names to that. -/
inductive IsImport (n : Node) : Prop
  | declaration {p : Form.ImportDeclaration} (form : n.form = .importDeclaration p)
    (kind : n.kind = .importDeclaration)
  | equals {p : Form.ImportEquals} (form : n.form = .importEquals p) (kind : n.kind = .importEqualsDeclaration)
    (reference : p.reference.kind = .externalModuleReference)

namespace IsImport

theorem functionVariables_eq (is : IsImport n) : n.functionVariables = [] := by
  refine functionVariables_eq_nil ?_ ?_
  · rw [Node.ownFunctionVariables]
    cases is with
    | declaration form | equals form => rw [form]
  · cases is with
    | declaration _ kind | equals _ kind => rw [kind]; rfl

theorem node_eq (is : IsImport n) : node n = pure () := by
  rw [node]
  cases is with
  | declaration _ kind => rw [kind]; rfl
  | equals form kind reference =>
    rw [kind]
    change valueParts n = pure ()
    rw [valueParts, form]
    dsimp only
    rw [reference]
    rfl

theorem visitTo_eq (is : IsImport n) (depth : Nat) (s : BindState) : visitTo depth n s = ((), s) := by
  cases depth with
  | zero => rfl
  | succ depth =>
    rw [visitTo, is.node_eq]
    rfl

end IsImport

/-! ## The whole tree -/

variable [l'.IsPartOf l]

theorem visitAll_fits {items : List Node} (own : ∀ n ∈ items, Within l' n ∨ IsImport n) (depth : Nat)
    (s : BindState) (fits : s.table.Fits l l') : (visitAll items (visitTo depth) s).2.table.Fits l l' := by
  induction items generalizing s with
  | nil => exact fits
  | cons n items ih =>
    obtain ⟨first, rest⟩ := List.forall_mem_cons.mp own
    refine ih rest (visitTo depth n s).2 ?_
    rcases first with inside | is
    · obtain ⟨es, walk, same⟩ := visitTo_isVisit depth n s
      exact same ▸ walk.fits inside fits
    · rw [is.visitTo_eq]
      exact fits

end Bind

/-- In the table of a tree whose nodes are in a ledger, symbols have the texts of all that declares them and of
all that stands for them. What imports declare is declared in the scope of the file only. -/
theorem ScopeTable.ofTree_fits {l' : Ledger} [l'.IsPartOf l] {root : Node} (kind : root.kind = .sourceFile)
    (h : Within l root)
    (own : ∀ n ∈ ((root.statements?).map (·.items)).getD [], Within l' n ∨ Bind.IsImport n) :
    (ofTree root).Fits l l' := by
  have inside := Bind.within_statements h
  rw [ofTree]
  generalize ((root.statements?).map (·.items)).getD [] = items at own inside
  have declared {n m : Node} (mem : n ∈ items) (contains : n.Contains m) : Within l m :=
    (inside.of_mem mem).inside contains
  have hoisted : Takes (OnlyDeclares (Within l) .hoisted) (fun _ => True) (Bind.declareFunctionVariables items) :=
    Bind.declareFunctionVariables_takes fun n mem p held m contains =>
      declared mem ((Node.contains_functionVariables n p held).trans contains)
  have statements : Takes (OnlyDeclares (Within l) .innermost) (fun _ => True) (items.forM Bind.declareStatement) :=
    Bind.declareStatements_takes fun n mem m contains => declared mem contains
  have visits := Bind.visitTo_isVisit root.height
  -- both declare in the scope of the file, for there is no other one yet
  obtain ⟨es, only, same⟩ := hoisted.takes _ visits ⟨.ofRoot root, 0⟩ trivial
  obtain ⟨es', only', same'⟩ := statements.takes _ visits (BindState.run ⟨.ofRoot root, 0⟩ es) trivial
  have begun : (BindState.table ⟨.ofRoot root, 0⟩).Fits l l' := .ofRoot l l' kind
  have fits := only'.fits (only.scopeAt _) (only.fits rfl begun)
  rw [← same', ← same] at fits
  exact Bind.visitAll_fits own root.height _ fits

end ScriptFrontend
