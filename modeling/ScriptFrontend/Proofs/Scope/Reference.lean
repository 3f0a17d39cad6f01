import ScriptFrontend.Proofs.Scope.Resolution

/-!
# References to imported names

What an import binds is known in the scope of the file before any statement is visited. So a call of that name
is resolved to the part of the import that binds it.
-/

namespace ScriptFrontend

variable {t : ScopeTable} {root n i d e own : Node} {text : String}

/-! ## Tables -/

namespace ScopeTable

theorem lookup?_of_symbol? {j k : Nat} (known : (t.scope j).symbol? text = some k) : t.lookup? j text = some k := by
  rw [lookup?]
  cases t.scopes.size with
  | zero => exact known
  | succ fuel => rw [lookup?.go, known]

/-- A name that is new in a scope gets a symbol of its own. -/
theorem declare_fresh {j : Nat} (inside : j < t.scopes.size) (fresh : (t.scope j).symbol? text = none)
    (named : own.nameText? = some text) (written : text ≠ "") (flags : SymbolFlags) (isExported : Bool) :
    ((t.declare j own d flags isExported).scope j).symbol? text = some t.symbols.size ∧
      (t.declare j own d flags isExported).symbols[t.symbols.size]? =
        some (Symbol.declare { name := text, scope := j } d flags isExported) := by
  have made : t.symbolIn j text = (t.symbols.size, { t with
      symbols := t.symbols.push { name := text, scope := j }
      scopes := t.scopes.modify j fun s => { s with locals := (text, t.symbols.size) :: s.locals } }) := by
    rw [symbolIn, fresh]
  rw [declare, named]
  split
  · cases ‹some text = none›
  · exact absurd (Option.some.inj ‹_›) written
  · rename_i same
    cases same
    rw [made]
    refine ⟨?_, by rw [Array.getElem?_modify, if_pos rfl, Array.getElem?_push_size, Option.map_some]⟩
    rw [scope, Array.getD_eq_getD_getElem?, Array.getElem?_modify, if_pos rfl, Array.getElem?_eq_getElem inside,
      Option.map_some, Option.getD_some, Scope.symbol?, List.lookup_cons, beq_self_eq_true]

/-- A name that an import has just bound in a scope is resolved from there to the part that binds it. -/
theorem importOf?_refer_declare {j : Nat} (inside : j < t.scopes.size) (fresh : (t.scope j).symbol? text = none)
    (named : own.nameText? = some text) (written : text ≠ "") (reads : n.identifierText? = some text)
    (parsed : n.parsed = n) (given : n.isSynthesized = false) :
    ((t.declare j own d SymbolFlags.importedName false).refer j n).importOf? n = some d := by
  obtain ⟨known, symbol⟩ := declare_fresh (d := d) inside fresh named written SymbolFlags.importedName false
  rw [refer, reads]
  dsimp only
  rw [lookup?_of_symbol? known]
  dsimp only
  have resolved (t : ScopeTable) (k : Nat) : symbolOf? { t with resolved := t.resolved.insert n.id k } n = some k := by
    rw [symbolOf?, parsed, given, if_neg Bool.false_ne_true, Std.HashMap.getElem?_insert_self]
  rw [importOf?, symbol?, resolved]
  change ((t.declare j own d SymbolFlags.importedName false).symbols[t.symbols.size]?.bind fun s =>
    if s.flags.has SymbolFlags.importedName then s.declarations.head? else none) = _
  have binds : (Symbol.declare { name := text, scope := j } d SymbolFlags.importedName false).flags.has
      SymbolFlags.importedName = true := by
    change (FlagSet.empty ||| SymbolFlags.importedName).has SymbolFlags.importedName = true
    decide
  rw [symbol, Option.bind_some, if_pos binds]
  rfl

end ScopeTable

/-! ## Statements -/

/-- The part of an import that binds nothing else than one member of its module, and the name of that member. -/
def Node.onlyMember? (n : Node) : Option (Node × Node) :=
  match n.form with
  | .importDeclaration p =>
    match p.clause.map form with
    | some (.importClause false none (some b)) =>
      match b.kind, b.form with
      | .namedImports, .list _ ⟨_, [s]⟩ =>
        match s.form with
        | .specifier false none own => some (s, own)
        | _ => none
      | _, _ => none
    | _ => none
  | _ => none

def Node.madeCall? (n : Node) : Option (Node × Form.Call) :=
  match n.form with
  | .wrapped e =>
    match e.form with
    | .call p => some (e, p)
    | _ => none
  | _ => none

theorem Node.form_of_onlyMember? (h : n.onlyMember? = some (d, own)) :
    ∃ (p : Form.ImportDeclaration) (clause b : Node) (multiLine : Bool) (l : NodeList),
      n.form = .importDeclaration p ∧ p.clause = some clause ∧ clause.form = .importClause false none (some b) ∧
        b.kind = .namedImports ∧ b.form = .list multiLine l ∧ l.items = [d] ∧ d.form = .specifier false none own := by
  rw [onlyMember?] at h
  split at h
  case h_2 => cases h
  split at h
  case h_2 => cases h
  split at h
  case h_2 => cases h
  split at h
  case h_2 => cases h
  cases h
  obtain ⟨clause, held, form⟩ := Option.map_eq_some_iff.mp ‹_›
  exact ⟨_, clause, _, _, _, ‹_›, held, form, ‹_›, ‹_›, rfl, ‹_›⟩

theorem Node.form_of_madeCall? {p : Form.Call} (h : n.madeCall? = some (e, p)) :
    n.form = .wrapped e ∧ e.form = .call p := by
  rw [madeCall?] at h
  split at h
  case h_2 => cases h
  split at h
  case h_2 => cases h
  cases h
  exact ⟨‹_›, ‹_›⟩

theorem Node.contains_callee {p : Form.Call} (h : n.madeCall? = some (e, p)) : n.Contains p.expression := by
  obtain ⟨form, form'⟩ := form_of_madeCall? h
  exact .ofChild (mem_children form (by simp [Form.slots, Slot.ofNode, Slot.nodes]))
    (.ofChild (mem_children form' (by simp [Form.slots, Slot.ofNode, Slot.nodes])) (.refl _))

/-- An expression statement that does nothing but to call what goes by a name. -/
structure Node.CallsName (n e : Node) (p : Form.Call) : Prop where
  kind : n.kind = .expressionStatement
  made : n.madeCall? = some (e, p)
  only : n.children.length = 1
  callKind : e.kind = .callExpression
  alone : e.children.length = 1
  name : p.expression.kind = .identifier

theorem Node.children_eq {form : Form} (h : n.form = form)
    (all : n.children.length = (form.slots.flatMap Slot.nodes).length) :
    n.children = form.slots.flatMap Slot.nodes :=
  ((h ▸ slots_form rfl n).eq_of_length all.symm).symm

namespace Bind

theorem declareStatement_of_onlyMember? (kind : i.kind = .importDeclaration) (h : i.onlyMember? = some (d, own)) :
    declareStatement i = declare own d SymbolFlags.importedName false := by
  obtain ⟨p, clause, b, multiLine, l, form, held, form', -, list, items, bound⟩ := Node.form_of_onlyMember? h
  have bindings : clause.importBindings = [(own, d)] := by
    rw [Node.importBindings, form']
    dsimp only
    rw [list]
    dsimp only
    rw [items, List.filterMap_cons, bound]
    rfl
  rw [declareStatement, kind]
  dsimp only
  rw [declareImport, form]
  dsimp only
  rw [held]
  dsimp only
  rw [form', bindings]
  rfl

variable {p : Form.Call}

theorem visitTo_of_callsName (depth : Nat) (h : n.CallsName e p) (s : BindState) :
    visitTo (depth + 3) n s = ((), { s with table := s.table.refer s.current p.expression }) := by
  obtain ⟨kind, made, only, callKind, alone, name⟩ := h
  obtain ⟨form, form'⟩ := Node.form_of_madeCall? made
  have wrapped : n.children = [e] := Node.children_eq form only
  have called : e.children = [p.expression] := by
    have mem : p.expression ∈ e.children :=
      Node.mem_children form' (by simp [Form.slots, Slot.ofNode, Slot.nodes])
    obtain ⟨m, same⟩ := List.length_eq_one_iff.mp alone
    rw [same, List.mem_singleton] at mem
    rw [same, mem]
  have callee : node p.expression = refer p.expression := by
    rw [node, name]
    rfl
  have call : node e = visit p.expression := by
    rw [node, callKind]
    change valueParts e = _
    rw [valueParts, form']
    change visitAll e.children = _
    rw [called]
    rfl
  have statement : node n = visit e := by
    rw [node, kind]
    change valueParts n = _
    rw [valueParts, form]
    change visitAll n.children = _
    rw [wrapped]
    rfl
  rw [visitTo, statement]
  change node e (visitTo (depth + 1)) s = _
  rw [call]
  change node p.expression (visitTo depth) s = _
  rw [callee]
  rfl

end Bind

theorem ScopeTable.importOf?_callsName {p : Form.Call}
    (file : ((root.statements?).map (·.items)).getD [] = [i, n]) (deep : 3 ≤ root.height)
    (importKind : i.kind = .importDeclaration) (imported : i.onlyMember? = some (d, own))
    (called : n.CallsName e p) (named : own.nameText? = some text) (written : text ≠ "")
    (reads : p.expression.identifierText? = some text) (parsed : p.expression.parsed = p.expression)
    (given : p.expression.isSynthesized = false) : (ofTree root).importOf? p.expression = some d := by
  obtain ⟨_, _, _, _, _, form, -⟩ := Node.form_of_onlyMember? imported
  have is : Bind.IsImport i := .declaration form importKind
  have plain : n.functionVariables = [] := by
    obtain ⟨form, -⟩ := Node.form_of_madeCall? called.made
    refine Bind.functionVariables_eq_nil ?_ ?_
    · rw [Node.ownFunctionVariables, form]
    · rw [called.kind]
      rfl
  obtain ⟨depth, height⟩ := Nat.exists_eq_add_of_le' deep
  have table : ofTree root =
      ((ofRoot root).declare 0 own d SymbolFlags.importedName false).refer 0 p.expression := by
    have hoisted : Bind.declareFunctionVariables [i, n] = pure () := by
      rw [Bind.declareFunctionVariables, List.flatMap_cons, List.flatMap_cons, is.functionVariables_eq, plain]
      rfl
    have declared : Bind.declareStatement n = pure () := by
      rw [Bind.declareStatement, called.kind]
    rw [ofTree, file, height, Bind.functionStatements, hoisted]
    generalize visits : Bind.visitTo (depth + 3) = visit
    change (visit n (visit i (Bind.declareStatement n visit
      (Bind.declareStatement i visit ⟨ofRoot root, 0⟩).2).2).2).2.table = _
    rw [← visits, Bind.declareStatement_of_onlyMember? importKind imported, declared, is.visitTo_eq,
      Bind.visitTo_of_callsName depth called]
    rfl
  rw [table]
  exact importOf?_refer_declare (Nat.zero_lt_one) rfl named written reads parsed given

end ScriptFrontend
