import ScriptFrontend.Proofs.Numbering.File
import ScriptFrontend.Proofs.Print.Statement
import ScriptFrontend.Proofs.Registration.Introduced
import ScriptFrontend.Proofs.Registration.Parsed
import ScriptFrontend.Proofs.Scope.Reference

/-!
# Imported names in registered modules

An imported name is read through the object of its module: as a member of it under the imported name, or
as the object itself. In what is printed this stands in the place of each name that is a value and is
resolved to a part of an import; all other names stay as they are.
-/

namespace ScriptFrontend

open ModuleFacts (isImport)

variable {l l' : Ledger} {n m i d a : Node} {k : Nat}

/-! ## Numbers of nodes in different statements -/

namespace Node

theorem mark_mem_marks (n : Node) : n.mark ∈ n.marks := List.mem_map_of_mem (by
  cases n
  rw [preorderWithDocs]
  exact List.mem_cons_self ..)

theorem Contains.mark_mem (h : n.Contains m) : m.mark ∈ n.marks :=
  h.closed (P := fun m => m.marks ⊆ n.marks)
    (fun _ _ inside mem => List.Subset.trans (marks_subset_of_mem_children mem) inside) (List.Subset.refl _)
    (mark_mem_marks m)

def Lacks (k : Nat) (n : Node) : Prop := ∀ m ∈ n.marks, m.id ≠ k

theorem IsBefore.lacks (h : n.IsBefore i) (inside : i.Contains d) (numbered : d.id ≠ 0) : n.Lacks d.id := by
  intro m mem same
  rcases h m mem d.mark inside.mark_mem with rfl | blank | less
  · exact numbered same.symm
  · exact numbered (congrArg Mark.id blank)
  · exact absurd same (Nat.ne_of_lt less)

theorem IsBefore.lacks_behind (h : i.IsBefore n) (inside : i.Contains d) (numbered : d.id ≠ 0) :
    n.Lacks d.id := by
  intro m mem same
  rcases h d.mark inside.mark_mem m mem with blank | rfl | less
  · exact numbered (congrArg Mark.id blank)
  · exact numbered same.symm
  · exact absurd same (Nat.ne_of_gt less)

end Node

instance (l : Ledger) (n : Node) : (l.without n).IsPartOf l := ⟨fun _ has => (Ledger.has_without.mp has).1⟩

theorem Within.without (h : Within l n) (apart : n.IsBefore i ∨ i.IsBefore n) : Within (l.without i) n := by
  refine ⟨fun m mem => or_iff_not_imp_left.mpr fun numbered => ?_⟩
  refine Ledger.has_without.mpr ⟨(h.holds m mem).resolve_left numbered, fun m' mem' => ?_⟩
  rcases apart with before | behind
  · exact (before m mem m' mem').resolve_left numbered |>.imp_right fun less => (Nat.ne_of_lt less).symm
  · exact (behind m' mem' m mem).imp_right fun rest => Nat.ne_of_lt (rest.resolve_left numbered)

/-- The first node that is read is a token, so no other node has its number. -/
theorem Within.id_ne_zero (h : Within l n) (mem : m ∈ n.children) (part : m.shape ≠ .token) : n.id ≠ 0 :=
  fun first => part (congrArg Prod.snd (h.mark.fits.first first (m.kind, m.shape) (List.mem_map_of_mem mem)))

theorem Within.id_ne_zero_of_nameOf? (h : Within l n) {text : String} (named : n.nameOf? = some text) :
    n.id ≠ 0 := by
  obtain ⟨name, held, is⟩ := Option.bind_eq_some_iff.mp named
  refine h.id_ne_zero (Node.mem_children_of_name? held) fun token => ?_
  rw [Node.nameText?_eq, token] at is
  cases is

namespace Registration

open Made

/-! ## Local names of imports -/

theorem contains_of_mem_readBindings {name : String} (mem : m ∈ readBindings n name) : n.Contains m := by
  rw [readBindings] at mem
  split at mem
  case h_2 => cases mem
  rename_i p form
  split at mem
  · cases mem
  rename_i clause held
  have part : clause ∈ n.children := Bind.mem_children_of_importDeclaration form held
  split at mem
  case h_2 => cases mem
  rename_i clauseName bindings form'
  refine .ofChild part ?_
  rcases List.mem_append.mp mem with own | named
  · split at own
    · exact List.mem_singleton.mp own ▸ .refl _
    · cases own
  · split at named
    · cases named
    rename_i b
    have child : b ∈ clause.children := Bind.mem_children_of_importClause form' rfl
    refine .ofChild child ?_
    split at named
    · split at named
      · cases named
      · exact List.mem_singleton.mp named ▸ .refl _
    · split at named
      · rename_i form''
        exact .ofChild (Bind.mem_children_of_list form'' named) (.refl _)
      · cases named

structure Context.SameAt (k : Nat) (c c' : Context) : Prop where
  locals : c'.locals[k]? = c.locals[k]?
  bindings : c'.bindings[k]? = c.bindings[k]?

variable {c c' c'' : Context} {made : List Dependency × Context × NameSupply} {before after : List Node}
  {object moduleName : String}

namespace Context.SameAt

theorem refl (c : Context) : SameAt k c c := ⟨rfl, rfl⟩

theorem trans (h : SameAt k c c') (h' : SameAt k c' c'') : SameAt k c c'' :=
  ⟨h'.locals.trans h.locals, h'.bindings.trans h.bindings⟩

theorem withLocal_of_lacks (lacks : n.Lacks k) (c : Context) (name : String) : SameAt k c (c.withLocal n name) where
  locals := by
    have other : n.id ≠ k := lacks n.mark n.mark_mem_marks
    rw [getElem?_locals_withLocal, if_neg other]
  bindings := by
    rw [getElem?_bindings_withLocal, if_neg]
    rintro ⟨b, mem, same⟩
    exact lacks _ (contains_of_mem_readBindings mem).mark_mem same

theorem withLocal (h : SameAt k c c') (n : Node) (name : String) :
    SameAt k (c.withLocal n name) (c'.withLocal n name) where
  locals := by rw [getElem?_locals_withLocal, getElem?_locals_withLocal, h.locals]
  bindings := by rw [getElem?_bindings_withLocal, getElem?_bindings_withLocal, h.bindings]

theorem addDependency (lacks : n.Lacks k) (made : List Dependency × Context × NameSupply) :
    SameAt k made.2.1 (addDependency made n).2.1 := by
  rw [Registration.addDependency]
  split
  · exact .refl _
  · dsimp only
    split
    · exact .refl _
    · exact withLocal_of_lacks lacks _ _

theorem dependencies (lacks : ∀ n ∈ after, n.Lacks k) (made : List Dependency × Context × NameSupply) :
    SameAt k made.2.1 (after.foldl Registration.addDependency made).2.1 := by
  induction after generalizing made with
  | nil => exact .refl _
  | cons n after ih =>
    obtain ⟨first, rest⟩ := List.forall_mem_cons.mp lacks
    exact (addDependency first made).trans (ih rest _)

end Context.SameAt

/-- An import that binds names is given a local name, its own one if it has one for the whole module. -/
theorem addDependency_withLocal (named : moduleName? i = some moduleName) (binds : bindsNothing i = false)
    (made : List Dependency × Context × NameSupply) :
    ∃ object, (addDependency made i).2.1 = made.2.1.withLocal i object ∧
      ∀ whole ∈ wholeName? i, object = whole := by
  rw [addDependency, named]
  dsimp only
  rw [localName, binds]
  cases whole : wholeName? i with
  | some name => exact ⟨name, rfl, fun _ same => Option.some.inj same⟩
  | none => exact ⟨_, rfl, fun _ same => absurd same (Option.not_mem_none _)⟩

theorem dependencies_withLocal (named : moduleName? i = some moduleName) (binds : bindsNothing i = false)
    (before after : List Node) (c : Context) (names : NameSupply) :
    ∃ object, (∀ whole ∈ wholeName? i, object = whole) ∧
      ∀ k, (∀ n ∈ before, n.Lacks k) → (∀ n ∈ after, n.Lacks k) →
        (c.withLocal i object).SameAt k (dependencies (before ++ i :: after) c names).2.1 := by
  obtain ⟨object, given, whole⟩ :=
    addDependency_withLocal named binds (before.foldl addDependency ([], c, names))
  refine ⟨object, whole, fun k front behind => ?_⟩
  rw [dependencies_eq, List.foldl_append, List.foldl_cons]
  have first : c.SameAt k (before.foldl addDependency ([], c, names)).2.1 := .dependencies front ([], c, names)
  have rest := Context.SameAt.dependencies behind (addDependency (before.foldl addDependency ([], c, names)) i)
  rw [given] at rest
  exact (first.withLocal i object).trans rest

/-! ## What imported names are read as -/

def importClause? (n : Node) : Option Node :=
  match n.form with
  | .importDeclaration p => p.clause
  | _ => none

/-- The name of a member of a module stands for a member of its object. -/
inductive IsMemberOf (object : String) : Node → Node → Prop
  | name {imported : Node} {text : String} {word : Option Kind} (form : imported.form = .identifier text word) :
    IsMemberOf object imported (member (identifier object) text)
  | text {imported : Node} {text : String} {raw : Option String} {flags : TokenFlags}
    (form : imported.form = .literal text raw flags) :
    IsMemberOf object imported (element (identifier object) (stringLiteral text))

/-- A part of an import binds a name that is read as something, where the local name of the import is that
of the object of its module. -/
inductive IsReadAs (i : Node) (object : String) : Node → Node → Prop
  | byDefault {clause name : Node} {typeOnly : Bool} {bindings : Option Node}
    (held : importClause? i = some clause) (form : clause.form = .importClause typeOnly (some name) bindings) :
    IsReadAs i object clause (member (identifier object) "default")
  | whole {clause b own : Node} {typeOnly : Bool} {name : Option Node} {text : String}
    (held : importClause? i = some clause) (form : clause.form = .importClause typeOnly name (some b))
    (kind : isNamespaceImport b = true) (bound : b.form = .named own) (named : own.identifierText? = some text) :
    IsReadAs i object b (identifier object)
  | specifier {clause b s own a : Node} {typeOnly typeOnly' multiLine : Bool} {name other : Option Node}
    {specifiers : NodeList}
    (held : importClause? i = some clause) (form : clause.form = .importClause typeOnly name (some b))
    (kind : isNamespaceImport b = false) (list : b.form = .list multiLine specifiers)
    (mem : s ∈ specifiers.items) (bound : s.form = .specifier typeOnly' other own)
    (as : IsMemberOf object (other.getD own) a) : IsReadAs i object s a
  | required {p : Form.ImportEquals} {text : String} (form : i.form = .importEquals p)
    (named : p.name.identifierText? = some text) : IsReadAs i object i (identifier object)

theorem isReadAs_of_onlyMember? {own : Node} {text : String} (h : i.onlyMember? = some (d, own))
    (name : own.isName = true) (reads : own.identifierText? = some text) (object : String) :
    IsReadAs i object d (member (identifier object) text) := by
  obtain ⟨p, clause, b, multiLine, l, form, held, byName, kind, list, items, bound⟩ := Node.form_of_onlyMember? h
  obtain ⟨text', word, named⟩ := Node.form_of_isName name
  rw [Node.identifierText?, Node.shape_of_identifier named] at reads
  cases reads
  have clauseOf : importClause? i = some clause := by rw [importClause?, form]; exact held
  exact .specifier clauseOf byName (by rw [isNamespaceImport, kind]; rfl) list (by simp [items]) bound (.name named)

theorem contains_of_importClause? (held : importClause? i = some m) : i.Contains m := by
  rw [importClause?] at held
  split at held
  · exact .ofChild (Bind.mem_children_of_importDeclaration ‹_› held) (.refl _)
  · cases held

theorem IsReadAs.contains (is : IsReadAs i object d a) : i.Contains d := by
  cases is with
  | byDefault held => exact contains_of_importClause? held
  | whole held form => exact (contains_of_importClause? held).tail (Bind.mem_children_of_importClause form rfl)
  | specifier held form _ list mem =>
    exact ((contains_of_importClause? held).tail (Bind.mem_children_of_importClause form rfl)).tail
      (Bind.mem_children_of_list list mem)
  | required => exact .refl i

/-- What is bound by the bindings of an import, but for what goes by the local name itself. -/
def readBindingsOf (object : String) : Option Node → List Node
  | none => []
  | some b =>
    if isNamespaceImport b then (if b.declaredText? == some object then [] else [b])
    else match b.form with
      | .list _ l => l.items
      | _ => []

theorem readBindings_of_importClause? (object : String) {clause : Node} {typeOnly : Bool}
    {name bindings : Option Node} (held : importClause? i = some clause) (form : clause.form = .importClause typeOnly name bindings) :
    readBindings i object = (if name.isSome then [clause] else []) ++ readBindingsOf object bindings := by
  rw [importClause?] at held
  split at held
  · rename_i p form'
    rw [readBindings, form']
    dsimp only
    rw [held]
    dsimp only
    rw [form]
    cases bindings <;> rfl
  · cases held

def access? (d : Node) (object : String) : Option Node :=
  match d.form with
  | .importClause _ _ _ => some (member (identifier object) "default")
  | .specifier _ propertyName name =>
    match (propertyName.getD name).form with
    | .identifier text _ => some (member (identifier object) text)
    | .literal text _ _ => some (element (identifier object) (stringLiteral text))
    | _ => none
  | .named _ => some (identifier object)
  | _ => none

theorem imported?_eq (resolved : c.scopes.importOf? n = some d) :
    imported? c n = c.bindings[d.parsed.id]?.bind (access? d) := by
  rw [imported?, resolved]
  rfl

/-- A name that an import declares is read as the import says, if the local name of the import is known behind
the part that declares it. -/
theorem imported?_of_isReadAs (is : IsReadAs i object d a) (whole : ∀ name ∈ wholeName? i, object = name)
    (known : c.bindings[d.id]? = if ∃ b ∈ readBindings i object, b.id = d.id then some object else none)
    (parsed : d.parsed = d) (resolved : c.scopes.importOf? n = some d) {text : String}
    (named : n.identifierText? = some text) (own : d.nameOf? = some text) :
    (imported? c n).getD (identifier (n.identifierText?.getD "")) = a := by
  have run : imported? c n = c.bindings[d.id]?.bind (access? d) := by rw [imported?_eq resolved, parsed]
  have found (inside : d ∈ readBindings i object) : c.bindings[d.id]? = some object := by
    rw [known, if_pos ⟨d, inside, rfl⟩]
  cases is with
  | byDefault held form =>
    have inside : d ∈ readBindings i object := by
      rw [readBindings_of_importClause? object held form]
      exact List.mem_append_left _ (List.mem_singleton_self _)
    rw [run, found inside, Option.bind_some, access?, form, Option.getD_some]
  | whole held form kind bound is =>
    rw [run]
    cases held' : c.bindings[d.id]? with
    | some other =>
      rw [held'] at known
      split at known
      · cases known
        rw [Option.bind_some, access?, bound, Option.getD_some]
      · cases known
    | none =>
      -- Only what goes by the local name itself is left out.
      have itself : d.declaredText? = some object := by
        by_contra other
        refine nomatch held'.symm.trans (found ?_)
        rw [readBindings_of_importClause? object held form, readBindingsOf, kind, if_pos rfl,
          beq_false_of_ne other]
        exact List.mem_append_right _ (List.mem_singleton_self _)
      have same : d.nameOf? = some object := by
        obtain ⟨name, held, is⟩ := Option.bind_eq_some_iff.mp itself
        rw [Node.nameOf?, held, Option.bind_some, Node.nameText?_of_identifierText? is]
      rw [Option.bind_none, Option.getD_none, named, Option.getD_some,
        Option.some.inj (own.symm.trans same)]
  | specifier held form kind list mem bound as =>
    have inside : d ∈ readBindings i object := by
      rw [readBindings_of_importClause? object held form, readBindingsOf, kind, if_neg Bool.false_ne_true,
        list]
      exact List.mem_append_right _ mem
    rw [run, found inside, Option.bind_some, access?, bound]
    dsimp only
    cases as with
    | name form => rw [form, Option.getD_some]
    | text form => rw [form, Option.getD_some]
  | @required p bound form is =>
    have same : i.nameOf? = some bound := by
      rw [Node.nameOf?, Node.name?, form, Option.bind_some, Node.nameText?_of_identifierText? is]
    have itself : wholeName? i = some text := by
      rw [wholeName?, form, ← own, same]
      exact is
    have nothing : c.bindings[i.id]?.bind (access? i) = none := by
      rw [Option.bind_eq_none_iff]
      intro _ _
      rw [access?, form]
    rw [run, nothing, Option.getD_none, named, Option.getD_some, whole _ itself]

theorem isAccess_of_imported? (found : imported? c n = some a) : IsAccess a := by
  obtain ⟨d, resolved, -⟩ := Option.bind_eq_some_iff.mp found
  rw [imported?_eq resolved] at found
  obtain ⟨object, -, found⟩ := Option.bind_eq_some_iff.mp found
  rw [access?] at found
  split at found
  · cases found
    exact .member (.name _) _
  · split at found
    · cases found
      exact .member (.name _) _
    · cases found
      exact .element (.name _) (.text _)
    · cases found
  · cases found
    exact .name _
  · cases found

theorem isAccess_of_memberOf? {lowering : Lowering} {scopes : ScopeTable}
    (found : lowering.memberOf? scopes n = some a) : IsAccess a := by
  rw [Lowering.memberOf?] at found
  split at found
  · cases found
  · obtain ⟨container, -, found⟩ := Option.bind_eq_some_iff.mp found
    split at found
    · cases found
    · obtain ⟨object, -, found⟩ := Option.bind_eq_some_iff.mp found
      obtain ⟨text, -, found⟩ := Option.bind_eq_some_iff.mp found
      cases found
      exact .member (.name _) _

theorem symbol?_identifier (scopes : ScopeTable) (text : String) : scopes.symbol? (identifier text) = none := by
  have made : (identifier text).isSynthesized = true :=
    show (Made.head .identifier .empty).flags.has NodeFlags.synthesized = true by decide
  rw [ScopeTable.symbol?, ScopeTable.symbolOf?, Node.parsed_of_origin rfl, if_pos made]
  rfl

/-- What is printed of a registered module puts accesses in the place of names. -/
theorem namesAccesses (lowering : Lowering) (scopes : ScopeTable) (c : Context) :
    ((lowering.substitution scopes).orElse (substitution c)).NamesAccesses where
  access n a name found := by
    change (lowering.memberOf? scopes n <|> expression? c n) = some a at found
    cases member : lowering.memberOf? scopes n with
    | some other =>
      rw [member] at found
      exact isAccess_of_memberOf? (member.trans found)
    | none =>
      obtain ⟨text, word, form⟩ := Node.form_of_isName name
      rw [member, expression?, form] at found
      exact isAccess_of_imported? found
  plain a h := by
    change (lowering.memberOf? scopes a <|> expression? c a) = none
    cases h with
    | name text =>
      have member : lowering.memberOf? scopes (identifier text) = none := by
        rw [Lowering.memberOf?, ScopeTable.exporterOf?, symbol?_identifier]
        rfl
      have imported : imported? c (identifier text) = none := by
        rw [imported?, ScopeTable.importOf?, symbol?_identifier]
        rfl
      rw [member]
      exact imported
    | text | member | element => rfl

/-! ## Files that were read -/

/-- The node has the form of a part of an import that binds what is read from the object of a module. -/
def isImportPart (n : Node) : Bool :=
  match n.form with
  | .importClause _ _ _ | .specifier _ _ _ | .named _ => true
  | _ => false

/-- Nothing is read from the object of a module where the node declares a name: it has not the form of what is
read so, or it stands in none of the imports. -/
def IsOther (imports : List Node) (d : Node) : Prop :=
  isImportPart d = false ∨ ∀ i ∈ imports, i.Lacks d.parsed.id

theorem access?_of_other (other : isImportPart d = false) (object : String) : access? d object = none := by
  rw [isImportPart] at other
  rw [access?]
  cases form : d.form
  case importClause | specifier | named => simp [form] at other
  all_goals rfl

theorem imported?_of_other {imports : List Node}
    (bound : ∀ k name, c.bindings[k]? = some name → ∃ i ∈ imports, ∃ b, i.Contains b ∧ b.id = k)
    (other : ∀ d ∈ c.scopes.importOf? n, IsOther imports d) : imported? c n = none := by
  cases found : c.scopes.importOf? n with
  | none =>
    rw [imported?, found]
    rfl
  | some d =>
    rw [imported?_eq found, Option.bind_eq_none_iff]
    intro object known
    rcases other d found with form | apart
    · exact access?_of_other form object
    · obtain ⟨i, mem, b, inside, same⟩ := bound _ _ known
      exact absurd same (apart i mem b.mark inside.mark_mem)

theorem expression?_of_isName (name : n.isName = true) : expression? c n = imported? c n := by
  obtain ⟨text, word, form⟩ := Node.form_of_isName name
  rw [expression?, form]

theorem keeps?_of_isReadAs (is : IsReadAs i object d a) : keeps? c i = c.local? i := by
  have declared {clause : Node} (held : importClause? i = some clause) : keeps? c i = c.local? i := by
    rw [importClause?] at held
    split at held
    · rename_i form
      rw [keeps?, form]
      dsimp only
      rw [held]
      rfl
    · cases held
  cases is with
  | byDefault held | whole held | specifier held => exact declared held
  | required form => rw [keeps?, form]

end Registration

def Substitution.read (σ : Substitution) (n : Node) : Node :=
  (σ.expression n).getD (Made.identifier (n.identifierText?.getD ""))

theorem Substitution.expression_of_read {σ : Substitution} (read : σ.read n = a) (other : a.isName = false) :
    σ.expression n = some a := by
  rw [Substitution.read] at read
  cases found : σ.expression n with
  | none =>
    rw [found] at read
    subst read
    cases other
  | some b =>
    rw [found] at read
    exact congrArg some read

namespace ScopeTable.Fits

variable {t : ScopeTable}

theorem nameOf?_eq (fits : t.Fits l l') (within : Within l n)
    (found : t.importOf? n = some d) {text : String} (named : n.nameText? = some text) :
    d.nameOf? = some text := by
  obtain ⟨s, symbol, found⟩ := Option.bind_eq_some_iff.mp found
  obtain ⟨j, -, held⟩ := Option.bind_eq_some_iff.mp symbol
  split at found
  · rw [(fits.declared j s held d (List.mem_of_head? found)).1, fits.name_of_symbol? within named symbol]
  · cases found

/-- A name that is declared in the scope of the file only is no member of an enumeration or a namespace. -/
theorem memberOf?_eq_none (fits : t.Fits l l') (found : t.importOf? n = some d) (other : ¬ l'.Holds d.mark)
    (lowering : Lowering) : lowering.memberOf? t n = none := by
  obtain ⟨s, symbol, found⟩ := Option.bind_eq_some_iff.mp found
  obtain ⟨j, -, held⟩ := Option.bind_eq_some_iff.mp symbol
  obtain ⟨first, file, kind⟩ := fits.file
  have top : s.scope = 0 := by
    split at found
    · exact (fits.declared j s held d (List.mem_of_head? found)).2.resolve_right other
    · cases found
  have exporter (container : Node) (is : t.exporterOf? n false = some container) : container.kind = .sourceFile := by
    obtain ⟨s', symbol', is⟩ := Option.bind_eq_some_iff.mp is
    cases symbol.symm.trans symbol'
    dsimp only at is
    split at is
    · cases is
    · obtain ⟨scope, held, is⟩ := Option.bind_eq_some_iff.mp is
      rw [top, file] at held
      cases held
      split at is
      all_goals cases is
      all_goals exact kind
  rw [Lowering.memberOf?]
  split
  · rfl
  · cases is : t.exporterOf? n false with
    | none => rfl
    | some container =>
      have file : Lower.isContainer container = false := by
        rw [Lower.isContainer, exporter container is]
        rfl
      change (if !Lower.isContainer container then none else _) = none
      rw [file]
      rfl

end ScopeTable.Fits

namespace Registration

theorem id_ne_zero_of_moduleName? (h : Within l i) (named : moduleName? i = some moduleName) : i.id ≠ 0 := by
  have read {source : Node} {text : String} (mem : source ∈ i.children) (is : source.literalText? = some text) :
      i.id ≠ 0 := h.id_ne_zero mem fun token => by
    rw [Node.literalText?, token] at is
    cases is
  rw [moduleName?] at named
  split at named
  · rename_i p form
    exact read (Node.mem_children form (by simp [Form.slots, Slot.ofNode, Slot.ofNode?, Slot.nodes])) named
  · rename_i p form
    obtain ⟨source, held, is⟩ := Option.bind_eq_some_iff.mp named
    exact read (Node.mem_children form (by simp [held, Form.slots, Slot.ofNode?, Slot.nodes])) is
  · rename_i p form
    obtain ⟨source, held, -⟩ := Option.bind_eq_some_iff.mp named
    have mem : p.reference ∈ i.children :=
      Node.mem_children form (by simp [Form.slots, Slot.ofNode, Slot.nodes])
    refine h.id_ne_zero mem fun token => ?_
    rw [Node.expression?, Node.form, token] at held
    cases held
  · cases named

theorem ofFile_context {f : SourceFile} {scopes : ScopeTable} {facts : ModuleFacts} {lowering : Lowering}
    {statements : List Node} (h : ofFile f scopes facts lowering = .ok (statements, c)) :
    c = (dependencies facts.imports (start f scopes facts lowering).1 (start f scopes facts lowering).2).2.1 := by
  simp only [ofFile] at h
  generalize dependencies facts.imports _ _ = groups at h ⊢
  obtain ⟨groups, c', names⟩ := groups
  split at h
  split at h
  · cases h
  · cases h
    rfl

theorem registered?_of_ofFile {l : LoweredFile} {statements : List Node}
    (h : ofFile l.file l.scopes l.facts l.lowering = .ok (statements, c)) (style : PrintStyle) :
    l.registered? style = .ok (if isRegistered l.file then
      some (printStatements style l.file.text (l.substitution.orElse (substitution c)).rest
        (statements.map (·.spellOut (l.substitution.orElse (substitution c)) .part)))
    else none) := by
  have spelled := printStatements_spellOut (namesAccesses l.lowering l.scopes c) style l.file.text statements
  rw [LoweredFile.registered?, h]
  split
  · exact congrArg (Except.ok <| some ·) spelled.symm
  · rfl

/-- Each name that is resolved to a part of an import has the text of the name that the part declares, and
is read as the part says. -/
structure ReadsImports (l : LoweredFile) (c : Context) (i : Node) (object : String) : Prop where
  known : c.locals[i.id]? = some object
  keeps : ∀ d a, IsReadAs i object d a → i.isSynthesized = false → keeps? c i = some object
  read : ∀ d a, IsReadAs i object d a → ∀ n, l.file.root.Contains n → n.isName = true →
    l.scopes.importOf? n = some d →
      n.nameText? = d.nameOf? ∧ (l.substitution.orElse (substitution c)).read n = a

theorem ReadsImports.form_spellOut_call {l : LoweredFile} (reads : ReadsImports l c i object)
    (is : IsReadAs i object d a) (access : a.isName = false) {e : Node} {p : Form.Call} (form : e.form = .call p)
    (contains : l.file.root.Contains p.expression) (name : p.expression.isName = true)
    (found : l.scopes.importOf? p.expression = some d) :
    (e.spellOut (l.substitution.orElse (substitution c)) .value).form = .call { p with
      expression := Made.kept a
      arguments := p.arguments.map (·.spellOut (l.substitution.orElse (substitution c)) .value) } := by
  have read := Substitution.expression_of_read (reads.read d a is p.expression contains name found).2 access
  have spelled : e.IsSpelled (l.substitution.orElse (substitution c)) .value :=
    Node.isSpelled_value fun isName => by
      obtain ⟨_, _, form'⟩ := Node.form_of_isName isName
      cases form.symm.trans form'
  rw [spelled.form, form, Form.spellOut, Node.spellOut_name name read]

variable {f : SourceFile} {ledger : Ledger}

theorem isImport_of_isReadAs (within : Within l i) (imported : isImport i = true) (is : IsReadAs i object d a) :
    Bind.IsImport i := by
  have declared {clause : Node} (held : importClause? i = some clause) : Bind.IsImport i := by
    rw [importClause?] at held
    split at held
    · rename_i form
      exact .declaration form (within.kind_of_form form rfl rfl)
    · cases held
  cases is with
  | byDefault held | whole held | specifier held => exact declared held
  | required form =>
    have test := (Bool.and_eq_true_iff.mp imported).2
    rw [form] at test
    exact .equals form (within.kind_of_form form rfl rfl) (eq_of_beq (Bool.and_eq_true_iff.mp test).2)

theorem statements_without (within : Within ledger f.root) (sorted : f.statements.Pairwise Node.IsBefore)
    (mem : i ∈ f.statements) (is : Bind.IsImport i) :
    ∀ n ∈ f.statements, Within (ledger.without i) n ∨ Bind.IsImport n := by
  intro n inside
  have held : Within ledger n := statement_within within inside
  obtain ⟨before, after, split⟩ := List.append_of_mem mem
  rw [split] at sorted inside
  obtain ⟨-, others, front⟩ := List.pairwise_append.mp sorted
  rcases List.mem_append.mp inside with earlier | later
  · exact .inl (held.without (.inl (front n earlier i (List.mem_cons_self ..))))
  · rcases List.mem_cons.mp later with rfl | later
    · exact .inr is
    · exact .inl (held.without (.inr ((List.pairwise_cons.mp others).1 n later)))

theorem ofFile_readsImports (kind : f.root.kind = .sourceFile) (within : Within ledger f.root) (sorted : f.statements.Pairwise Node.IsBefore)
    {statements : List Node}
    (ok : ofFile f (.ofTree f.root) (.ofFile f.root (.ofTree f.root)) (.ofTree f.root) = .ok (statements, c))
    (mem : i ∈ f.statements.filter isImport) (named : moduleName? i = some moduleName)
    (binds : bindsNothing i = false) : ∃ object, ReadsImports (.ofFile f) c i object := by
  have inside : Within ledger i := statement_within within (List.mem_filter.mp mem).1
  have listed : (ModuleFacts.ofFile f.root (.ofTree f.root)).imports = f.statements.filter isImport :=
    (ModuleFacts.ofFile_imports f.root (.ofTree f.root)).1
  obtain ⟨before, after, split⟩ := List.append_of_mem mem
  have row : (before ++ i :: after).Pairwise Node.IsBefore := split ▸ sorted.filter _
  obtain ⟨-, others, front⟩ := List.pairwise_append.mp row
  obtain ⟨behind, -⟩ := List.pairwise_cons.mp others
  let begun := start f (.ofTree f.root) (.ofFile f.root (.ofTree f.root)) (.ofTree f.root)
  obtain ⟨object, whole, same⟩ := dependencies_withLocal named binds before after begun.1 begun.2
  have context : c = (dependencies (before ++ i :: after) begun.1 begun.2).2.1 := by
    rw [← split, ← listed]
    exact ofFile_context ok
  rw [← context] at same
  have known {d : Node} (part : i.Contains d) (numbered : d.id ≠ 0) : (begun.1.withLocal i object).SameAt d.id c :=
    same d.id (fun n mem => (front n mem i (List.mem_cons_self ..)).lacks part numbered)
      fun n mem => (behind n mem).lacks_behind part numbered
  have scopes : c.scopes = .ofTree f.root := by
    obtain ⟨_, _, _, -, -, same, -⟩ := ofFile_introduces ok
    exact same
  have own : c.locals[i.id]? = some object := by
    rw [(known (.refl i) (id_ne_zero_of_moduleName? inside named)).locals, Context.getElem?_locals_withLocal,
      if_pos rfl]
  refine ⟨object, own, fun d a is parsed => ?_, fun d a is n contains name found => ?_⟩
  · rw [keeps?_of_isReadAs is, Context.local?, parsed]
    exact own
  · have others := statements_without within sorted (List.mem_filter.mp mem).1
      (isImport_of_isReadAs inside (List.mem_filter.mp mem).2 is)
    have fits : (ScopeTable.ofTree f.root).Fits ledger (ledger.without i) := ScopeTable.ofTree_fits kind within others
    obtain ⟨text, word, form⟩ := Node.form_of_isName name
    have reads : n.identifierText? = some text := by rw [Node.identifierText?, Node.shape_of_form form rfl]
    have declares : d.nameOf? = some text :=
      fits.nameOf?_eq (contains.closed (fun _ _ => Within.child) within) found
        (Node.nameText?_of_identifierText? reads)
    have part : Within ledger d := is.contains.closed (fun _ _ => Within.child) inside
    have numbered : d.id ≠ 0 := part.id_ne_zero_of_nameOf? declares
    have apart : ¬ (ledger.without i).Holds d.mark := by
      rintro (blank | has)
      · exact numbered (congrArg Mark.id blank)
      · rcases (Ledger.has_without.mp has).2 d.mark is.contains.mark_mem with blank | other
        · exact numbered (congrArg Mark.id blank)
        · exact other rfl
    have bindings : c.bindings[d.id]? = if ∃ b ∈ readBindings i object, b.id = d.id then some object else none := by
      rw [(known is.contains numbered).bindings, Context.getElem?_bindings_withLocal, start_bindings]
    refine ⟨by rw [declares, Node.nameText?_of_identifierText? reads], ?_⟩
    change ((Lowering.ofTree f.root).memberOf? (.ofTree f.root) n <|> expression? c n).getD _ = a
    rw [fits.memberOf?_eq_none found apart, expression?_of_isName name]
    exact imported?_of_isReadAs is whole bindings (Node.parsed_of_origin part.parsed) (scopes ▸ found) reads declares

/-- What is printed of a registered file is its registered form with the names that are values spelled out. A
name that is resolved to a part of an import is read as that part says. A name that is resolved to anything else
stays, unless it is a member of an enumeration or a namespace. -/
structure ReadsNames (l : LoweredFile) (c : Context) (r : Registered) : Prop where
  printed : ∀ style, l.registered? style = .ok (if isRegistered l.file then
    some (printStatements style l.file.text (l.substitution.orElse (substitution c)).rest
      [(r.tree c).spellOut (l.substitution.orElse (substitution c)) .part])
  else none)
  imported : ∀ i ∈ l.file.statements.filter isImport, (moduleName? i).isSome = true → bindsNothing i = false →
    ∃ object, ReadsImports l c i object
  other : ∀ n, n.isName = true → (∀ d ∈ l.scopes.importOf? n, IsOther (l.file.statements.filter isImport) d) →
    (l.substitution.orElse (substitution c)).expression n = l.lowering.memberOf? l.scopes n

theorem ofFile_readsNames (kind : f.root.kind = .sourceFile) (within : Within ledger f.root) (sorted : f.statements.Pairwise Node.IsBefore) :
    let l := LoweredFile.ofFile f
    ∃ (c : Context) (r : Registered), ofFile l.file l.scopes l.facts l.lowering = .ok ([r.tree c], c) ∧
      r.Answers c (l.file.statements.filter isImport) ∧ ReadsNames l c r := by
  obtain ⟨c, r, ok, answers⟩ := ofFile_answers_of_within within
  refine ⟨c, r, ok, answers, fun style => registered?_of_ofFile (l := .ofFile f) ok style,
    fun i mem named binds => ?_, fun n name other => ?_⟩
  · obtain ⟨moduleName, named⟩ := Option.isSome_iff_exists.mp named
    exact ofFile_readsImports kind within sorted ok mem named binds
  · obtain ⟨_, _, _, -, roles, scopes, -⟩ := ofFile_introduces ok
    have bound (k : Nat) (name : String) (known : c.bindings[k]? = some name) :
        ∃ i ∈ f.statements.filter isImport, ∃ b, i.Contains b ∧ b.id = k := by
      obtain ⟨i, given, b, binds, same⟩ := roles.bindings k name known
      have needed : i ∈ (ModuleFacts.ofFile f.root (.ofTree f.root)).imports.filter needsName :=
        roles.needed ▸ List.mem_map_of_mem given
      rw [(ModuleFacts.ofFile_imports f.root (.ofTree f.root)).1] at needed
      exact ⟨i, (List.mem_filter.mp needed).1, b, contains_of_mem_readBindings binds, same⟩
    change ((Lowering.ofTree f.root).memberOf? (.ofTree f.root) n <|> expression? c n) =
      (Lowering.ofTree f.root).memberOf? (.ofTree f.root) n
    rw [expression?_of_isName name, imported?_of_other bound (scopes ▸ other)]
    cases (Lowering.ofTree f.root).memberOf? (.ofTree f.root) n <;> rfl

/-- Any file that is read is registered, as a call that answers to its imports and that reads each imported
name through the object of its module. -/
theorem parsed_file_reads_imports (fileName text : String) (target : ScriptTarget) (kind : ScriptKind)
    (setParents : Bool) :
    let l := LoweredFile.ofFile (.parse fileName text target kind setParents)
    ∃ (c : Context) (r : Registered), ofFile l.file l.scopes l.facts l.lowering = .ok ([r.tree c], c) ∧
      r.Answers c (l.file.statements.filter isImport) ∧ ReadsNames l c r := by
  obtain ⟨ledger, within⟩ := SourceFile.parse_within fileName text target kind setParents
  exact ofFile_readsNames (SourceFile.parse_kind fileName text target kind setParents) within
    (SourceFile.parse_sorted fileName text target kind setParents)

/-- What is called through its import is a member of the object of its module, so that it is given the object to
work on. -/
theorem imported_callee_is_member :
    ∃ f, f = SourceFile.parse "a.ts" "import { f } from \"m\";\nf();" .esNext .ts true ∧
      (f.diagnostics.isEmpty ∧ f.isModule) ∧
      let l := LoweredFile.ofFile f
      ∃ (c : Context) (r : Registered) (n e d : Node) (p q : Form.Call) (object : String),
        ofFile l.file l.scopes l.facts l.lowering = .ok ([r.tree c], c) ∧ n ∈ r.execute ∧
          n.form = .wrapped e ∧ e.form = .call p ∧ l.scopes.importOf? p.expression = some d ∧
          isImportPart d = true ∧
          (e.spellOut (l.substitution.orElse (substitution c)) .value).form = .call q ∧
          q.expression = Made.kept (Made.member (Made.identifier object) "f") := by
  have read (f : SourceFile)
      (same : f = .parse "a.ts" "import { f } from \"m\";\nf();" .esNext .ts true) :
      (f.diagnostics.isEmpty ∧ f.isModule) ∧ 3 ≤ f.root.height ∧
        f.statements.map Node.kind = [.importDeclaration, .expressionStatement] ∧
        (∀ i ∈ f.statements, i.kind = .importDeclaration → isImport i = true ∧ moduleName? i = some "m" ∧
          bindsNothing i = false ∧ isDirective i = false ∧ i.onlyMember?.any fun m =>
            m.2.isName && m.2.identifierText? == some "f") ∧
        ∀ n ∈ f.statements, n.kind = .expressionStatement → n.isAmbient = false ∧ n.children.length = 1 ∧
          n.madeCall?.any fun m => m.1.kind == .callExpression && m.1.children.length == 1 &&
            m.2.expression.isName && m.2.expression.identifierText? == some "f" &&
            !m.2.expression.isSynthesized := by
    rw [same]
    decide +kernel
  obtain ⟨ledger, within⟩ :=
    SourceFile.parse_within "a.ts" "import { f } from \"m\";\nf();" .esNext .ts true
  have kind := SourceFile.parse_kind "a.ts" "import { f } from \"m\";\nf();" .esNext .ts true
  have sorted := SourceFile.parse_sorted "a.ts" "import { f } from \"m\";\nf();" .esNext .ts true
  obtain ⟨f, same⟩ :
      ∃ f, f = SourceFile.parse "a.ts" "import { f } from \"m\";\nf();" .esNext .ts true :=
    ⟨_, rfl⟩
  obtain ⟨clean, deep, kinds, importFacts, callFacts⟩ := read f same
  rw [← same] at within kind sorted
  obtain ⟨i, rest, file, importKind, kinds⟩ := List.map_eq_cons_iff.mp kinds
  obtain ⟨n, file', callKind⟩ := List.map_eq_singleton_iff.mp kinds
  rw [file'] at file
  have mem : n ∈ f.statements := by simp [file]
  have mem' : i ∈ f.statements := by simp [file]
  obtain ⟨imported, named, binds, other, own⟩ := importFacts i mem' importKind
  obtain ⟨present, only, call⟩ := callFacts n mem callKind
  obtain ⟨⟨d, own⟩, member, ownFacts⟩ := (Option.any_eq_true ..).mp own
  obtain ⟨⟨e, p⟩, called, callFacts⟩ := (Option.any_eq_true ..).mp call
  simp only [Bool.and_eq_true, beq_iff_eq, Bool.not_eq_true'] at ownFacts callFacts
  obtain ⟨ownName, ownReads⟩ := ownFacts
  obtain ⟨⟨⟨⟨kind', alone⟩, name⟩, reads⟩, given⟩ := callFacts
  obtain ⟨form, form'⟩ := Node.form_of_madeCall? called
  have contains : f.root.Contains p.expression :=
    .ofChild (mem_children_of_mem_statements mem) (Node.contains_callee called)
  have parsed : p.expression.parsed = p.expression :=
    Node.parsed_of_origin (contains.closed (fun _ _ => Within.child) within).parsed
  have found : (ScopeTable.ofTree f.root).importOf? p.expression = some d :=
    ScopeTable.importOf?_callsName file deep importKind member
      ⟨callKind, called, only, kind', alone, Node.kind_of_isName name⟩
      (Node.nameText?_of_identifierText? ownReads) (by decide) reads parsed given
  obtain ⟨statements, c, ok⟩ := ofFile_ok within (.ofTree f.root) (.ofFile f.root (.ofTree f.root))
  obtain ⟨r, _, _, rfl, roles, -, lowering, -⟩ := ofFile_introduces ok
  obtain ⟨names, s, ran, -⟩ := roles.inner
  obtain ⟨object, reading⟩ :=
    ofFile_readsImports kind within sorted ok (List.mem_filter.mpr ⟨mem', imported⟩) named binds
  have readAs := isReadAs_of_onlyMember? member ownName ownReads object
  have left : n ∈ r.execute := by
    refine mem_execute within lowering ran ?_ form callKind present
    rw [file, List.span_eq_takeWhile_dropWhile, List.dropWhile_cons, other]
    simp
  have call := reading.form_spellOut_call readAs rfl form' contains name found
  refine ⟨f, same, clean, c, r, n, e, d, p, _, object, ok, left, form, form', found, ?_, call, rfl⟩
  obtain ⟨_, _, _, _, _, -, -, -, -, -, -, bound⟩ := Node.form_of_onlyMember? member
  rw [isImportPart, bound]

end Registration

end ScriptFrontend
