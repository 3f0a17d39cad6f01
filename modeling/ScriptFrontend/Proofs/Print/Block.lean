import Mathlib.Data.List.Basic
import ScriptFrontend.Print.Statement
import ScriptFrontend.Source.File

/-!
# Rows of statements

Declarations of types, and of what is there elsewhere, print nothing. In a row of statements they leave no trace:
every other statement is printed where it would be without them.

In the body of a constructor the assignments to its properties stand together, among statements that stay as they are
and in order. They are behind the first statement that is a call of the constructor of the base class, and in front of
all statements if there is none.
-/

namespace ScriptFrontend

namespace Print

/-! ## Statements that print nothing -/

variable {n : Node} {items before after : List Node} {p : Printing} {w : Writer}

def declaresValues (n : Node) : Bool :=
  match n.form with
  | .variableStatement _ _ | .functionLike _ | .classLike _ | .enumeration _ _ _ | .module _ _ _ => true
  | _ => false

/-- The statement stands for types, or for what is there elsewhere. -/
inductive IsErased (n : Node) : Prop
  | interface {p : Form.ClassLike} (form : n.form = .classLike p) (kind : n.kind = .interfaceDeclaration)
  | typeAlias {p : Form.TypeAlias} (form : n.form = .typeAlias p)
  | signature {p : Form.FunctionLike} (form : n.form = .functionLike p) (body : p.body = none)
  | declaredElsewhere (declares : declaresValues n = true) (ambient : isDeclaredElsewhere n = true)
  | importOfTypes {p : Form.ImportDeclaration} {clause : Node} {name bindings : Option Node}
    (form : n.form = .importDeclaration p) (held : p.clause = some clause)
    (typeOnly : clause.form = .importClause true name bindings)
  | importOfNothing {p : Form.ImportDeclaration} {clause : Node} {bindings : Option Node}
    (form : n.form = .importDeclaration p) (held : p.clause = some clause)
    (unnamed : clause.form = .importClause false none bindings) (nothing : runBindings bindings = none)
  | importEqualsType {p : Form.ImportEquals} (form : n.form = .importEquals p) (typeOnly : p.typeOnly = true)
  | exportOfTypes {p : Form.ExportDeclaration} (form : n.form = .exportDeclaration p) (typeOnly : p.typeOnly = true)
  | exportOfNothing {p : Form.ExportDeclaration} {clause : Node} {multiLine : Bool} {l : NodeList}
    (form : n.form = .exportDeclaration p) (held : p.clause = some clause) (list : clause.form = .list multiLine l)
    (written : l.isEmpty = false) (nothing : runSpecifiers clause = [])

theorem IsErased.settledStatement_eq (h : IsErased n) : settledStatement n = pure () := by
  rw [settledStatement]
  cases h with
  | interface form kind =>
    rw [form, kind]
    rfl
  | typeAlias form => rw [form]
  | signature form body =>
    rw [form]
    dsimp only
    rw [body, Option.isSome_none, Bool.and_false, Bool.false_and, if_neg Bool.false_ne_true]
  | declaredElsewhere declares ambient =>
    rw [ambient]
    rw [declaresValues] at declares
    split at declares
    case h_6 => cases declares
    all_goals
      rename_i form
      rw [form]
      simp
  | importOfTypes form held typeOnly =>
    rw [form]
    dsimp only
    rw [importDeclaration, held]
    dsimp only
    rw [typeOnly]
  | importOfNothing form held unnamed nothing =>
    rw [form]
    dsimp only
    rw [importDeclaration, held]
    dsimp only
    rw [unnamed]
    dsimp only
    rw [nothing]
    rfl
  | importEqualsType form typeOnly =>
    rw [form]
    dsimp only
    rw [importEquals, typeOnly]
    rfl
  | exportOfTypes form typeOnly =>
    rw [form]
    dsimp only
    rw [exportDeclaration, typeOnly]
    rfl
  | exportOfNothing form held list written nothing =>
    rw [form]
    dsimp only
    rw [exportDeclaration]
    split
    · rfl
    · rw [held]
      dsimp only
      rw [list]
      dsimp only
      rw [nothing]
      exact if_pos (by simp [written])

/-! ## Rows of statements -/

abbrev line (n : Node) (_ : PUnit) : Print (ForInStep PUnit) := do
  statement n
  endLine
  return .yield ⟨⟩

abbrev turn (σ : Substitution) (n : Node) (_ : PUnit) : Print (ForInStep PUnit) := do
  let _ ← forIn ((σ.statement n).getD [n]) PUnit.unit line
  return .yield ⟨⟩

theorem statements_cons : statements (n :: items) p w =
    statements items p ((forIn ((p.substitution.statement n).getD [n]) PUnit.unit line : Print PUnit) p w).2 := by
  change (forIn (n :: items) PUnit.unit (turn p.substitution) : Print PUnit) p w = _
  rw [List.forIn_cons]
  rfl

theorem statements_append : statements (before ++ after) p w = statements after p (statements before p w).2 := by
  induction before generalizing w with
  | nil => rfl
  | cons n before ih => rw [List.cons_append, statements_cons, statements_cons, ih]

theorem atLineStart_endLine (w : Writer) (style : PrintStyle) : (w.endLine style).atLineStart = true := by
  rw [Writer.endLine]
  split
  · assumption
  · rfl

theorem atLineStart_lines (start : w.atLineStart = true) :
    ((forIn items PUnit.unit line : Print PUnit) p w).2.atLineStart = true := by
  induction items generalizing w with
  | nil => exact start
  | cons n items ih =>
    rw [List.forIn_cons]
    exact ih (atLineStart_endLine _ _)

theorem atLineStart_statements (start : w.atLineStart = true) : (statements items p w).2.atLineStart = true := by
  induction items generalizing w with
  | nil => exact start
  | cons n items ih =>
    rw [statements_cons]
    exact ih (atLineStart_lines start)

/-- In a row that starts on a new line, a statement without a text leaves no trace. -/
theorem statements_without (own : p.substitution.statement n = none) (blank : p.print .statement n = pure ())
    (start : w.atLineStart = true) : statements (before ++ n :: after) p w = statements (before ++ after) p w := by
  rw [statements_append, statements_append, statements_cons, own, Option.getD_none]
  have ends : (statements before p w).2.atLineStart = true := atLineStart_statements start
  generalize (statements before p w).2 = v at ends
  have line : ((forIn [n] PUnit.unit line : Print PUnit) p v).2 = v := by
    change ((p.print .statement n v).2.endLine p.style) = v
    rw [blank]
    exact if_pos ends
  rw [line]

/-! ## Rows inside of statements -/

variable {q q' : Print Unit}

theorem indented_congr (same : ∀ v : Writer, v.atLineStart = true → q p v = q' p v) (start : w.atLineStart = true) :
    indented q p w = indented q' p w := by
  have inner := same { w with level := w.level + 1 } start
  change (((modify fun w => { w with level := w.level - 1 }) : StateM Writer Unit) (q p _).2) = _
  rw [inner]
  rfl

theorem braced_congr (same : ∀ v : Writer, v.atLineStart = true → q p v = q' p v) : braced q p w = braced q' p w := by
  have inner := indented_congr same (atLineStart_endLine (w.write p.style "\x7b") p.style)
  change write "\x7d" p (indented q p _).2 = write "\x7d" p (indented q' p _).2
  rw [inner]

/-- Between braces an erased statement leaves no trace if there are others. -/
theorem blockWith_without (own : p.substitution.statement n = none) (blank : p.print .statement n = pure ())
    (others : before ++ after ≠ []) : blockWith (before ++ n :: after) [] p w = blockWith (before ++ after) [] p w := by
  have some : (before ++ n :: after).isEmpty = false := by simp
  have some' : (before ++ after).isEmpty = false := by simpa using others
  rw [blockWith, blockWith, some, some']
  exact braced_congr fun v start => statements_without own blank start

theorem upTo_of_isErased (style : PrintStyle) (source : String) (σ : Substitution) (depth : Nat) (h : IsErased n) :
    upTo style source σ depth .statement n = pure () := by
  cases depth with
  | zero => rfl
  | succ depth =>
    rw [upTo, inRole, h.settledStatement_eq]
    rfl

end Print

open Print

theorem erased_statement_leaves_no_trace {n : Node} (style : PrintStyle) (source : String) (σ : Substitution)
    (before after : List Node) (erased : IsErased n) (own : σ.statement n = none) :
    printStatements style source σ (before ++ n :: after) = printStatements style source σ (before ++ after) ∧
      (before ++ after ≠ [] → ∀ (depth : Nat) (w : Writer),
        blockWith (before ++ n :: after) [] ⟨style, source, σ, upTo style source σ depth⟩ w =
          blockWith (before ++ after) [] ⟨style, source, σ, upTo style source σ depth⟩ w) := by
  constructor
  · let p : Printing := ⟨style, source, σ, upTo style source σ (depthOf source)⟩
    have blank : p.print .statement n = pure () := upTo_of_isErased style source σ (depthOf source) erased
    have same : statements (before ++ n :: after) p {} = statements (before ++ after) p {} :=
      statements_without own blank rfl
    rw [printStatements, printStatements, Print.run, Print.run]
    change style.finish (statements (before ++ n :: after) p {}).2.out = _
    rw [same]
    rfl
  · intro others depth w
    exact blockWith_without own (upTo_of_isErased style source σ depth erased) others

theorem interface_leaves_no_trace :
    ∃ n, (SourceFile.parse "a.ts" "interface I \x7b \x7d" .esNext .ts true).statements = [n] ∧ IsErased n ∧
      Substitution.statement {} n = none ∧
      printStatements {} "interface I \x7b \x7d" {} [n] = printStatements {} "interface I \x7b \x7d" {} [] := by
  have read : (SourceFile.parse "a.ts" "interface I \x7b \x7d" .esNext .ts true).statements.map
      (fun n => (n.kind, n.form.shape)) = [(.interfaceDeclaration, .classLike)] := by decide +kernel
  obtain ⟨n, file, facts⟩ := List.map_eq_singleton_iff.mp read
  obtain ⟨kind, shape⟩ := Prod.mk.inj facts
  have erased : IsErased n := by
    cases form : n.form <;> simp [form, Form.shape] at shape
    exact .interface form kind
  exact ⟨n, file, erased, rfl, (erased_statement_leaves_no_trace {} _ {} [] [] erased rfl).1⟩

namespace Print

/-! ## Parameters that declare properties -/

inductive BodyLine where
  | statement (n : Node)
  | property (name : String)

namespace BodyLine

def statement? : BodyLine → Option Node
  | statement n => some n
  | property _ => none

def property? : BodyLine → Option String
  | statement _ => none
  | property name => some name

/-- A statement, or what stands in its place, or an assignment to a property. -/
def print : BodyLine → Print Unit
  | statement n => statements [n]
  | property name => propertyAssignment name

end BodyLine

def bodyLines (items : List Node) (properties : List String) : List BodyLine :=
  let split := ((items.findIdx? isSuperCall).map (· + 1)).getD 0
  (items.take split).map .statement ++ properties.map .property ++ (items.drop split).map .statement

variable {items before after : List Node} {properties : List String} {n : Node} {p : Printing} {w : Writer}

/-! ## Which lines there are -/

theorem filterMap_statement?_statements : (items.map .statement).filterMap BodyLine.statement? = items := by
  rw [List.filterMap_map]
  exact List.filterMap_some

theorem filterMap_statement?_properties : (properties.map .property).filterMap BodyLine.statement? = [] := by
  rw [List.filterMap_map]
  exact List.filterMap_none ..

theorem filterMap_property?_statements : (items.map .statement).filterMap BodyLine.property? = [] := by
  rw [List.filterMap_map]
  exact List.filterMap_none ..

theorem filterMap_property?_properties : (properties.map .property).filterMap BodyLine.property? = properties := by
  rw [List.filterMap_map]
  exact List.filterMap_some

theorem filterMap_statement?_bodyLines : (bodyLines items properties).filterMap BodyLine.statement? = items := by
  rw [bodyLines, List.filterMap_append, List.filterMap_append, filterMap_statement?_statements,
    filterMap_statement?_properties, filterMap_statement?_statements, List.append_nil, List.take_append_drop]

theorem filterMap_property?_bodyLines : (bodyLines items properties).filterMap BodyLine.property? = properties := by
  rw [bodyLines, List.filterMap_append, List.filterMap_append, filterMap_property?_statements,
    filterMap_property?_properties, filterMap_property?_statements, List.nil_append, List.append_nil]

/-! ## Where the assignments are -/

theorem bodyLines_of_isSuperCall (others : ∀ m ∈ before, isSuperCall m = false) (call : isSuperCall n = true) :
    bodyLines (before ++ n :: after) properties =
      (before ++ [n]).map .statement ++ properties.map .property ++ after.map .statement := by
  have place : (before ++ n :: after).findIdx? isSuperCall = some before.length := by
    rw [List.findIdx?_append, List.findIdx?_eq_none_iff.mpr others, List.findIdx?_cons, if_pos call]
    simp
  have split : before ++ n :: after = before ++ [n] ++ after := List.append_cons ..
  have length : before.length + 1 = (before ++ [n]).length := by simp
  rw [bodyLines, place, Option.map_some, Option.getD_some, split, length, List.take_left, List.drop_left]

theorem bodyLines_of_none (others : ∀ m ∈ items, isSuperCall m = false) :
    bodyLines items properties = properties.map .property ++ items.map .statement := by
  rw [bodyLines, List.findIdx?_eq_none_iff.mpr others]
  rfl

/-! ## Printing -/

theorem statements_eq_forM : statements items p w = ((items.map .statement).forM BodyLine.print : Print Unit) p w := by
  induction items generalizing w with
  | nil => rfl
  | cons n items ih =>
    rw [← List.singleton_append, statements_append, ih]
    rfl

theorem properties_eq_forM :
    properties.forM propertyAssignment p w = ((properties.map .property).forM BodyLine.print : Print Unit) p w := by
  induction properties generalizing w with
  | nil => rfl
  | cons name properties ih => exact ih

theorem forM_print_append {lines rest : List BodyLine} :
    (lines ++ rest).forM BodyLine.print p w = rest.forM BodyLine.print p (lines.forM BodyLine.print p w).2 := by
  induction lines generalizing w with
  | nil => rfl
  | cons line lines ih => exact ih

/-- A block with assignments to properties is its lines between braces. -/
theorem blockWith_eq (some : properties ≠ []) :
    blockWith items properties p w = braced ((bodyLines items properties).forM BodyLine.print) p w := by
  have some' : properties.isEmpty = false := by simpa using some
  rw [blockWith, some', Bool.and_false, if_neg Bool.false_ne_true, if_neg Bool.false_ne_true]
  refine braced_congr fun v _ => ?_
  rw [bodyLines, forM_print_append, forM_print_append, ← statements_eq_forM, ← statements_eq_forM,
    ← properties_eq_forM]
  rfl

theorem map_some_propertyParameters {parameters : NodeList}
    (named : ∀ q ∈ parameters.items, q.hasModifier ModifierFlags.parameterProperty = true →
      (q.name?.bind Node.identifierText?).isSome = true) :
    (propertyParameters parameters).map some =
      (parameters.items.filter (·.hasModifier ModifierFlags.parameterProperty)).map fun q =>
        q.name?.bind Node.identifierText? := by
  rw [propertyParameters, List.map_filterMap]
  refine (List.filterMap_congr fun q mem => ?_).trans (congrFun List.filterMap_eq_map' _)
  obtain ⟨inside, declares⟩ := List.mem_filter.mp mem
  obtain ⟨text, found⟩ := Option.isSome_iff_exists.mp (named q inside declares)
  rw [found]
  rfl

/-- The body of a constructor with properties is a row of lines between braces: its statements in order, and one
assignment for each parameter that declares a property, in order. The assignments stand directly behind the first
call of the constructor of the base class, and in front of all statements if no statement is one. -/
theorem constructor_assigns_properties {parameters : NodeList} {body : Node} {multiLine : Bool} {l : NodeList}
    (form : body.form = .block multiLine l) (some : propertyParameters parameters ≠ [])
    (named : ∀ q ∈ parameters.items, q.hasModifier ModifierFlags.parameterProperty = true →
      (q.name?.bind Node.identifierText?).isSome = true) :
    ∃ lines : List BodyLine,
      (∀ p w, functionBody .constructor parameters body p w = braced (lines.forM BodyLine.print) p w) ∧
      lines.filterMap BodyLine.statement? = l.items ∧
      (lines.filterMap BodyLine.property?).map Option.some =
        (parameters.items.filter (·.hasModifier ModifierFlags.parameterProperty)).map
          (fun q => q.name?.bind Node.identifierText?) ∧
      (∀ before n after, l.items = before ++ n :: after → (∀ m ∈ before, isSuperCall m = false) →
        isSuperCall n = true → lines = (before ++ [n]).map .statement ++
          (propertyParameters parameters).map .property ++ after.map .statement) ∧
      ((∀ m ∈ l.items, isSuperCall m = false) →
        lines = (propertyParameters parameters).map .property ++ l.items.map .statement) := by
  refine ⟨bodyLines l.items (propertyParameters parameters), fun p w => ?_, filterMap_statement?_bodyLines, ?_,
    fun before n after items others call => ?_, bodyLines_of_none⟩
  · rw [functionBody, form]
    exact blockWith_eq some
  · rw [filterMap_property?_bodyLines]
    exact map_some_propertyParameters named
  · rw [items]
    exact bodyLines_of_isSuperCall others call

/-- A constructor with one parameter, which declares a property, and two statements, of which the first one calls
the constructor of the base class. -/
def isDerivedConstructor (n : Node) : Bool :=
  match n.form with
  | .functionLike q =>
    propertyParameters q.parameters == ["p"] &&
      q.parameters.items.all (fun r => (r.name?.bind Node.identifierText?).isSome) &&
      q.body.any fun body =>
        match body.form with
        | .block _ l => l.items.map isSuperCall == [true, false]
        | _ => false
  | _ => false

theorem constructor_assigns_properties_behind_first_call :
    ∃ n ∈ (SourceFile.parse "a.ts" "class C extends B \x7b constructor(private p) \x7b super(); p(); \x7d \x7d"
        .esNext .ts true).statements.flatMap Node.children,
      ∃ (q : Form.FunctionLike) (body : Node) (multiLine : Bool) (l : NodeList) (first second : Node),
        n.form = .functionLike q ∧ q.body = some body ∧ body.form = .block multiLine l ∧ l.items = [first, second] ∧
          propertyParameters q.parameters = ["p"] ∧
          (∀ r ∈ q.parameters.items, r.hasModifier ModifierFlags.parameterProperty = true →
            (r.name?.bind Node.identifierText?).isSome = true) ∧
          ∀ p w, functionBody .constructor q.parameters body p w =
            braced ([.statement first, .property "p", .statement second].forM BodyLine.print) p w := by
  have read : ∃ n ∈ (SourceFile.parse "a.ts" "class C extends B \x7b constructor(private p) \x7b super(); p(); \x7d \x7d"
      .esNext .ts true).statements.flatMap Node.children, isDerivedConstructor n = true := by decide +kernel
  obtain ⟨n, mem, derived⟩ := read
  rw [isDerivedConstructor] at derived
  split at derived
  case h_2 => cases derived
  rename_i q form
  simp only [Bool.and_eq_true, beq_iff_eq] at derived
  obtain ⟨⟨properties, named⟩, block⟩ := derived
  obtain ⟨body, held, block⟩ := (Option.any_eq_true ..).mp block
  split at block
  case h_2 => cases block
  rename_i multiLine l block_form
  obtain ⟨first, rest, items, call, more⟩ := List.map_eq_cons_iff.mp (beq_iff_eq.mp block)
  obtain ⟨second, rfl, -⟩ := List.map_eq_singleton_iff.mp more
  have named : ∀ r ∈ q.parameters.items, r.hasModifier ModifierFlags.parameterProperty = true →
      (r.name?.bind Node.identifierText?).isSome = true := fun r mem _ => List.all_eq_true.mp named r mem
  obtain ⟨lines, printed, -, -, place, -⟩ :=
    constructor_assigns_properties block_form (by rw [properties]; exact nofun) named
  have lines_eq := place [] first [second] items (List.forall_mem_nil _) call
  rw [properties] at lines_eq
  subst lines_eq
  exact ⟨n, mem, q, body, multiLine, l, first, second, form, held, block_form, items, properties, named, printed⟩

end Print

end ScriptFrontend
