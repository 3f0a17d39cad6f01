import ScriptFrontend.Proofs.Print.Expression
import ScriptFrontend.Proofs.Print.Function

/-!
# Statements that are spelled out

What is imported and exported is copied, but for the values of attributes. Enumerations and namespaces
print as they were written, spelled out or not.

Whatever a substitution does, a tree prints with it what the tree with its names spelled out prints with
what is left of the substitution.
-/

namespace ScriptFrontend

open Node

set_option synthInstance.maxSize 4096

variable {σ : Substitution} {place : Position} {n : Node}

/-! ## Questions about nodes that are spelled out -/

theorem Node.looksLikeStatement_of_kind {m : Node} (same : m.kind = n.kind) :
    m.looksLikeStatement = n.looksLikeStatement := by
  rw [looksLikeStatement, looksLikeStatement, same]

theorem Shape.places_of_startsWithChild {s : Shape} {k : Kind} (starts : startsWithChild k s = true) :
    ∃ rest, s.places place k = .value :: rest := by
  cases s
  case wrapped =>
    have kind : k = .nonNullExpression := beq_iff_eq.mp starts
    exact ⟨[], by rw [kind]; rfl⟩
  case call | propertyAccess | elementAccess | binary | conditional | taggedTemplate |
      typedExpression | unary =>
    exact ⟨_, rfl⟩
  all_goals cases starts

theorem Node.leftmost_of_not_starts (h : startsWithChild n.kind n.shape = false) : n.leftmost = n := by
  rw [leftmost.eq_def]
  split
  · exact if_neg (Bool.eq_false_iff.mp h)
  · rfl

theorem Node.leftmost_of_name (name : n.isName = true) : n.leftmost.looksLikeStatement = false := by
  obtain ⟨text, word, form⟩ := form_of_isName name
  rw [leftmost_of_not_starts (by rw [shape_of_identifier form]; rfl), looksLikeStatement, kind_of_isName name]

theorem Node.leftmost_kept (a : Node) : (Made.kept a).leftmost.looksLikeStatement = false := by
  rw [leftmost_of_not_starts rfl]
  rfl

theorem Node.leftmost_spellOut (σ : Substitution) : ∀ n : Node,
    (n.spellOut σ .value).leftmost.looksLikeStatement = n.leftmost.looksLikeStatement
  | .mk h s slots docs origin => by
    rcases value_cases σ (.mk h s slots docs origin) with spelled | ⟨a, name, -, is⟩
    · have kind := spelled.kind
      have looks : (spellOut σ .value (.mk h s slots docs origin)).looksLikeStatement =
          (mk h s slots docs origin).looksLikeStatement := looksLikeStatement_of_kind kind
      by_cases starts : startsWithChild h.kind s = true
      · obtain ⟨places, eq⟩ : ∃ places, s.places .value h.kind = .value :: places :=
          Shape.places_of_startsWithChild starts
        have starts' : startsWithChild (h.placed .value s).kind s = true := by
          rw [spellOut_eq spelled] at kind
          exact (congrArg (startsWithChild · s) kind).trans starts
        rw [spellOut_eq spelled] at looks ⊢
        change (mk _ s (spellOutSlots σ (s.places .value h.kind) slots) _ _).leftmost.looksLikeStatement = _
        change (mk _ s (spellOutSlots σ (s.places .value h.kind) slots) _ _).looksLikeStatement = _ at looks
        rw [eq] at looks ⊢
        match slots with
        | .node first :: rest =>
          rw [spellOutSlots, spellOutSlot, leftmost, leftmost, if_pos starts]
          exact (congrArg looksLikeStatement (if_pos starts')).trans (leftmost_spellOut σ first)
        | [] => exact looks
        | .absent :: rest => exact looks
        | .list head items :: rest => exact looks
      · have starts : startsWithChild h.kind s = false := Bool.eq_false_iff.mpr starts
        have starts' : startsWithChild (spellOut σ .value (.mk h s slots docs origin)).kind
            (spellOut σ .value (.mk h s slots docs origin)).shape = false := by
          rw [kind, spelled.shape]
          exact starts
        rw [leftmost_of_not_starts starts', looks]
        exact congrArg looksLikeStatement
          (leftmost_of_not_starts (n := .mk h s slots docs origin) starts).symm
    · rw [is, leftmost_kept, leftmost_of_name name]

theorem Node.eq_of_qualifiedName {left right : Node} (form : n.form = .qualifiedName left right) :
    ∃ h docs origin, n = .mk h .qualifiedName [.node left, .node right] docs origin := by
  cases n with
  | mk h s slots docs origin =>
    cases shape_of_form form rfl
    dsimp only [Node.form, Form.ofLayout, Node.shape, Node.slots] at form
    split at form
    · cases form
      exact ⟨h, docs, origin, rfl⟩
    · cases form

theorem Print.entityName_eq (n : Node) : entityName n =
    match n.form with
    | .qualifiedName left right => do
      entityName left
      write "."
      name right
    | _ => expression n := by
  rw [entityName.eq_def]
  split
  · rfl
  · rename_i other
    split
    · rename_i left right form
      obtain ⟨h, docs, origin, rfl⟩ := eq_of_qualifiedName form
      exact absurd rfl (other _ _ _ _ _)
    · rfl

namespace Agrees

/-! ## Imports and exports -/

instance bracedRow (f' f : Node → Print Unit) (g : Node → Node) (ns : List Node)
    [each : ∀ n, Agrees σ (f' (g n)) (f n)] :
    Agrees σ (Print.bracedRow f' (ns.map g)) (Print.bracedRow f ns) := by
  unfold Print.bracedRow
  simp only [List.isEmpty_map]
  infer_instance

instance bracedRow_same (f' f : Node → Print Unit) (ns : List Node) [each : ∀ n, Agrees σ (f' n) (f n)] :
    Agrees σ (Print.bracedRow f' ns) (Print.bracedRow f ns) := by
  unfold Print.bracedRow
  infer_instance

instance specifier : Agrees σ (Print.specifier n) (Print.specifier n) := by
  unfold Print.specifier
  cases n.form
  all_goals
    dsimp only
    infer_instance

instance importAttribute :
    Agrees σ (Print.importAttribute (n.spellOut σ .part)) (Print.importAttribute n) := by
  rw [Print.importAttribute, Print.importAttribute, form_spellOut_part]
  cases n.form
  all_goals
    dsimp only [Form.spellOut]
    infer_instance

instance importAttributes :
    Agrees σ (Print.importAttributes (n.spellOut σ .attributes)) (Print.importAttributes n) := by
  have head : (n.spellOut σ .attributes).head = n.head := isSpelled_attributes.head rfl
  have text : Agrees σ (Print.sourceText (n.spellOut σ .attributes)) (Print.sourceText n) :=
    ⟨fun p p' spells => by
    change (Pure.pure ((n.spellOut σ .attributes).textIn p'.source) : StateM Writer String) =
      Pure.pure (n.textIn p.source)
    rw [spells.source, textIn_of_head head]⟩
  rw [Print.importAttributes, Print.importAttributes, isSpelled_attributes.form]
  cases n.form
  all_goals
    simp only [Form.spellOut, Position.resolve, Position.item_attributes, NodeList.items_spellOut]
    infer_instance

instance moduleSource (source : Node) (l : Option Node) :
    Agrees σ (Print.moduleSource source (l.map (·.spellOut σ .attributes)))
      (Print.moduleSource source l) := by
  unfold Print.moduleSource
  infer_instance

instance namedBindings : Agrees σ (Print.namedBindings n) (Print.namedBindings n) := by
  unfold Print.namedBindings
  cases n.form
  all_goals
    dsimp only
    infer_instance

instance importDeclaration (p : Form.ImportDeclaration) :
    Agrees σ (Print.importDeclaration { p with attributes := p.attributes.map (·.spellOut σ .attributes) })
      (Print.importDeclaration p) := by
  rw [Print.importDeclaration, Print.importDeclaration]
  dsimp only
  cases p.clause with
  | none =>
    dsimp only
    infer_instance
  | some clause =>
    dsimp only
    cases clause.form
    case importClause typeOnly clauseName bindings =>
      cases typeOnly
      all_goals
        dsimp only
        infer_instance
    all_goals
      dsimp only
      infer_instance

instance exportSource (source l : Option Node) :
    Agrees σ (Print.exportSource source (l.map (·.spellOut σ .attributes)))
      (Print.exportSource source l) := by
  unfold Print.exportSource
  cases source
  all_goals
    dsimp only
    infer_instance

instance exportDeclaration (p : Form.ExportDeclaration) :
    Agrees σ (Print.exportDeclaration { p with attributes := p.attributes.map (·.spellOut σ .attributes) })
      (Print.exportDeclaration p) := by
  rw [Print.exportDeclaration, Print.exportDeclaration]
  dsimp only
  cases p.clause with
  | none =>
    dsimp only
    infer_instance
  | some clause =>
    dsimp only
    cases clause.form
    all_goals
      dsimp only
      infer_instance

instance entityName : Agrees σ (Print.entityName (n.spellOut σ .value)) (Print.entityName n) := by
  induction n using Print.entityName.induct with
  | case1 h left right docs origin ih =>
    have spelled : (Node.mk h .qualifiedName [.node left, .node right] docs origin).IsSpelled σ .value :=
      isSpelled_value fun name => by cases (Bool.and_eq_true_iff.mp name).2
    rw [Print.entityName_eq, Print.entityName_eq, spelled.form]
    change Agrees σ (Print.entityName (left.spellOut σ .value) >>= _) (Print.entityName left >>= _)
    infer_instance
  | case2 n other =>
    rw [Print.entityName_eq, Print.entityName_eq]
    rcases value_cases σ n with spelled | ⟨a, name, found, is⟩
    · rw [spelled.form]
      cases form : n.form
      case qualifiedName left right =>
        obtain ⟨h, docs, origin, rfl⟩ := eq_of_qualifiedName form
        exact absurd rfl (other _ _ _ _ _)
      all_goals
        dsimp only [Form.spellOut]
        infer_instance
    · have value : Agrees σ (Print.expression (Made.kept a)) (Print.expression n) := is ▸ expression n
      obtain ⟨text, word, form⟩ := form_of_isName name
      rw [is, form]
      exact value

instance importEquals (p : Form.ImportEquals) :
    Agrees σ
      (Print.importEquals (n.spellOut σ .part) { p with reference := p.reference.spellOut σ .reference })
      (Print.importEquals n p) := by
  rw [Print.importEquals, Print.importEquals, isSpelled_part.hasModifier]
  dsimp only
  by_cases external : p.reference.kind = .externalModuleReference
  · have same : p.reference.spellOut σ .reference = p.reference := by
      rw [← spellOut_resolve, Position.resolve, if_pos (by simpa using external), spellOut_copied]
    rw [same, external]
    simp only [beq_self_eq_true, if_true]
    infer_instance
  · have value : p.reference.spellOut σ .reference = p.reference.spellOut σ .value := by
      rw [← spellOut_resolve, Position.resolve, if_neg (by simpa using external)]
    rw [value, kind_spellOut_value (by decide) (by decide), beq_false_of_ne external]
    simp only [Bool.false_eq_true, if_false]
    infer_instance

/-! ## Statements -/

instance expressionStatement :
    Agrees σ (Print.expressionStatement (n.spellOut σ .value)) (Print.expressionStatement n) := by
  have same : ((n.spellOut σ .value).isSynthesized && (n.spellOut σ .value).leftmost.looksLikeStatement) =
      (n.isSynthesized && n.leftmost.looksLikeStatement) := by
    rw [leftmost_spellOut]
    rcases value_cases σ n with spelled | ⟨a, name, found, is⟩
    · rw [spelled.isSynthesized]
    · rw [leftmost_of_name name, Bool.and_false, Bool.and_false]
  unfold Print.expressionStatement
  rw [same]
  infer_instance

instance embedded : Agrees σ (Print.embedded (n.spellOut σ .part)) (Print.embedded n) := by
  unfold Print.embedded
  rw [kind_spellOut_part]
  infer_instance

instance afterEmbedded : Agrees σ (Print.afterEmbedded (n.spellOut σ .part)) (Print.afterEmbedded n) := by
  unfold Print.afterEmbedded
  rw [kind_spellOut_part]
  infer_instance

instance variableDeclaration :
    Agrees σ (Print.variableDeclaration (n.spellOut σ .part)) (Print.variableDeclaration n) := by
  rw [Print.variableDeclaration, Print.variableDeclaration, form_spellOut_part]
  cases n.form
  all_goals
    dsimp only [Form.spellOut]
    infer_instance

theorem variableList_of (h : n.IsSpelled σ place) (item : (place.resolve n).item n.kind = .part) :
    Agrees σ (Print.variableList (n.spellOut σ place)) (Print.variableList n) := by
  rw [Print.variableList, Print.variableList, h.flags, h.form]
  cases n.form
  all_goals
    dsimp only [Form.spellOut, NodeList.items_spellOut]
    try rw [item]
    infer_instance

instance variableList : Agrees σ (Print.variableList (n.spellOut σ .part)) (Print.variableList n) :=
  variableList_of isSpelled_part rfl

instance loopStart : Agrees σ (Print.loopStart (n.spellOut σ .value)) (Print.loopStart n) := by
  rw [Print.loopStart, Print.loopStart, kind_spellOut_value (by decide) (by decide)]
  split
  · rename_i kind
    replace kind : n.kind = .variableDeclarationList := beq_iff_eq.mp kind
    exact variableList_of (isSpelled_of_kind kind (by decide)) (by rw [kind]; rfl)
  · infer_instance

instance headed (word : String) :
    Agrees σ (Print.headed word (n.spellOut σ .value)) (Print.headed word n) := by
  unfold Print.headed
  infer_instance

instance ifElse (condition yes : Node) (no : Option Node) :
    Agrees σ (Print.ifElse (condition.spellOut σ .value) (yes.spellOut σ .part) (no.map (·.spellOut σ .part)))
      (Print.ifElse condition yes no) := by
  have rest (no : Node) : Agrees σ
      (if (no.spellOut σ .part).kind == .ifStatement then do
        Print.write " "
        Print.statement (no.spellOut σ .part)
      else Print.embedded (no.spellOut σ .part))
      (if no.kind == .ifStatement then do
        Print.write " "
        Print.statement no
      else Print.embedded no) := by
    rw [kind_spellOut_part]
    infer_instance
  unfold Print.ifElse
  infer_instance

instance behindBlank : Agrees σ (Print.behindBlank (n.spellOut σ .value)) (Print.behindBlank n) := by
  unfold Print.behindBlank
  infer_instance

instance forLoop (p : Form.ForLoop) :
    Agrees σ (Print.forLoop {
        start := p.start.map (·.spellOut σ .value)
        condition := p.condition.map (·.spellOut σ .value)
        update := p.update.map (·.spellOut σ .value)
        body := p.body.spellOut σ .part })
      (Print.forLoop p) := by
  unfold Print.forLoop
  infer_instance

instance forEach (k : Kind) (p : Form.ForEach) :
    Agrees σ (Print.forEach k { p with
        start := p.start.spellOut σ .value
        expression := p.expression.spellOut σ .value
        body := p.body.spellOut σ .part })
      (Print.forEach k p) := by
  unfold Print.forEach
  dsimp only
  infer_instance

instance caseClause : Agrees σ (Print.caseClause (n.spellOut σ .part)) (Print.caseClause n) := by
  rw [Print.caseClause, Print.caseClause, form_spellOut_part]
  cases n.form
  case caseClause e body =>
    dsimp only [Form.spellOut, NodeList.items_spellOut]
    cases e
    all_goals
      dsimp only [Option.map]
      infer_instance
  all_goals
    dsimp only [Form.spellOut]
    infer_instance

instance switch (e cases : Node) :
    Agrees σ (Print.switch (e.spellOut σ .value) (cases.spellOut σ .part)) (Print.switch e cases) := by
  rw [Print.switch, Print.switch, form_spellOut_part]
  cases cases.form
  all_goals
    simp only [Form.spellOut, Position.item_part, NodeList.items_spellOut]
    infer_instance

instance catchClause : Agrees σ (Print.catchClause (n.spellOut σ .part)) (Print.catchClause n) := by
  rw [Print.catchClause, Print.catchClause, form_spellOut_part]
  cases n.form
  case catchClause declaration body =>
    cases declaration with
    | none =>
      dsimp only [Form.spellOut, Option.map]
      infer_instance
    | some declaration =>
      dsimp only [Form.spellOut, Option.map]
      rw [form_spellOut_part]
      cases declaration.form
      all_goals
        dsimp only [Form.spellOut]
        infer_instance
  all_goals
    dsimp only [Form.spellOut]
    infer_instance

instance tryCatch (body : Node) (handler finalizer : Option Node) :
    Agrees σ (Print.tryCatch (body.spellOut σ .part) (handler.map (·.spellOut σ .part))
        (finalizer.map (·.spellOut σ .part)))
      (Print.tryCatch body handler finalizer) := by
  unfold Print.tryCatch
  infer_instance

instance wordAndSemicolon (word : String) (f' f : Node → Print Unit) (g : Node → Node) (x : Option Node)
    [each : ∀ n, Agrees σ (f' (g n)) (f n)] :
    Agrees σ (Print.wordAndSemicolon word f' (x.map g)) (Print.wordAndSemicolon word f x) := by
  unfold Print.wordAndSemicolon
  infer_instance

instance wordAndSemicolon_same (word : String) (f' f : Node → Print Unit) (x : Option Node)
    [each : ∀ n, Agrees σ (f' n) (f n)] :
    Agrees σ (Print.wordAndSemicolon word f' x) (Print.wordAndSemicolon word f x) := by
  unfold Print.wordAndSemicolon
  infer_instance

instance wordAndSemicolon_some (word : String) (f' f : Node → Print Unit) (g : Node → Node) (n : Node)
    [each : ∀ n, Agrees σ (f' (g n)) (f n)] :
    Agrees σ (Print.wordAndSemicolon word f' (some (g n))) (Print.wordAndSemicolon word f (some n)) :=
  wordAndSemicolon word f' f g (some n)

theorem writeSource_part (copied : n.shape.isCopied = true) :
    Agrees σ (Print.writeSource (n.spellOut σ .part)) (Print.writeSource n) :=
  writeSource_of (isSpelled_part.head copied)

instance settledStatement :
    Agrees σ (Print.settledStatement (n.spellOut σ .part)) (Print.settledStatement n) := by
  have function := function_of (σ := σ) (n := n) isSpelled_part
  have classLike := classLike_of (σ := σ) (n := n) isSpelled_part
  rw [Print.settledStatement, Print.settledStatement, form_spellOut_part, kind_spellOut_part,
    Print.isDeclaredElsewhere, Print.isDeclaredElsewhere, isSpelled_part.hasModifier,
      isSpelled_part.isSynthesized]
  cases form : n.form
  case enumeration | module =>
    have := writeSource_part (σ := σ) (n := n) (by rw [shape_of_form form rfl]; rfl)
    dsimp only [Form.spellOut]
    infer_instance
  all_goals
    simp only [Form.spellOut, Option.isSome_map, NodeList.items_spellOut, Position.inside_part]
    infer_instance

end Agrees

/-! ## Trees -/

namespace Print

theorem seq_same {α β : Type} {x : Print α} {f : α → Print β} {p p' : Printing} (first : x p' = x p)
    (rest : ∀ a, f a p' = f a p) : (x >>= f) p' = (x >>= f) p := by
  change (x p' >>= fun a => f a p') = x p >>= fun a => f a p
  rw [first, funext rest]

theorem access_upTo (accesses : σ.NamesAccesses) (style : PrintStyle) (source : String) (d : Nat) {a : Node}
    (h : IsAccess a) : upTo style source σ.rest d .expression a = upTo style source σ d .expression a ∧
      upTo style source σ.rest d .settled a = upTo style source σ d .expression a := by
  induction d generalizing a with
  | zero => exact ⟨rfl, rfl⟩
  | succ d ih =>
    have plain := accesses.plain a h
    have rest : σ.rest.expression a = none := by
      change a.origin.bind _ = none
      rw [h.origin, Option.bind_none]
    have printed : settled a ⟨style, source, σ.rest, upTo style source σ.rest d⟩ =
        settled a ⟨style, source, σ, upTo style source σ d⟩ := by
      rw [settled]
      cases h with
      | name => rfl
      | text text =>
        have made : (Made.stringLiteral text).isSynthesized = true :=
          show (Made.head .stringLiteral .empty).flags.has NodeFlags.synthesized = true by decide
        change literal (Made.stringLiteral text) _ = literal (Made.stringLiteral text) _
        rw [literal, made]
        rfl
      | member object name => exact seq_same (ih object).1 fun _ => rfl
      | element object argument =>
        exact seq_same (ih object).1 fun _ => seq_same rfl fun _ => seq_same (ih argument).1 fun _ => rfl
    rw [upTo, upTo, upTo]
    refine ⟨?_, ?_⟩
    · change substituted false a _ = substituted false a _
      rw [Agrees.substituted_run, Agrees.substituted_run]
      dsimp only
      rw [rest, plain]
      exact printed
    · change settled a _ = substituted false a _
      rw [Agrees.substituted_run]
      dsimp only
      rw [plain]
      exact printed

theorem upTo_spells (accesses : σ.NamesAccesses) (style : PrintStyle) (source : String) (d : Nat) :
    Spells σ ⟨style, source, σ, upTo style source σ d⟩
      ⟨style, source, σ.rest, upTo style source σ.rest d⟩ := by
  induction d with
  | zero => exact ⟨accesses, rfl, rfl, rfl, rfl, fun _ => rfl, fun _ => rfl, fun _ _ => rfl, fun _ => rfl,
      fun _ => rfl, fun _ _ _ => rfl, fun _ _ _ => rfl, fun _ _ => rfl, fun _ _ => rfl⟩
  | succ d ih =>
    exact
      { accesses
        style := rfl
        source := rfl
        substitution := rfl
        rest := rfl
        statement := fun n => Agrees.settledStatement.holds ih
        expression := fun n => (Agrees.substituted_value false).holds ih
        expression_kept := fun n other =>
          (Agrees.substituted_of false isSpelled_kept (.inr rfl) fun name => by rw [other] at name; cases name).holds
            ih
        whole := fun n => (Agrees.substituted_value true).holds ih
        settled := fun n => (Agrees.settled_of isSpelled_kept (.inr rfl)).holds ih
        binding := fun _ _ h => (Agrees.bindingName_of h).holds ih
        element := fun _ _ h => (Agrees.jsxElement_of h).holds ih
        access := fun _ h => (access_upTo accesses style source (d + 1) h).1
        kept := fun _ h => (access_upTo accesses style source (d + 1) h).2 }

end Print

theorem printStatements_spellOut (accesses : σ.NamesAccesses) (style : PrintStyle) (source : String)
    (items : List Node) :
    printStatements style source σ.rest (items.map (·.spellOut σ .part)) =
      printStatements style source σ items := by
  have printed := (Agrees.statements (σ := σ) items).holds
    (Print.upTo_spells accesses style source (Print.depthOf source))
  rw [printStatements, printStatements, Print.run, Print.run, printed]

end ScriptFrontend
