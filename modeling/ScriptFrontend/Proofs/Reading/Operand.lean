import ScriptFrontend.Proofs.Reading.Operator
import ScriptFrontend.Proofs.Tree.Form

/-!
# Operands are no operations

Whatever is read as an operand, an operator before or behind it aside, is a node of its own: no binary operator
of a level joins its parts, and it names no type behind a value. A row of operands is so never made of a part of
another row, unless parentheses stand around that.
-/

namespace ScriptFrontend

def Shape.isOperation : Shape → Bool
  | .binary | .typedExpression => true
  | _ => false

theorem Node.isOperation_of_shape {n : Node} (h : n.shape.isOperation = false) : n.isOperation = false := by
  cases found : n.isOperation with
  | false => rfl
  | true =>
    unfold isOperation at found
    split at found
    · rename_i form
      rw [n.shape_of_form form rfl] at h
      cases h
    · rename_i form
      rw [n.shape_of_form form rfl] at h
      cases h
    · cases found

class HoldsNode (α : Type) where
  isPlain : α → Prop

instance : HoldsNode Node := ⟨fun n => n.isOperation = false⟩

instance : HoldsNode Form := ⟨fun form => form.shape.isOperation = false⟩

instance : HoldsNode (Option Node) := ⟨fun x => ∀ n, x = some n → n.isOperation = false⟩

instance : HoldsNode (ForInStep Node) := ⟨fun
  | .done n => n.isOperation = false
  | .yield n => n.isOperation = false⟩

class Plain {α : Type} [HoldsNode α] (x : α) : Prop where
  plain : HoldsNode.isPlain x

/-- A value that makes no operation; instances find that by the name of the value. -/
structure PlainOf (α : Type) [HoldsNode α] where
  value : α
  plain : HoldsNode.isPlain value

class MakesPlain {α : Type} [HoldsNode α] (g : Productions) (p : Parse α) : Prop where
  makes : ∀ s, HoldsNode.isPlain (p g s).1

class Productions.MakePlain (g : Productions) : Prop where
  simpleUnary : MakesPlain g (Parse.call .simpleUnary)
  leftHandSide : MakesPlain g (Parse.call .leftHandSide)
  primary : MakesPlain g (Parse.call .primary)
  element : ∀ place, MakesPlain g (Parse.call (.element place))

open Parse
open OperatorTree (Link)

set_option synthInstance.maxSize 4096

section

variable {α β : Type} {g : Productions}

/-! ## Values -/

instance [HoldsNode α] (x : PlainOf α) : Plain x.value := ⟨x.plain⟩

instance : Plain (none : Option Node) := ⟨nofun⟩

instance (n : Node) [h : Plain n] : Plain (some n) := ⟨fun _ same => Option.some.inj same ▸ h.plain⟩

instance (n : Node) [h : Plain n] : Plain (ForInStep.done n) := ⟨h.plain⟩

instance (n : Node) [h : Plain n] : Plain (ForInStep.yield n) := ⟨h.plain⟩

instance (n : Node) (chained : Bool) [h : Plain n] : Plain (n.chainedIf chained) := by
  cases n
  cases chained
  · exact h
  · exact ⟨h.plain⟩

instance : Plain Form.token := ⟨rfl⟩
instance (text : String) (word : Option Kind) : Plain (Form.identifier text word) := ⟨rfl⟩
instance (text : String) (raw : Option String) (flags : TokenFlags) : Plain (Form.literal text raw flags) := ⟨rfl⟩
instance (e : Node) : Plain (Form.wrapped e) := ⟨rfl⟩
instance (parts : Form.FunctionLike) : Plain (Form.functionLike parts) := ⟨rfl⟩
instance (parts : Form.ClassLike) : Plain (Form.classLike parts) := ⟨rfl⟩
instance (e : Node) (arguments : Option NodeList) : Plain (Form.typeReference e arguments) := ⟨rfl⟩
instance (multiLine : Bool) (l : NodeList) : Plain (Form.list multiLine l) := ⟨rfl⟩
instance (head : Node) (spans : NodeList) : Plain (Form.templateLiteral head spans) := ⟨rfl⟩
instance (e : Node) (dot : Option Node) (name : Node) : Plain (Form.propertyAccess e dot name) := ⟨rfl⟩
instance (e : Node) (dot : Option Node) (i : Node) : Plain (Form.elementAccess e dot i) := ⟨rfl⟩
instance (parts : Form.Call) : Plain (Form.call parts) := ⟨rfl⟩
instance (parts : Form.TaggedTemplate) : Plain (Form.taggedTemplate parts) := ⟨rfl⟩
instance (t e : Node) : Plain (Form.typeAssertion t e) := ⟨rfl⟩
instance (operator : Kind) (e : Node) : Plain (Form.unary operator e) := ⟨rfl⟩
instance (word : Kind) (name : Node) : Plain (Form.metaProperty word name) := ⟨rfl⟩
instance (modifiers : Option NodeList) : Plain (Form.missingDeclaration modifiers) := ⟨rfl⟩
instance (opening : Node) (l : NodeList) (closing : Node) : Plain (Form.jsxElement opening l closing) := ⟨rfl⟩
instance (name : Node) (l : Option NodeList) (e : Node) : Plain (Form.jsxTag name l e) := ⟨rfl⟩
instance (opening : Node) (l : NodeList) (closing : Node) : Plain (Form.jsxFragment opening l closing) := ⟨rfl⟩

instance (kind : Kind) : Plain (missingForm kind) := by
  unfold missingForm
  split
  · infer_instance
  · split <;> infer_instance

/-! ## Readings -/

instance [HoldsNode β] (x : β) [h : Plain x] : MakesPlain g (pure x : Parse β) := ⟨fun _ => h.plain⟩

theorem MakesPlain.behind [HoldsNode β] {p : Parse α} {f : α → Parse β} (rest : ∀ x, MakesPlain g (f x)) :
    MakesPlain g (p >>= f) := ⟨fun _ => (rest _).makes _⟩

theorem MakesPlain.seq [HoldsNode α] [HoldsNode β] {p : Parse α} {f : α → Parse β} (first : MakesPlain g p)
    (rest : ∀ x : PlainOf α, MakesPlain g (f x.value)) : MakesPlain g (p >>= f) :=
  ⟨fun s => (rest ⟨_, first.makes s⟩).makes _⟩

theorem MakesPlain.choose [HoldsNode β] {c : Prop} [Decidable c] {p q : Parse β} (yes : MakesPlain g p)
    (no : MakesPlain g q) : MakesPlain g (if c then p else q) := by
  split <;> assumption

instance (priority := 900) MakesPlain.bind_any [HoldsNode β] (p : Parse α) (f : α → Parse β)
    [rest : ∀ x, MakesPlain g (f x)] : MakesPlain g (p >>= f) := .behind rest

instance MakesPlain.bind [HoldsNode α] [HoldsNode β] (p : Parse α) (f : α → Parse β) [first : MakesPlain g p]
    [rest : ∀ x : PlainOf α, MakesPlain g (f x.value)] : MakesPlain g (p >>= f) := .seq first rest

instance [HoldsNode β] (c : Prop) [Decidable c] (p q : Parse β) [yes : MakesPlain g p] [no : MakesPlain g q] :
    MakesPlain g (if c then p else q) := .choose yes no

instance (priority := 950) MakesPlain.behind_option [HoldsNode β] (p : Parse (Option α)) (f : Option α → Parse β)
    [nothing : MakesPlain g (f none)] [something : ∀ x, MakesPlain g (f (some x))] : MakesPlain g (p >>= f) where
  makes s := by
    rw [bind_run]
    cases (p g s).1 with
    | none => exact nothing.makes _
    | some x => exact (something x).makes _

instance (priority := 1100) [HoldsNode β] (p : Parse (Option Node)) (f : Option Node → Parse β)
    [first : MakesPlain g p] [nothing : MakesPlain g (f none)]
    [something : ∀ n : PlainOf Node, MakesPlain g (f (some n.value))] : MakesPlain g (p >>= f) where
  makes s := by
    rw [bind_run]
    have made := first.makes s
    cases found : (p g s).1 with
    | none => exact nothing.makes _
    | some n => exact (something ⟨n, made n found⟩).makes _

instance MakesPlain.loop (f : Unit → Node → Parse (ForInStep Node)) (n : Node) [start : Plain n]
    [body : ∀ n : PlainOf Node, MakesPlain g (f () n.value)] : MakesPlain g (forIn rounds n f) where
  makes s := by
    have run (left : Nat) (n : Node) (plain : Plain n) (s : ParserState) :
        (Rounds.run (f ()) left n g s).1.isOperation = false := by
      induction left generalizing n s with
      | zero => exact plain.plain
      | succ left ih =>
        rw [Rounds.run_succ]
        have made := (body ⟨n, plain.plain⟩).makes s
        generalize f () n g s = r at made
        obtain ⟨m | m, t⟩ := r
        · exact made
        · change ((if _ then _ else _ : Parse Node) g t).1.isOperation = false
          split
          · exact made
          · exact ih m ⟨made⟩ t
    exact run _ n start s

instance (kind : Kind) (pos stop : Nat) (form : Form) [h : Plain form] : MakesPlain g (finishAt kind pos stop form) :=
  ⟨fun _ => Node.isOperation_of_shape h.plain⟩

instance (kind : Kind) (pos : Nat) (form : Form) [Plain form] : MakesPlain g (finish kind pos form) := by
  unfold finish
  infer_instance

instance (kind : Kind) (p : Parse Form) [MakesPlain g p] : MakesPlain g (spanning kind p) := by
  unfold spanning
  infer_instance

instance (n : Node) (docs : List Node) [h : Plain n] : Plain (n.withDocs docs) := by
  cases n
  exact ⟨h.plain⟩

instance (hasDoc : Bool) (n : Node) [Plain n] : MakesPlain g (withDocs hasDoc n) := by
  unfold withDocs
  refine .choose inferInstance (.behind fun script => .choose (.behind fun text => ?_) inferInstance)
  split <;> infer_instance

instance (l : Lead) (kind : Kind) (form : Form) [Plain form] : MakesPlain g (finishLed l kind form) := by
  unfold finishLed
  infer_instance

instance (kind : Kind) (p : Parse Form) [MakesPlain g p] : MakesPlain g (documented kind p) := by
  unfold documented
  infer_instance

instance (flags : NodeFlags) (p : Parse Node) [h : MakesPlain g p] : MakesPlain g (outside flags p) :=
  ⟨fun _ => h.makes _⟩

/-! ## Tokens and names -/

instance (kind : Kind) (atNodePos : Bool) (fault : Diagnostic.Fault) (args : List String) :
    MakesPlain g (missingNode kind atNodePos fault args) := by
  unfold missingNode
  dsimp only
  infer_instance

instance : MakesPlain g tokenNode := by
  unfold tokenNode
  infer_instance

instance : MakesPlain g literal := by
  unfold literal literalOf
  infer_instance

instance : MakesPlain g takeIdentifier := by
  unfold takeIdentifier
  infer_instance

instance (mayBe : Bool) (fault : Option Diagnostic.Fault) : MakesPlain g (identifierIf mayBe fault) := by
  unfold identifierIf
  cases fault <;> infer_instance

instance (fault : Diagnostic.Fault) : MakesPlain g (identifierOr fault) := by
  unfold identifierOr
  infer_instance

instance : MakesPlain g privateName := by
  unfold privateName
  infer_instance

/-! ## Accesses and calls -/

instance (isTagged : Bool) : MakesPlain g (templateExpression isTagged) := by
  unfold templateExpression
  infer_instance

instance (pos : Nat) (tag : Node) (dot : Option Node) (l : Option NodeList) :
    MakesPlain g (taggedTemplate pos tag dot l) := by
  unfold taggedTemplate
  dsimp only
  infer_instance

instance (pos : Nat) (e : Node) (dot : Option Node) : MakesPlain g (propertyAccess pos e dot) := by
  unfold propertyAccess
  refine .behind fun name => ?_
  dsimp only
  split <;> infer_instance

instance (pos : Nat) (e : Node) (dot : Option Node) : MakesPlain g (elementAccess pos e dot) := by
  unfold elementAccess
  dsimp only
  refine .behind fun closed => .choose inferInstance (.behind fun index => .choose ?_ inferInstance)
  split <;> infer_instance

instance (pos : Nat) (e : Node) (allowChain : Bool) : MakesPlain g (memberStep? pos e allowChain) := by
  unfold memberStep?
  refine .behind fun dot => .behind fun isName => .choose inferInstance (.behind fun isIndex =>
    .choose inferInstance (.behind fun isTemplate => .choose ?_ inferInstance))
  split <;> infer_instance

instance (pos : Nat) (e : Node) [Plain e] (allowChain : Bool) : MakesPlain g (memberRest pos e allowChain) := by
  unfold memberRest
  infer_instance

instance (pos : Nat) (e : Node) [start : Plain e] : MakesPlain g (callRest pos e) := by
  unfold callRest
  dsimp only
  refine .seq (@MakesPlain.loop _ _ _ start fun e => ?_) inferInstance
  refine .seq inferInstance fun e => .behind fun dot => ?_
  refine .choose (.behind fun written => .behind fun template => .choose inferInstance ?_) ?_
  all_goals
    refine .behind fun called => .choose (.choose ?_ inferInstance) inferInstance
    split <;> infer_instance

/-! ## Primary expressions -/

instance : MakesPlain g parenthesizedExpression := by
  unfold parenthesizedExpression
  infer_instance

instance : MakesPlain g arrayLiteral := by
  unfold arrayLiteral
  infer_instance

instance : MakesPlain g objectLiteral := by
  unfold objectLiteral
  infer_instance

instance (l : Lead) (kind : Kind) : MakesPlain g (classLike l kind) := by
  unfold classLike
  infer_instance

instance : MakesPlain g decoratedExpression := by
  unfold decoratedExpression
  infer_instance

instance : MakesPlain g functionExpression := by
  unfold functionExpression
  infer_instance

instance (primary : Parse Node) : MakesPlain g (newExpression primary) := by
  unfold newExpression
  dsimp only
  infer_instance

instance : MakesPlain g primary := by
  unfold primary classExpression
  refine .behind fun k => ?_
  split <;> infer_instance

/-! ## Elements -/

instance (inExpression : Bool) : MakesPlain g (openingTag inExpression) := by
  unfold openingTag
  infer_instance

instance (pos : Nat) (opening : Node) (place : ElementPlace) : MakesPlain g (elementRest pos opening place) := by
  unfold elementRest
  refine .behind fun l => ?_
  split <;> infer_instance

instance (place : ElementPlace) : MakesPlain g (oneElement place) := by
  unfold oneElement
  refine .behind fun pos => .seq inferInstance fun opening => ?_
  split <;> infer_instance

/-- Elements side by side are joined by a comma, which is no operator of a level. -/
instance (place : ElementPlace) : MakesPlain g (element place) := by
  unfold element
  refine .behind fun pos => .seq inferInstance fun n => .behind fun ends => .choose ?_ inferInstance
  refine .behind fun next => ⟨fun s => ?_⟩
  rfl

/-! ## Operands -/

variable [calls : g.MakePlain]

instance : MakesPlain g memberExpression := by
  have := calls.primary
  unfold memberExpression
  infer_instance

instance : MakesPlain g leftHandSide := by
  unfold leftHandSide importExpression superExpression
  infer_instance

instance : MakesPlain g updateExpression := by
  have := calls.leftHandSide
  have := calls.element
  unfold updateExpression
  dsimp only
  infer_instance

instance : MakesPlain g simpleUnary := by
  have := calls.element
  unfold simpleUnary prefixedExpression wordExpression typeAssertion
  refine .behind fun k => ?_
  split <;> infer_instance

instance : MakesPlain g operand := by
  have := calls.simpleUnary
  unfold operand
  dsimp only
  infer_instance

end

/-- However deep calls may be nested, what is called for an operand makes no operation. -/
instance Productions.upTo_makePlain (depth : Nat) : (upTo depth).MakePlain := by
  induction depth with
  | zero => exact ⟨⟨fun _ => rfl⟩, ⟨fun _ => rfl⟩, ⟨fun _ => rfl⟩, fun _ => ⟨fun _ => rfl⟩⟩
  | succ depth ih =>
    exact ⟨⟨(inferInstance : MakesPlain (upTo depth) simpleUnary).makes⟩,
      ⟨(inferInstance : MakesPlain (upTo depth) leftHandSide).makes⟩,
      ⟨(inferInstance : MakesPlain (upTo depth) primary).makes⟩,
      fun place => ⟨(inferInstance : MakesPlain (upTo depth) (element place)).makes⟩⟩

theorem Parse.LeadsTo.operand_isPlain {s t : ParserState} {n : Node} (h : operand.LeadsTo s n t) :
    n.isOperation = false := by
  obtain ⟨depth, run, -⟩ := h
  have made := (inferInstance : MakesPlain (.upTo depth) operand).makes s
  rwa [run] at made

theorem Parse.ReadsLinks.isPlain {s t : ParserState} {links : List Link} (h : ReadsLinks s links t)
    {mark right : Node} (mem : .operator mark right ∈ links) : right.isOperation = false := by
  induction h with
  | nothing _ => cases mem
  | operator _ _ _ _ reads _ ih =>
    obtain here | behind := List.mem_cons.mp mem
    · cases here
      exact reads.operand_isPlain
    · exact ih behind
  | typed _ _ _ _ _ _ ih =>
    obtain here | behind := List.mem_cons.mp mem
    · cases here
    · exact ih behind

/-! ## Binary expressions -/

/-- What is read as a binary expression above the lowest level is not cut short, and it is the one tree in the order of the
levels that stands in the text as the row of operands and operators that was read, up to where no operator stands. Its
operands are no operations, and `in` is an operator only where the context does not leave it to a loop. -/
theorem Parse.binary_makes_ordered_tree {D : Discipline} {m : World D} {depth : Nat} {s : ParserState}
    (enough : D.calls ≤ depth) (going : D.stalled = false) (stands : m.At s) (allows : m.Allows (.binary .comma)) :
    ∃ tree : OperatorTree, ∃ n t, (call (.binary .comma) (.upTo depth) s) = (n, t) ∧ t.stalled = false ∧
      tree.IsNode n ∧ ReadsRow s tree.first tree.links t ∧ t.operator? = none ∧
      tree.IsOrdered ∧
      (∀ other : OperatorTree, other.IsOrdered → other.first = tree.first → other.links = tree.links →
        other = tree) ∧
      tree.first.isOperation = false ∧
      ∀ mark right, Link.operator mark right ∈ tree.links → right.isOperation = false ∧
        (mark.kind = .inKeyword → s.contextFlags.meets NodeFlags.disallowIn = false) := by
  obtain ⟨tree, climbed⟩ := callsClimb enough going .comma stands allows
  have runs : Runs D m (call (.binary .comma)) := inferInstance
  obtain ⟨w, -, after, -, -⟩ := runs.holds (Productions.linked enough) stands
  obtain ⟨u, operand, links⟩ := climbed.row
  refine ⟨tree, _, _, rfl, after.going.trans going, climbed.node, climbed.row, ?_, climbed.ordered,
    fun other ordered => climbed.ordered.unique ordered, operand.operand_isPlain, fun mark right mem =>
    ⟨links.isPlain mem, climbed.inOperators mark right mem⟩⟩
  cases found : (call (.binary .comma) (.upTo depth) s).2.operator? with
  | none => exact found
  | some p =>
    have goes := Precedence.ofOperator?_continues_comma (operator?_level found)
    rw [climbed.ends p found] at goes
    cases goes

def ParserState.firstOf (text : String) : ParserState :=
  (skipToken (.upTo (Productions.depthFor text)) (.initial "a.ts" text .esNext .ts none 0)).2

theorem ParserState.firstOf_at (text : String) :
    ∃ m : World (Discipline.ofText text false), m.At (firstOf text) := by
  have begins := initial_begins "a.ts" text .esNext .ts
  have rests : (Discipline.ofText text false).Rests (.initial "a.ts" text .esNext .ts none 0) :=
    ⟨⟨begins.whole.le, rfl, Nat.zero_le _⟩, rfl, fun c mem => (nomatch mem), rfl⟩
  obtain ⟨m, -, stands, -⟩ := rests.skipToken_lands Discipline.linked_of_whole (.inr ⟨rfl, Nat.succ_pos 7⟩)
  exact ⟨m, stands⟩

theorem Parse.binary_of_product_and_power :
    ∃ m : World (Discipline.ofText "a * b ** c + d as T" false),
      (Discipline.ofText "a * b ** c + d as T" false).calls ≤ 8 * 19 + 8 ∧
      (Discipline.ofText "a * b ** c + d as T" false).stalled = false ∧
      m.At (.firstOf "a * b ** c + d as T") ∧ m.Allows (.binary .comma) ∧
      ∃ tree : OperatorTree, ∃ n t,
        (call (.binary .comma) (.upTo (8 * 19 + 8)) (.firstOf "a * b ** c + d as T")) = (n, t) ∧
        n.kind = .asExpression ∧ tree.IsNode n ∧ tree.IsOrdered ∧ t.operator? = none := by
  obtain ⟨m, stands⟩ := ParserState.firstOf_at "a * b ** c + d as T"
  have allows : m.Allows (.binary .comma) := inferInstance
  have enough : (Discipline.ofText "a * b ** c + d as T" false).calls ≤ 8 * 19 + 8 := by decide +kernel
  obtain ⟨tree, n, t, run, -, node, -, ends, ordered, -⟩ := binary_makes_ordered_tree enough rfl stands allows
  have kind : (call (.binary .comma) (.upTo (8 * 19 + 8)) (.firstOf "a * b ** c + d as T")).1.kind =
    .asExpression := by decide +kernel
  rw [run] at kind
  exact ⟨m, enough, rfl, stands, allows, tree, n, t, run, kind, node, ordered, ends⟩

def Node.sumBehindType? (n : Node) : Option (Node × Node × Node × Node) :=
  match n.form with
  | .binary left plus right =>
    match left.form with
    | .typedExpression operand type =>
      if n.kind = .binaryExpression ∧ left.kind = .asExpression ∧ plus.kind = .plusToken then
        some (operand, type, plus, right)
      else none
    | _ => none
  | _ => none

/-- A sum behind a type is read without an error, and no tree in the stricter order is the row that it stands in the text
as. -/
theorem Parse.sum_behind_type_is_not_strict :
    ∃ n t, call (.binary .comma) (.upTo 100) (.firstOf "a as T + b") = (n, t) ∧
      t.diagnostics.items = #[] ∧ t.scanner.token = .endOfFileToken ∧
      ∃ operand type plus right : Node, plus.kind = .plusToken ∧
        (OperatorTree.binary (.typed (.operand operand) .asExpression type) plus (.operand right)).IsNode n ∧
        ∀ tree : OperatorTree, tree.first = operand →
          tree.links = [.typed .asExpression type, .operator plus right] → ¬ tree.IsStrict := by
  have read : (call (.binary .comma) (.upTo 100) (.firstOf "a as T + b")).1.sumBehindType?.isSome ∧
      (call (.binary .comma) (.upTo 100) (.firstOf "a as T + b")).2.diagnostics.items.size = 0 ∧
      (call (.binary .comma) (.upTo 100) (.firstOf "a as T + b")).2.scanner.token = .endOfFileToken := by
    decide +kernel
  revert read
  generalize call (.binary .comma) (.upTo 100) (.firstOf "a as T + b") = r
  rintro ⟨shape, none_reported, ends⟩
  refine ⟨r.1, r.2, rfl, Array.size_eq_zero_iff.mp none_reported, ends, ?_⟩
  obtain ⟨⟨operand, type, plus, right⟩, found⟩ := Option.isSome_iff_exists.mp shape
  unfold Node.sumBehindType? at found
  split at found
  · rename_i left plus right form
    split at found
    · rename_i operand type form'
      split at found
      · rename_i kinds
        cases found
        obtain ⟨kind, kind', sum⟩ := kinds
        exact ⟨operand, type, plus, right, sum,
          ⟨kind, left, right, form, ⟨kind', operand, form', rfl⟩, rfl⟩,
          fun tree _ links strict => strict.not_sum_behind_type sum links⟩
      · cases found
    · cases found
  · cases found

end ScriptFrontend
