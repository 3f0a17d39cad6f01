import ScriptFrontend.Grammar.Precedence
import ScriptFrontend.Tree.Form

/-!
# Trees of operators

Operands that are joined by operators form a tree, which stands in the text as a row: its first operand and the
links behind it. Of the trees that stand there as the same row, precedence tells one apart. That one is
found by going along the row with a floor, below which an operator ends the operand before it.

`as` and `satisfies` stand behind an operand, and name a type. So they end the operand on their left, however
close the operator behind them binds; nothing is asked of them where they stand on the left of an operator.
-/

namespace ScriptFrontend

/-! ## Precedence -/

namespace Precedence

/-- An operand whose own operator is at level `q` may stand on the left of an operator at level `p`. -/
def FitsLeft (q p : Precedence) : Prop :=
  if p = .power then q.closerThan p = true else p.closerThan q = false

/-- An operand whose own operator is at level `q` may stand on the right of an operator at level `p`. -/
def FitsRight (q p : Precedence) : Prop :=
  if p = .power then p.closerThan q = false else q.closerThan p = true

instance (q p : Precedence) : Decidable (q.FitsLeft p) :=
  inferInstanceAs (Decidable (if p = .power then q.closerThan p = true else p.closerThan q = false))

instance (q p : Precedence) : Decidable (q.FitsRight p) :=
  inferInstanceAs (Decidable (if p = .power then p.closerThan q = false else q.closerThan p = true))

variable {p q r floor : Precedence}

theorem closerThan_power (q : Precedence) : q.closerThan .power = false := by
  cases q <;> rfl

theorem continues_iff :
    p.continues floor = true ↔ p.closerThan floor = true ∨ (p = .power ∧ floor = .power) := by
  simp [continues]

theorem fitsLeft_iff : q.FitsLeft p ↔ p.continues q = false := by
  by_cases power : p = .power
  · subst power
    rw [FitsLeft, if_pos rfl]
    cases q <;> decide
  · simp [FitsLeft, continues, power]

/-- An operand on the right is one whose operator was read above the floor. -/
theorem fitsRight_iff : q.FitsRight p ↔ q.continues p = true := by
  by_cases power : p = .power
  · subst power
    rw [FitsRight, if_pos rfl]
    cases q <;> decide
  · simp [FitsRight, continues, power]

theorem closerThan_trans (h : p.closerThan q = true) (h' : q.closerThan r = true) :
    p.closerThan r = true := by
  simp only [closerThan, decide_eq_true_eq] at h h' ⊢
  exact Nat.lt_trans h' h

theorem continues_trans (h : p.continues q = true) (h' : q.continues r = true) :
    p.continues r = true := by
  rw [continues_iff] at h h' ⊢
  obtain closer | ⟨rfl, rfl⟩ := h
  · obtain closer' | ⟨rfl, rfl⟩ := h'
    · exact .inl (closerThan_trans closer closer')
    · rw [closerThan_power] at closer
      cases closer
  · exact h'

/-- An operator in the right operand of a power is read above any floor. -/
theorem continues_of_power (h : q.continues .power = true) (floor : Precedence) :
    q.continues floor = true := by
  obtain closer | ⟨rfl, -⟩ := continues_iff.mp h
  · rw [closerThan_power] at closer
    cases closer
  · cases floor <;> rfl

/-- Every operator is read above the lowest floor. -/
theorem ofOperator?_continues_comma {k : Kind} (h : ofOperator? k = some p) :
    p.continues .comma = true := by
  have other : p ≠ .comma := by
    rintro rfl
    unfold ofOperator? at h
    split at h <;> cases h
  cases p
  · exact absurd rfl other
  all_goals rfl

end Precedence

/-! ## Trees and rows -/

/-- Operands joined by operators, and by `as` and `satisfies` with a type on their right. -/
inductive OperatorTree where
  | operand (n : Node)
  | binary (left : OperatorTree) (operator : Node) (right : OperatorTree)
  | typed (left : OperatorTree) (kind : Kind) (type : Node)

namespace OperatorTree

/-- What stands behind an operand: an operator and another operand, or a type. -/
inductive Link where
  | operator (token operand : Node)
  | typed (kind : Kind) (type : Node)

def Link.level? : Link → Option Precedence
  | .operator token _ => Precedence.ofOperator? token.kind
  | .typed _ _ => some .relational

def first : OperatorTree → Node
  | .operand n => n
  | .binary left _ _ => left.first
  | .typed left _ _ => left.first

/-- What stands behind the first operand, in the order of the text. -/
def links : OperatorTree → List Link
  | .operand _ => []
  | .binary left operator right => left.links ++ .operator operator right.first :: right.links
  | .typed left kind type => left.links ++ [.typed kind type]

/-- The level of the operator at the root. An operation on types has none that counts on the left of an
operator. -/
def binaryLevel? : OperatorTree → Option Precedence
  | .binary _ operator _ => Precedence.ofOperator? operator.kind
  | _ => none

/-- The tree may stand on the right of an operator: the operators down its left edge may. -/
def MayFollow (p : Precedence) : OperatorTree → Prop
  | .operand _ => True
  | .binary left operator _ =>
    (∀ q, Precedence.ofOperator? operator.kind = some q → q.FitsRight p) ∧ left.MayFollow p
  | .typed left _ _ => Precedence.relational.FitsRight p ∧ left.MayFollow p

def MayPrecede (p : Precedence) (t : OperatorTree) : Prop :=
  ∀ q, t.binaryLevel? = some q → q.FitsLeft p

inductive IsOrdered : OperatorTree → Prop
  | operand (n : Node) : IsOrdered (.operand n)
  | binary {left right : OperatorTree} {operator : Node} {p : Precedence}
      (level : Precedence.ofOperator? operator.kind = some p)
      (ordered : left.IsOrdered) (before : left.MayPrecede p)
      (ordered' : right.IsOrdered) (behind : right.MayFollow p) : IsOrdered (.binary left operator right)
  | typed {left : OperatorTree} {kind : Kind} {type : Node}
      (ordered : left.IsOrdered) (before : left.MayPrecede .relational) : IsOrdered (.typed left kind type)

def level? : OperatorTree → Option Precedence
  | .operand _ => none
  | .binary _ operator _ => Precedence.ofOperator? operator.kind
  | .typed _ _ _ => some .relational

/-- A stricter order. Operations on types, too, have to bind closer than the operator behind them. -/
inductive IsStrict : OperatorTree → Prop
  | operand (n : Node) : IsStrict (.operand n)
  | binary {left right : OperatorTree} {operator : Node} {p : Precedence}
      (level : Precedence.ofOperator? operator.kind = some p)
      (strict : left.IsStrict) (before : ∀ q, left.level? = some q → q.FitsLeft p)
      (strict' : right.IsStrict) (behind : ∀ q, right.level? = some q → q.FitsRight p) :
      IsStrict (.binary left operator right)
  | typed {left : OperatorTree} {kind : Kind} {type : Node}
      (strict : left.IsStrict) (before : ∀ q, left.level? = some q → q.FitsLeft .relational) :
      IsStrict (.typed left kind type)

/-- No tree in the stricter order stands in the text as a row with a sum behind a type. -/
theorem IsStrict.not_sum_behind_type {t : OperatorTree} {kind : Kind} {type plus right : Node}
    (sum : plus.kind = .plusToken) (h : t.IsStrict) : t.links ≠ [.typed kind type, .operator plus right] := by
  intro row
  cases h with
  | operand n => cases row
  | typed strict before =>
    have last := congrArg List.getLast? row
    rw [links, List.getLast?_append] at last
    cases last
  | @binary left behind operator p level strict before strict' _ =>
    have cut : left.links = [.typed kind type] ∧ operator = plus := by
      simp only [links, List.append_eq_cons_iff] at row
      obtain ⟨-, row⟩ | ⟨before, row, rest⟩ := row
      · cases row
      · cases before with
        | nil => exact ⟨row, (Link.operator.inj (List.cons.inj rest).1).1.symm⟩
        | cons l before => cases before <;> cases rest
    obtain ⟨found, rfl⟩ := cut
    rw [sum] at level
    cases level
    cases strict with
    | operand n => cases found
    | binary _ _ _ _ _ =>
      simp only [links, List.append_eq_cons_iff] at found
      obtain ⟨-, found⟩ | ⟨before, -, rest⟩ := found
      · cases found
      · cases before <;> cases rest
    | typed _ _ => exact absurd (before .relational rfl) (by decide)

/-! ## Going along a row -/

def EndsAbove (floor : Precedence) (rest : List Link) : Prop :=
  ∀ l p, rest.head? = some l → l.level? = some p → p.continues floor = false

/-- Going along a row above a floor, from the tree of what stands before it to a tree and the rest of the row. -/
inductive Climbs : Precedence → OperatorTree → List Link → OperatorTree → List Link → Prop
  | stop {floor : Precedence} {t : OperatorTree} {rest : List Link}
      (ends : EndsAbove floor rest) : Climbs floor t rest t rest
  | operator {floor p : Precedence} {t right result : OperatorTree} {operator operand : Node}
      {rest behind rest' : List Link} (level : Precedence.ofOperator? operator.kind = some p)
      (goes : p.continues floor = true) (inner : Climbs p (.operand operand) rest right behind)
      (next : Climbs floor (.binary t operator right) behind result rest') :
      Climbs floor t (.operator operator operand :: rest) result rest'
  | typed {floor : Precedence} {t result : OperatorTree} {kind : Kind} {type : Node} {rest rest' : List Link}
      (goes : Precedence.relational.continues floor = true)
      (next : Climbs floor (.typed t kind type) rest result rest') :
      Climbs floor t (.typed kind type :: rest) result rest'

variable {floor p : Precedence} {t u : OperatorTree} {rest rest' : List Link}

theorem EndsAbove.nil (floor : Precedence) : EndsAbove floor [] := by
  intro l p found
  cases found

theorem EndsAbove.head {l : Link} (h : EndsAbove floor (l :: rest)) (level : l.level? = some p) :
    ¬ p.continues floor = true := by
  rw [h l p rfl level]
  exact Bool.false_ne_true

theorem Climbs.unique {row : List Link} (h : Climbs floor t row u rest) {u' : OperatorTree}
    (h' : Climbs floor t row u' rest') : u = u' ∧ rest = rest' := by
  induction h generalizing u' rest' with
  | stop ends =>
    cases h' with
    | stop _ => exact ⟨rfl, rfl⟩
    | operator level goes _ _ => exact absurd goes (ends.head level)
    | typed goes _ => exact absurd goes (ends.head rfl)
  | operator level goes _ _ ih ih' =>
    cases h' with
    | stop ends => exact absurd goes (ends.head level)
    | operator level' _ inner next =>
      cases level.symm.trans level'
      obtain ⟨rfl, rfl⟩ := ih inner
      exact ih' next
  | typed goes _ ih =>
    cases h' with
    | stop ends => exact absurd goes (ends.head rfl)
    | typed _ next => exact ih next

theorem MayFollow.mayPrecede {q : Precedence} (h : t.MayFollow p) (ends : q.continues p = false) :
    t.MayPrecede q := by
  intro r level
  cases t with
  | operand n => cases level
  | typed left kind type => cases level
  | binary left operator right =>
    rw [binaryLevel?] at level
    have above : r.continues p = true := Precedence.fitsRight_iff.mp (h.1 r level)
    rw [Precedence.fitsLeft_iff, Bool.eq_false_iff]
    intro goes
    rw [Precedence.continues_trans goes above] at ends
    cases ends

/-- What stands behind the tree ends it, so that it may be the left operand there. -/
def ClosedBy (rest : List Link) (t : OperatorTree) : Prop :=
  ∀ l p, rest.head? = some l → l.level? = some p → t.MayPrecede p

theorem ClosedBy.nil (t : OperatorTree) : t.ClosedBy [] := by
  intro l p found
  cases found

theorem ClosedBy.cons {l : Link} (level : l.level? = some p) (h : t.MayPrecede p) :
    t.ClosedBy (l :: rest) := by
  intro l' q found level'
  cases found
  cases level.symm.trans level'
  exact h

/-- Going along the row of an ordered tree leads to the tree. -/
theorem IsOrdered.climbs (h : t.IsOrdered) (above : t.MayFollow floor) (closed : t.ClosedBy rest)
    (next : Climbs floor t rest u rest') : Climbs floor (.operand t.first) (t.links ++ rest) u rest' := by
  induction h generalizing floor rest rest' u with
  | operand n => exact next
  | @binary left right operator p level _ before _ behind ih ih' =>
    have goes : p.continues floor = true := Precedence.fitsRight_iff.mp (above.1 p level)
    have ends : EndsAbove p rest := fun l q found level' =>
      Precedence.fitsLeft_iff.mp (closed l q found level' p level)
    have inner : Climbs p (.operand right.first) (right.links ++ rest) right rest :=
      ih' behind (fun l q found level' => behind.mayPrecede (ends l q found level')) (.stop ends)
    rw [links, List.append_assoc]
    exact ih above.2 (.cons level before) (.operator level goes inner next)
  | @typed left kind type _ before ih =>
    rw [links, List.append_assoc]
    exact ih above.2 (.cons rfl before) (.typed (Precedence.fitsRight_iff.mp above.1) next)

theorem IsOrdered.mayFollow_comma (h : t.IsOrdered) : t.MayFollow .comma := by
  induction h with
  | operand n => trivial
  | binary level _ _ _ _ ih _ =>
    refine ⟨fun q level' => ?_, ih⟩
    exact Precedence.fitsRight_iff.mpr (Precedence.ofOperator?_continues_comma level')
  | typed _ _ ih => exact ⟨rfl, ih⟩

/-- No two ordered trees stand in the text as the same row. -/
theorem IsOrdered.unique (h : t.IsOrdered) (h' : u.IsOrdered) (first : u.first = t.first)
    (links : u.links = t.links) : u = t := by
  have climbs {v : OperatorTree} (ordered : v.IsOrdered) : Climbs .comma (.operand v.first) v.links v [] := by
    have found := ordered.climbs ordered.mayFollow_comma (.nil v) (.stop (.nil _))
    rwa [List.append_nil] at found
  have found := climbs h'
  rw [first, links] at found
  exact (found.unique (climbs h)).1

/-! ## Nodes -/

def IsNode : OperatorTree → Node → Prop
  | .operand n, m => m = n
  | .binary left operator right, m =>
    m.kind = .binaryExpression ∧ ∃ l r, m.form = .binary l operator r ∧ left.IsNode l ∧ right.IsNode r
  | .typed left kind type, m => m.kind = kind ∧ ∃ l, m.form = .typedExpression l type ∧ left.IsNode l

end OperatorTree

def Node.isOperation (n : Node) : Bool :=
  match n.form with
  | .binary _ operator _ => (Precedence.ofOperator? operator.kind).isSome
  | .typedExpression _ _ => true
  | _ => false

end ScriptFrontend
