import Mathlib.Logic.Function.Basic
import ScriptFrontend.Lowering.File
import ScriptFrontend.Proofs.Number.Double
import ScriptFrontend.Source.File

/-!
# What the members of an enumeration become

The statements that fill in the object of an enumeration give each member its value, one after the other: the value
that is written for it, or one more than that of the member before it, and zero for the first one. The numbers in the
statements were counted beforehand as far as the values are known, and are read from the object where they are not.
What happens to values is left open: to evaluate an expression may do whatever the computations of a monad may do, and
may change the object as well.
-/

namespace ScriptFrontend

/-- What a program may do with values while it fills in an object with entries. -/
structure MemberEvaluation (m : Type → Type) (V K : Type) where
  value : Node → StateT (K → V) m V
  add : V → V → StateT (K → V) m V
  number : Double → V
  text : String → V
  /-- The key of the entry that a value stands for between brackets. -/
  key : V → K

namespace MemberEvaluation

variable {m : Type → Type} [Monad m] {V K : Type} [DecidableEq K] (E : MemberEvaluation m V K)

/-! ## Members as they are written -/

def member? (n : Node) : Option (String × Option Node) :=
  match n.form with
  | .enumMember name value => name.nameText?.map (·, value)
  | _ => none

/-- The value of a member without one of its own, by that of the member before it. -/
def following : Option V → StateT (K → V) m V
  | none => pure (E.number .zero)
  | some v => E.add v (E.number (.ofNat 1))

def memberValue (previous : Option V) : Option Node → StateT (K → V) m V
  | some e => E.value e
  | none => E.following previous

/-- The entries with a member: its value has the key of its name, and its name that of its value if this is no text. -/
def withMember (name : String) (v : V) (isText : Bool) (entries : K → V) : K → V :=
  let named := Function.update entries (E.key (E.text name)) v
  if isText then named else Function.update named (E.key v) (E.text name)

/-- Gives some members their values, behind a member with a value. -/
def fill : Option V → List (String × Option Node) → StateT (K → V) m Unit
  | _, [] => pure ()
  | previous, (name, written) :: rest => do
    let v ← E.memberValue previous written
    modify (E.withMember name v (written.any Node.isStringValued))
    fill (some v) rest

/-! ## Made statements -/

/-- The value of an expression that was made to give an entry of an object with a name its value. -/
def made? (object : String) : Node → Option (StateT (K → V) m V)
  | .mk h (.literal text _ _) _ _ _ =>
    if h.flags.has NodeFlags.synthesized then
      match h.kind with
      | .stringLiteral => some (pure (E.text text))
      | .numericLiteral => (Double.ofSigned? text).map fun d => pure (E.number d)
      | _ => none
    else none
  | .mk h .elementAccess [.node e, _, .node index] _ _ =>
    if h.flags.has NodeFlags.synthesized ∧ e.identifierText? = some object then
      some do
        let k ← (made? object index).getD (E.value index)
        return (← get) (E.key k)
    else none
  | .mk h .binary [.node (.mk h' .elementAccess [.node e, dot, .node index] docs origin), .node operator, .node right] _ _ =>
    if h.flags.has NodeFlags.synthesized ∧ e.identifierText? = some object then
      match operator.kind with
      | .equalsToken => some do
        let k ← (made? object index).getD (E.value index)
        let v ← (made? object right).getD (E.value right)
        modify fun entries => Function.update entries (E.key k) v
        return v
      | .plusToken => some do
        let left := .mk h' .elementAccess [.node e, dot, .node index] docs origin
        let v ← (made? object left).getD (E.value left)
        let w ← (made? object right).getD (E.value right)
        E.add v w
      | _ => none
    else none
  | _ => none

def valueIn (object : String) (n : Node) : StateT (K → V) m V := (E.made? object n).getD (E.value n)

def run (object : String) (statements : List Node) : StateT (K → V) m Unit :=
  statements.forM fun n =>
    match n.form with
    | .wrapped e => discard (E.valueIn object e)
    | _ => pure ()

end MemberEvaluation

open Made Lowering

theorem Node.constant?_isCanonical {e : Node} {d : Double} (h : e.constant? = some d) : d.IsCanonical := by
  fun_induction Node.constant? e generalizing d with
  | case1 => exact Double.ofLiteral?_isCanonical h
  | case3 _ _ _ _ _ ih =>
    obtain ⟨x, value, rfl⟩ := Option.map_eq_some_iff.mp h
    exact (ih value).neg
  | case4 _ _ _ _ _ ih => exact ih h
  | case7 _ _ _ _ _ ih => exact ih h
  | _ => cases h

namespace MemberEvaluation

variable {m : Type → Type} [Monad m] {V K : Type} [DecidableEq K] (E : MemberEvaluation m V K)
variable {object name : String} {isText : Bool} {n e index value : Node} {d : Double} {v : V} {entries : K → V}

/-! ## What made statements do -/

theorem has_synthesized (kind : Kind) : (Made.head kind .empty).flags.has NodeFlags.synthesized = true :=
  show (NodeFlags.synthesized ||| .empty).has NodeFlags.synthesized = true by decide

theorem valueIn_given (given : n.isSynthesized = false) : E.valueIn object n = E.value n := by
  have none : E.made? object n = none := by
    rw [made?.eq_def]
    split
    · exact if_neg (Bool.eq_false_iff.mp given)
    · exact if_neg fun both => Bool.eq_false_iff.mp given both.1
    · exact if_neg fun both => Bool.eq_false_iff.mp given both.1
    · rfl
  rw [valueIn, none, Option.getD_none]

theorem valueIn_text (text : String) : E.valueIn object (stringLiteral text) = pure (E.text text) := rfl

theorem valueIn_number {text : String} (reads : Double.ofSigned? text = some d) :
    E.valueIn object (numericLiteral text) = pure (E.number d) := by
  change ((Double.ofSigned? text).map fun d => pure (E.number d)).getD _ = _
  rw [reads, Option.map_some, Option.getD_some]

theorem valueIn_element : E.valueIn object (element (identifier object) index) =
    (do
      let k ← E.valueIn object index
      return (← get) (E.key k)) := by
  have named : (identifier object).identifierText? = some object := rfl
  change (if (Made.head .elementAccessExpression .empty).flags.has NodeFlags.synthesized ∧
    (identifier object).identifierText? = some object then _ else _ : Option _).getD _ = _
  rw [if_pos ⟨has_synthesized _, named⟩]
  rfl

theorem valueIn_sum : E.valueIn object (binary (element (identifier object) index) .plusToken value) =
    (do
      let v ← E.valueIn object (element (identifier object) index)
      let w ← E.valueIn object value
      E.add v w) := by
  have named : (identifier object).identifierText? = some object := rfl
  change (if (Made.head .binaryExpression .empty).flags.has NodeFlags.synthesized ∧
    (identifier object).identifierText? = some object then _ else _ : Option _).getD _ = _
  rw [if_pos ⟨has_synthesized _, named⟩]
  rfl

theorem valueIn_assignment : E.valueIn object (assignment (element (identifier object) index) value) =
    (do
      let k ← E.valueIn object index
      let v ← E.valueIn object value
      modify fun entries => Function.update entries (E.key k) v
      return v) := by
  have named : (identifier object).identifierText? = some object := rfl
  change (if (Made.head .binaryExpression .empty).flags.has NodeFlags.synthesized ∧
    (identifier object).identifierText? = some object then _ else _ : Option _).getD _ = _
  rw [if_pos ⟨has_synthesized _, named⟩]
  rfl

theorem run_cons (statements : List Node) : E.run object (expressionStatement e :: statements) =
    (do
      discard (E.valueIn object e)
      E.run object statements) := rfl

theorem discard_memberAssignment [LawfulMonad m] :
    discard (E.valueIn object (memberAssignment object name value isText)) =
      E.valueIn object value >>= fun v => modify (E.withMember name v isText) := by
  have dropped (x : StateT (K → V) m V) : discard x = x >>= fun _ => pure () := by
    rw [discard, map_const]
    exact (bind_pure_comp _ _).symm
  have joined (f g : (K → V) → K → V) :
      (do modify f; modify g : StateT (K → V) m Unit) = modify fun entries => g (f entries) := by
    ext entries
    simp
  unfold memberAssignment
  cases isText with
  | true =>
    simp only [if_true, valueIn_assignment, valueIn_text, dropped, bind_assoc, pure_bind, bind_pure_unit]
    rfl
  | false =>
    simp only [Bool.false_eq_true, if_false, valueIn_assignment, valueIn_text, dropped, bind_assoc, pure_bind,
      bind_pure_unit, joined]
    rfl

/-! ## What is known of the member before -/

/-- What is true of the values of numbers, whatever else a program does. -/
structure Lawful : Prop where
  succ : ∀ d, E.add (E.number d) (E.number (.ofNat 1)) = pure (E.number d.succ)
  constant : ∀ e d, e.constant? = some d →
    ∃ v, E.value e = pure v ∧ E.add v (E.number (.ofNat 1)) = pure (E.number d.succ)

/-- Numbers and texts that nothing else is ever done to. -/
def ofConstants : MemberEvaluation Id (Double ⊕ String) (Double ⊕ String) where
  value e := pure ((e.constant?.map .inl).getD (.inr ""))
  add v _ := pure (v.map Double.succ id)
  number := .inl
  text := .inr
  key := id

theorem ofConstants_lawful : ofConstants.Lawful := by
  refine ⟨fun _ => rfl, fun e d constant => ⟨.inl d, ?_, rfl⟩⟩
  simp [ofConstants, constant]

/-- A member whose value was read and is not too large a constant, and whose name is the key of no other value. -/
structure IsPlain (written : String × Option Node) : Prop where
  given : ∀ e, written.2 = some e → e.isSynthesized = false
  finite : ∀ e, written.2 = some e → ∀ negative, e.constant? ≠ some (.infinite negative)
  own : ∀ v, E.key v = E.key (E.text written.1) → v = E.text written.1

/-- What was counted of the member before the next one agrees with its value, which the object holds if it was not
known beforehand. -/
def Agrees (s : MemberState) (previous : Option V) (entries : K → V) : Prop :=
  match s.next with
  | some d => d.IsCanonical ∧ (∀ negative, d ≠ .infinite negative) ∧ E.following previous = pure (E.number d)
  | none => ∃ name v, s.previous = some name ∧ previous = some v ∧ entries (E.key (E.text name)) = v

omit [DecidableEq K] in
theorem agrees_start (entries : K → V) : E.Agrees {} none entries :=
  ⟨Double.zero_isCanonical, nofun, rfl⟩

omit [Monad m] in
theorem withMember_own (own : ∀ w, E.key w = E.key (E.text name) → w = E.text name) :
    E.withMember name v isText entries (E.key (E.text name)) = v := by
  unfold withMember
  split
  · exact Function.update_self ..
  · by_cases same : E.key v = E.key (E.text name)
    · rw [same, Function.update_self, own v same]
    · rw [Function.update_of_ne (Ne.symm same), Function.update_self]

/-- The value of a member as its statement has it, and that of the next one as far as it is known. -/
def counted (object : String) (s : MemberState) : Option Node → Node × Option Double
  | some e => (e, e.constant?.map Double.succ)
  | none => followingValue object s

theorem memberStatement_eq {s : MemberState} {written : Option Node} (member : member? n = some (name, written)) :
    memberStatement object s n =
      some (expressionStatement
        (memberAssignment object name (counted object s written).1 (written.any Node.isStringValued)),
        ⟨(counted object s written).2, some name⟩) := by
  cases form : n.form with
  | enumMember own value =>
    simp only [member?, form] at member
    obtain ⟨text, isText, same⟩ := Option.map_eq_some_iff.mp member
    cases same
    simp only [memberStatement, form, isText]
    cases written <;> rfl
  | _ =>
    simp only [member?, form] at member
    cases member

theorem memberStatement_eq_none {s : MemberState} (member : member? n = none) :
    memberStatement object s n = none := by
  cases form : n.form with
  | enumMember own value =>
    simp only [member?, form] at member
    simp only [memberStatement, form, Option.map_eq_none_iff.mp member]
    rfl
  | _ => simp only [memberStatement, form]

variable {s : MemberState} {previous : Option V} {written : Option Node}

omit [DecidableEq K] in
theorem agrees_constant (canonical : d.IsCanonical) (finite : ∀ negative, d ≠ .infinite negative)
    (succ : E.add v (E.number (.ofNat 1)) = pure (E.number d.succ)) (entries : K → V) :
    E.Agrees ⟨some d.succ, some name⟩ (some v) entries := by
  refine ⟨Double.succ_isCanonical, ?_, succ⟩
  cases d with
  | infinite negative => exact absurd rfl (finite negative)
  | finite mantissa exponent =>
    obtain ⟨mantissa', exponent', isFinite⟩ := Double.succ_finite canonical
    rw [isFinite]
    nofun

theorem valueIn_toText (canonical : d.IsCanonical) (finite : ∀ negative, d ≠ .infinite negative) :
    E.valueIn object (numericLiteral d.toText) = pure (E.number d) := by
  cases d with
  | infinite negative => exact absurd rfl (finite negative)
  | finite mantissa exponent => exact E.valueIn_number (Double.ofSigned?_toText canonical)

theorem valueIn_next [LawfulMonad m] {entries : K → V} (held : entries (E.key (E.text name)) = v) :
    (E.valueIn object (binary (element (identifier object) (stringLiteral name)) .plusToken (numericLiteral "1"))).run
      entries = (E.add v (E.number (.ofNat 1))).run entries := by
  have one : Double.ofSigned? "1" = some (.ofNat 1) := by decide +kernel
  rw [valueIn_sum, valueIn_element, valueIn_text, valueIn_number _ one]
  simp [held]

omit [DecidableEq K] in
theorem run_bind_congr [LawfulMonad m] {x y : StateT (K → V) m V} {change : V → (K → V) → K → V}
    {next next' : V → StateT (K → V) m Unit} (same : x.run entries = y.run entries)
    (goesOn : ∀ v entries, (next v).run (change v entries) = (next' v).run (change v entries)) :
    (x >>= fun v => modify (change v) >>= fun _ => next v).run entries =
      (y >>= fun v => modify (change v) >>= fun _ => next' v).run entries := by
  rw [StateT.run_bind, StateT.run_bind, same]
  refine bind_congr fun ⟨v, entries⟩ => ?_
  simp [goesOn]

/-- The value of a member is what its statement says, and what is known behind it agrees with the value, in whatever
way the members behind it go on. -/
theorem member_runs [LawfulMonad m] (lawful : E.Lawful) (plain : E.IsPlain (name, written))
    (agrees : E.Agrees s previous entries) {next next' : V → StateT (K → V) m Unit}
    (goesOn : ∀ v entries,
      E.Agrees ⟨(counted object s written).2, some name⟩ (some v) (E.withMember name v isText entries) →
        (next v).run (E.withMember name v isText entries) = (next' v).run (E.withMember name v isText entries)) :
    (do
      let v ← E.valueIn object (counted object s written).1
      modify (E.withMember name v isText)
      next v).run entries =
    (do
      let v ← E.memberValue previous written
      modify (E.withMember name v isText)
      next' v).run entries := by
  have known (v : V) (entries : K → V) : E.Agrees ⟨none, some name⟩ (some v) (E.withMember name v isText entries) :=
    ⟨name, v, rfl, rfl, E.withMember_own plain.own⟩
  cases written with
  | some e =>
    rw [counted, E.valueIn_given (plain.given e rfl), memberValue]
    cases constant : e.constant? with
    | none =>
      rw [counted, constant] at goesOn
      exact run_bind_congr rfl fun v entries => goesOn v entries (known v entries)
    | some d =>
      rw [counted, constant] at goesOn
      obtain ⟨v, value, succ⟩ := lawful.constant e d constant
      have finite : ∀ negative, d ≠ .infinite negative := by
        rintro negative rfl
        exact plain.finite e rfl negative constant
      rw [value, pure_bind, pure_bind]
      simpa using goesOn v entries (E.agrees_constant (Node.constant?_isCanonical constant) finite succ _)
  | none =>
    rw [memberValue]
    obtain ⟨next, last⟩ := s
    cases next with
    | some d =>
      obtain ⟨canonical, finite, follows⟩ := agrees
      rw [follows, pure_bind, show (counted object ⟨some d, last⟩ none).1 = numericLiteral d.toText from rfl,
        E.valueIn_toText canonical finite, pure_bind]
      simpa using goesOn (E.number d) entries (E.agrees_constant canonical finite (lawful.succ d) _)
    | none =>
      obtain ⟨before, w, rfl, rfl, held⟩ := agrees
      exact run_bind_congr (E.valueIn_next held) fun v entries => goesOn v entries (known v entries)

theorem run_memberStatements [LawfulMonad m] (lawful : E.Lawful) (members : List Node)
    (plain : ∀ written ∈ members.filterMap member?, E.IsPlain written) (s : MemberState) (previous : Option V)
    (entries : K → V) (agrees : E.Agrees s previous entries) :
    (E.run object (memberStatements object s members)).run entries =
      (E.fill previous (members.filterMap member?)).run entries := by
  induction members generalizing s previous entries with
  | nil => rfl
  | cons n rest ih =>
    cases member : member? n with
    | none =>
      rw [List.filterMap_cons_none member] at plain ⊢
      rw [memberStatements, memberStatement_eq_none member]
      exact ih plain s previous entries agrees
    | some written =>
      obtain ⟨name, written⟩ := written
      rw [List.filterMap_cons_some member] at plain ⊢
      have isPlain := plain _ List.mem_cons_self
      have plain : ∀ written ∈ rest.filterMap member?, E.IsPlain written :=
        fun written mem => plain written (List.mem_cons_of_mem _ mem)
      rw [memberStatements, memberStatement_eq member]
      dsimp only
      rw [run_cons, discard_memberAssignment, fill, bind_assoc]
      exact E.member_runs lawful isPlain agrees fun v entries agrees => ih plain _ _ _ agrees

/-- The object of an enumeration is filled in as its members say: those with a name that is not computed. -/
theorem run_enumeration [LawfulMonad m] (lawful : E.Lawful) (members : List Node)
    (plain : ∀ written ∈ members.filterMap member?, E.IsPlain written) :
    E.run object (memberStatements object {} members) = E.fill none (members.filterMap member?) := by
  ext entries
  exact E.run_memberStatements lawful members plain {} none entries (E.agrees_start entries)

theorem run_enumeration_of_two_members :
    ∃ members, (SourceFile.parse "a.ts" "enum E \x7b a = 2, b \x7d" .esNext .ts true).statements.flatMap Node.children =
        members ∧ ofConstants.Lawful ∧ (members.filterMap member?).map Prod.fst = ["a", "b"] ∧
      (∀ written ∈ members.filterMap member?, ofConstants.IsPlain written) ∧
      ofConstants.run "E" (memberStatements "E" {} members) = ofConstants.fill none (members.filterMap member?) := by
  have facts (members : List Node) (file : (SourceFile.parse "a.ts" "enum E \x7b a = 2, b \x7d" .esNext .ts
      true).statements.flatMap Node.children = members) : (members.filterMap member?).map Prod.fst = ["a", "b"] ∧
        (members.filterMap member?).all (fun written => written.2.all fun e =>
          !e.isSynthesized && e.constant? == some (.ofNat 2)) = true := by
    rw [← file]
    decide +kernel
  obtain ⟨members, file⟩ : ∃ members, (SourceFile.parse "a.ts" "enum E \x7b a = 2, b \x7d" .esNext .ts
      true).statements.flatMap Node.children = members := ⟨_, rfl⟩
  obtain ⟨names, values⟩ := facts members file
  have plain : ∀ written ∈ members.filterMap member?, ofConstants.IsPlain written := by
    intro written mem
    have value : ∀ e, written.2 = some e → e.isSynthesized = false ∧ e.constant? = some (.ofNat 2) := by
      intro e is
      simpa [is] using List.all_eq_true.mp values written mem
    refine ⟨fun e is => (value e is).1, fun e is negative infinite => ?_, fun v same => same⟩
    have two : Double.ofNat 2 = .infinite negative := Option.some.inj ((value e is).2.symm.trans infinite)
    revert two
    cases negative <;> decide +kernel
  exact ⟨members, file, ofConstants_lawful, names, plain, ofConstants.run_enumeration ofConstants_lawful members plain⟩

/-- A member with a computed name gets no value, and the one behind it is not counted from there. -/
example : ((SourceFile.parse "a.ts" "enum E \x7b [\"a\"] = 5, B \x7d" .esNext .ts true).statements.flatMap fun n =>
    match n.form with
    | .enumeration _ _ members => (members.items.filterMap member?).map Prod.fst
    | _ => []) = ["B"] := by decide +kernel

end MemberEvaluation

end ScriptFrontend
