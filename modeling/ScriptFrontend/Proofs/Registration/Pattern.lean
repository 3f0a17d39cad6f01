import Mathlib.Data.Set.Function
import ScriptFrontend.Proofs.Name.Supply
import ScriptFrontend.Proofs.Registration.State
import ScriptFrontend.Proofs.Tree.Contains
import ScriptFrontend.Registration.Binding

/-!
# Patterns that are taken apart

The assignments that a pattern is taken apart into do to a value what the pattern does to it, in the same order and
as often. Temporary variables are new ones each time, so none that is still to be read is set twice.

A pattern takes a value apart: it reads the parts of the value in the order in which they are written, puts a
default in the place of a part that is undefined, and assigns what it gets to names. Made assignments do the same
by way of temporary variables. What happens to values is left open: to evaluate an expression, or to read a
property, may do whatever the computations of a monad may do. The values of array patterns are arrays, whose
elements are read by their places.
-/

namespace ScriptFrontend

/-- What a program may do with values and the keys of properties. -/
structure Evaluation (m : Type → Type) (V K : Type) where
  value : Node → m V
  assign : Node → V → m Unit
  key : V → m K
  named : String → K
  literalName : Kind → String → String
  read : V → K → m V
  elementsFrom : V → Nat → m V
  propertiesBut : V → List K → m V
  isUndefined : V → Bool

namespace Evaluation

variable {m : Type → Type} {V K : Type} (E : Evaluation m V K)

section

variable [Monad m]

/-! ## Patterns -/

def keyOf? (p : Form.BindingElement) : Option (m K) :=
  let key := p.propertyName.getD p.name
  match key.form with
  | .identifier text _ => some (pure (E.named text))
  | .literal text _ _ => some (pure (E.named (E.literalName key.kind text)))
  | .wrapped e => some (E.value e >>= E.key)
  | _ => none

/-- The part of a value that an element takes. `taken` are the keys of what the elements before it took. -/
def part? (isObject : Bool) (v : V) (index : Nat) (taken : List K) (p : Form.BindingElement) :
    Option (m (V × List K)) :=
  if isObject then
    if p.dots.isSome then some do return (← E.propertiesBut v taken, taken)
    else (E.keyOf? p).map fun key => do
      let k ← key
      return (← E.read v k, k :: taken)
  else if p.dots.isSome then some do return (← E.elementsFrom v index, taken)
  else some do return (← E.read v (E.named (toString index)), taken)

def orDefault (v : V) : Option Node → m V
  | some e => if E.isUndefined v then E.value e else pure v
  | none => pure v

mutual

def bind (v : V) : Node → m Unit
  | .mk h (.list _) [.list _ items] _ _ => bindElements (h.kind == .objectBindingPattern) v 0 [] items
  | target => E.assign target v

def bindElements (isObject : Bool) (v : V) (index : Nat) (taken : List K) : List Node → m Unit
  | [] => pure ()
  | .mk _ .bindingElement [dots, key, .node target, default] _ _ :: rest =>
    match E.part? isObject v index taken ⟨dots.node?, key.node?, target, default.node?⟩ with
    | none => bindElements isObject v (index + 1) taken rest
    | some part => do
      let (u, taken) ← part
      bind (← E.orDefault u default.node?) target
      bindElements isObject v (index + 1) taken rest
  | _ :: rest => bindElements isObject v (index + 1) taken rest

end

def bindVariable (n : Node) : m Unit :=
  match n.form with
  | .variableDeclaration p =>
    match p.value with
    | some e => do E.bind (← E.value e) p.name
    | none => pure ()
  | _ => pure ()

def bindVariables (l : Node) : m Unit :=
  match l.form with
  | .list _ declarations => declarations.items.forM E.bindVariable
  | _ => pure ()

/-! ## Made assignments -/

abbrev Temporaries (V : Type) := String → Option V

def Temporaries.set {V : Type} (t : Temporaries V) (name : String) (v : V) : Temporaries V :=
  fun other => if other = name then some v else t other

/-- A made name of a temporary variable has its value; all else has a value of its own. -/
def operand (t : Temporaries V) (n : Node) : m V :=
  match if n.isSynthesized then n.identifierText?.bind t else none with
  | some v => pure v
  | none => E.value n

/-- A made literal between brackets is the name of a property. -/
def indexKey (n : Node) : m K :=
  match if n.isSynthesized then n.literalText? else none with
  | some text => pure (E.named text)
  | none => E.value n >>= E.key

def sliced? (p : Form.Call) : Option (Node × Nat) :=
  match p.expression.form, p.arguments.map (·.items) with
  | .propertyAccess e _ name, some [place] =>
    if name.identifierText? = some "slice" then (place.literalText?.bind String.toNat?).map (e, ·)
    else none
  | _, _ => none

def testedForUndefined? (n : Node) : Option Node :=
  match n.form with
  | .binary e operator right =>
    if operator.kind = .equalsEqualsEqualsToken ∧ right.kind = .voidExpression then some e else none
  | _ => none

/-- The value of an expression whose operands are names, as far as it was made to take a value apart. -/
def valueIn (t : Temporaries V) (n : Node) : m V :=
  if !n.isSynthesized then E.value n
  else
    match n.form with
    | .propertyAccess e _ name => do E.read (← E.operand t e) (E.named (name.identifierText?.getD ""))
    | .elementAccess e _ index => do
      let v ← E.operand t e
      E.read v (← E.indexKey index)
    | .call p =>
      match sliced? p with
      | some (e, place) => do E.elementsFrom (← E.operand t e) place
      | none => E.value n
    | .conditional p =>
      match testedForUndefined? p.condition with
      | some e => do
        if E.isUndefined (← E.operand t e) then E.operand t p.yes else E.operand t p.no
      | none => E.value n
    | _ => E.operand t n

def assignment? (n : Node) : Option (Node × Node) :=
  match n.form with
  | .binary target operator value =>
    if n.isSynthesized ∧ operator.kind = .equalsToken then some (target, value) else none
  | _ => none

theorem has_synthesized : (NodeFlags.synthesized ||| .empty).has NodeFlags.synthesized = true := by decide

theorem assignment?_assignment (target value : Node) :
    assignment? (Made.assignment target value) = some (target, value) := by
  have form : (Made.assignment target value).form = .binary target (Made.token .equalsToken) value := rfl
  rw [assignment?, form]
  exact if_pos ⟨has_synthesized, rfl⟩

def callsName (name : String) (n : Node) : Bool :=
  match n.form with
  | .call p => p.expression.identifierText? == some name
  | _ => false

/-- Evaluates one of the expressions that take a value apart. Made names are temporary variables, and other targets
are taken apart by themselves. Calls of `exporter` tell other modules of values and do nothing to them. -/
def step (exporter : String) (t : Temporaries V) (n : Node) : m (Temporaries V) :=
  match assignment? n with
  | some (target, value) => do
    let v ← E.valueIn t value
    match if target.isSynthesized then target.identifierText? else none with
    | some name => return t.set name v
    | none => do
      E.bind v target
      return t
  | none =>
    if callsName exporter n then return t
    else do
      let _ ← E.valueIn t n
      return t

def run (exporter : String) (t : Temporaries V) (expressions : List Node) : m (Temporaries V) :=
  expressions.foldlM (E.step exporter) t

end

open Made Registration

/-! ## Literal keys -/

/-- If the node is a literal, then it is spelled as the name of the property that it stands for. -/
def NamesItself (n : Node) : Prop :=
  ∀ text raw flags, n.form = .literal text raw flags → E.literalName n.kind text = text

mutual

def KeysNamed : Node → Prop
  | .mk _ (.list _) [.list _ items] _ _ => KeysNamedIn items
  | _ => True

def KeysNamedIn : List Node → Prop
  | [] => True
  | .mk _ .bindingElement [_, key, .node target, _] _ _ :: rest =>
    E.NamesItself (key.node?.getD target) ∧ KeysNamed target ∧ KeysNamedIn rest
  | _ :: rest => KeysNamedIn rest

end

/-! ## Patterns that were read -/

def IsRead (n : Node) : Prop := ∀ m, n.Contains m → m.isSynthesized = false

namespace IsRead

variable {n inner : Node}

theorem isSynthesized (isRead : IsRead n) : n.isSynthesized = false := isRead n (.refl n)

theorem ofChild (isRead : IsRead n) (mem : inner ∈ n.children) : IsRead inner :=
  fun m contains => isRead m (.ofChild mem contains)

theorem ofSlot {slot : Slot} (isRead : IsRead n) (mem : slot ∈ n.slots) (holds : slot.node? = some inner) :
    IsRead inner := by
  refine isRead.ofChild (List.mem_flatMap.mpr ⟨slot, mem, ?_⟩)
  cases slot with
  | absent => cases holds
  | node m =>
    cases holds
    exact List.mem_singleton_self _
  | list _ _ => cases holds

end IsRead

/-- An element that was read and takes one part of a value. -/
structure ReadableElement (isObject : Bool) (p : Form.BindingElement) : Prop where
  dots : isObject = true → p.dots = none
  key : IsRead (p.propertyName.getD p.name)
  default : ∀ e, p.value = some e → IsRead e
  target : IsRead p.name
  keyNamed : E.NamesItself (p.propertyName.getD p.name)
  targetNamed : E.KeysNamed p.name

/-- Elements that were read, none of which keeps a pattern whole. -/
structure Readable (isObject : Bool) (items : List Node) : Prop where
  plain : isObject = true → items.any isRest = false
  isRead : ∀ n ∈ items, IsRead n
  named : E.KeysNamedIn items

variable {isObject : Bool} {target : Node} {rest : List Node}

theorem Readable.first {head : Head} {dots key default : Slot} {docs : List Node} {origin : Option Node}
    (readable : E.Readable isObject (.mk head .bindingElement [dots, key, .node target, default] docs origin :: rest)) :
    E.ReadableElement isObject ⟨dots.node?, key.node?, target, default.node?⟩ := by
  have isRead := readable.isRead _ List.mem_cons_self
  have named := readable.named
  rw [KeysNamedIn] at named
  have isReadTarget : IsRead target := isRead.ofSlot (show Slot.node target ∈ _ by simp [Node.slots]) rfl
  constructor
  case dots =>
    intro object
    have none := readable.plain object
    rw [List.any_cons, Bool.or_eq_false_iff] at none
    exact Option.isNone_iff_eq_none.mp (Option.isSome_eq_false_iff.mp none.1)
  case key =>
    cases written : key.node? with
    | none => exact isReadTarget
    | some n => exact isRead.ofSlot (by simp [Node.slots]) written
  case default => exact fun e written => isRead.ofSlot (by simp [Node.slots]) written
  case target => exact isReadTarget
  case keyNamed => exact named.1
  case targetNamed => exact named.2.1

theorem Readable.tail {first : Node} (readable : E.Readable isObject (first :: rest)) :
    E.Readable isObject rest where
  plain object := by
    have none := readable.plain object
    rw [List.any_cons, Bool.or_eq_false_iff] at none
    exact none.2
  isRead n mem := readable.isRead n (List.mem_cons_of_mem _ mem)
  named := by
    have all := readable.named
    rw [KeysNamedIn.eq_def] at all
    split at all
    · rename_i nil
      cases nil
    · rename_i same
      cases same
      exact all.2.2
    · rename_i same
      cases same
      exact all

/-! ## Made expressions -/

variable [Monad m] {t t' : Temporaries V} {name : String} {v : V} {e value : Node} {exporter : String}

@[simp] theorem set_self : t.set name v name = some v := if_pos rfl

theorem set_other {other : String} (different : other ≠ name) : t.set name v other = t other := if_neg different

theorem operand_identifier (held : t name = some v) : E.operand t (identifier name) = pure v := by
  have made : (identifier name).isSynthesized = true := has_synthesized
  have text : (identifier name).identifierText? = some name := rfl
  rw [operand, made, if_pos rfl, text, Option.bind_some, held]

theorem operand_given (given : e.isSynthesized = false) : E.operand t e = E.value e := by
  rw [operand, given, if_neg Bool.false_ne_true]

theorem valueIn_given (given : e.isSynthesized = false) : E.valueIn t e = E.value e := by
  rw [valueIn, given]
  rfl

theorem valueIn_identifier (held : t name = some v) : E.valueIn t (identifier name) = pure v := by
  have made : (identifier name).isSynthesized = true := has_synthesized
  rw [valueIn, made]
  exact E.operand_identifier held

theorem valueIn_member [LawfulMonad m] (held : t name = some v) (text : String) :
    E.valueIn t (member (identifier name) text) = E.read v (E.named text) := by
  have made : (member (identifier name) text).isSynthesized = true := has_synthesized
  rw [valueIn, made]
  change E.operand t (identifier name) >>= (fun v => E.read v (E.named text)) = _
  rw [E.operand_identifier held, pure_bind]

theorem valueIn_element [LawfulMonad m] (held : t name = some v) (index : Node) :
    E.valueIn t (element (identifier name) index) = E.indexKey index >>= E.read v := by
  have made : (element (identifier name) index).isSynthesized = true := has_synthesized
  rw [valueIn, made]
  change E.operand t (identifier name) >>= (fun v => E.indexKey index >>= E.read v) = _
  rw [E.operand_identifier held, pure_bind]

theorem indexKey_stringLiteral (text : String) : E.indexKey (stringLiteral text) = pure (E.named text) := by
  have made : (stringLiteral text).isSynthesized = true := has_synthesized
  rw [indexKey, made]
  rfl

theorem indexKey_numericLiteral (text : String) : E.indexKey (numericLiteral text) = pure (E.named text) := by
  have made : (numericLiteral text).isSynthesized = true := has_synthesized
  rw [indexKey, made]
  rfl

theorem indexKey_given (given : e.isSynthesized = false) : E.indexKey e = E.value e >>= E.key := by
  rw [indexKey, given, if_neg Bool.false_ne_true]

theorem sliced?_slice (e : Node) (place : Nat) :
    sliced? ⟨member e "slice", none, none, some (Made.list [numericLiteral (toString place)])⟩ = some (e, place) := by
  change ((toString place).toNat?).map (e, ·) = _
  rw [Nat.toString_eq_repr, Nat.toNat?_repr, Option.map_some]

theorem valueIn_slice [LawfulMonad m] (held : t name = some v) (place : Nat) :
    E.valueIn t (call (member (identifier name) "slice") [numericLiteral (toString place)]) =
      E.elementsFrom v place := by
  have made : (call (member (identifier name) "slice") [numericLiteral (toString place)]).isSynthesized = true :=
    has_synthesized
  have form : (call (member (identifier name) "slice") [numericLiteral (toString place)]).form =
    .call ⟨member (identifier name) "slice", none, none, some (Made.list [numericLiteral (toString place)])⟩ := rfl
  rw [valueIn, made, form]
  dsimp only
  rw [sliced?_slice]
  dsimp only
  rw [E.operand_identifier held, pure_bind]
  rfl

theorem testedForUndefined?_undefined (e : Node) :
    testedForUndefined? (binary e .equalsEqualsEqualsToken Made.undefined) = some e := by
  have form : (binary e .equalsEqualsEqualsToken Made.undefined).form =
    .binary e (token .equalsEqualsEqualsToken) Made.undefined := rfl
  rw [testedForUndefined?, form]
  exact if_pos ⟨rfl, rfl⟩

theorem valueIn_conditional [LawfulMonad m] (held : t name = some v) (given : e.isSynthesized = false) :
    E.valueIn t (conditional (binary (identifier name) .equalsEqualsEqualsToken Made.undefined) e (identifier name)) =
      E.orDefault v (some e) := by
  have made : (conditional (binary (identifier name) .equalsEqualsEqualsToken Made.undefined) e
      (identifier name)).isSynthesized = true := has_synthesized
  have form : (conditional (binary (identifier name) .equalsEqualsEqualsToken Made.undefined) e
      (identifier name)).form = .conditional ⟨binary (identifier name) .equalsEqualsEqualsToken Made.undefined,
        token .questionToken, e, token .colonToken, identifier name⟩ := rfl
  rw [valueIn, made, form]
  dsimp only
  rw [testedForUndefined?_undefined]
  dsimp only
  rw [E.operand_identifier held, pure_bind, E.operand_given given, orDefault]
  rfl

/-! ## Made assignments -/

theorem step_temporary (t : Temporaries V) (name : String) (value : Node) :
    E.step exporter t (assignment (identifier name) value) = E.valueIn t value >>= fun v => pure (t.set name v) := by
  have made : (identifier name).isSynthesized = true := has_synthesized
  rw [step, assignment?_assignment]
  dsimp only
  rw [made]
  rfl

theorem step_target (given : target.isSynthesized = false) :
    E.step exporter t (assignment target value) =
      E.valueIn t value >>= fun v => E.bind v target >>= fun _ => pure t := by
  rw [step, assignment?_assignment]
  dsimp only
  rw [given]
  rfl

theorem step_exportCall (c : Context) (text : String) : E.step c.exporter t (exportCall c text value) = pure t := by
  have calls : callsName c.exporter (exportCall c text value) = true := beq_self_eq_true _
  have other : assignment? (exportCall c text value) = none := rfl
  rw [step, other]
  dsimp only
  rw [calls, if_pos rfl]

/-! ## Parts -/

section

variable [LawfulMonad m] {index : Nat} {taken : List K} {p : Form.BindingElement} {part : Node}

/-- The read of a property goes by a name, a literal or an expression between brackets. -/
theorem partOf?_property {e : Node} (found : partOf? true e index p = some part) :
    (∃ text word, (p.propertyName.getD p.name).form = .identifier text word ∧ part = member e text) ∨
      (∃ text raw flags, (p.propertyName.getD p.name).form = .literal text raw flags ∧
        part = element e (stringLiteral text)) ∨
      ∃ inner, (p.propertyName.getD p.name).form = .wrapped inner ∧ part = element e inner := by
  rw [partOf?, if_pos rfl] at found
  dsimp only at found
  split at found
  · cases found
    exact .inl ⟨_, _, ‹_›, rfl⟩
  · cases found
    exact .inr (.inl ⟨_, _, _, ‹_›, rfl⟩)
  · cases found
    exact .inr (.inr ⟨_, ‹_›, rfl⟩)
  · cases found

theorem part?_of_partOf? (taken : List K) (held : t name = some v) (readable : E.ReadableElement isObject p)
    (found : partOf? isObject (identifier name) index p = some part) :
    ∃ read, E.part? isObject v index taken p = some read ∧ Prod.fst <$> read = E.valueIn t part := by
  cases isObject with
  | true =>
    rw [part?, if_pos rfl, readable.dots rfl, Option.isSome_none, if_neg Bool.false_ne_true, keyOf?]
    rcases partOf?_property found with ⟨text, word, form, rfl⟩ | ⟨text, raw, flags, form, rfl⟩ | ⟨e, form, rfl⟩
    · refine ⟨_, by rw [form]; rfl, ?_⟩
      simp [E.valueIn_member held]
    · refine ⟨_, by rw [form]; rfl, ?_⟩
      simp [E.valueIn_element held, E.indexKey_stringLiteral, readable.keyNamed text raw flags form]
    · refine ⟨_, by rw [form]; rfl, ?_⟩
      have isRead := readable.key.ofChild (Node.mem_children form (List.mem_singleton_self e))
      simp [E.valueIn_element held, E.indexKey_given isRead.isSynthesized]
  | false =>
    rw [partOf?, if_neg Bool.false_ne_true] at found
    rw [part?, if_neg Bool.false_ne_true]
    cases dots : p.dots.isSome with
    | true =>
      rw [dots, if_pos rfl] at found
      cases found
      refine ⟨_, if_pos rfl, ?_⟩
      rw [E.valueIn_slice held]
      simp
    | false =>
      rw [dots, if_neg Bool.false_ne_true] at found
      cases found
      refine ⟨_, if_neg Bool.false_ne_true, ?_⟩
      simp [E.valueIn_element held, E.indexKey_numericLiteral]

omit [LawfulMonad m] in
theorem part?_eq_none (plain : isObject = true → p.dots = none) {e : Node}
    (missing : partOf? isObject e index p = none) : E.part? isObject v index taken p = none := by
  rw [partOf?] at missing
  cases isObject with
  | true =>
    rw [if_pos rfl] at missing
    dsimp only at missing
    have unnamed : E.keyOf? p = none := by
      rw [keyOf?]
      split
      · rename_i form
        rw [form] at missing
        cases missing
      · rename_i form
        rw [form] at missing
        cases missing
      · rename_i form
        rw [form] at missing
        cases missing
      · rfl
    rw [part?, if_pos rfl, plain rfl, Option.isSome_none, if_neg Bool.false_ne_true, unnamed, Option.map_none]
  | false =>
    rw [if_neg Bool.false_ne_true] at missing
    split at missing
    · cases missing
    · cases missing

end

/-! ## New temporary variables -/

def Agree (s : State) (t t' : Temporaries V) : Prop := Set.EqOn t' t {name | name ∈ s.names.used}

variable {c : Context} {s s' : State}

theorem Agree.mono (agree : Agree s' t t') (grows : ∀ name ∈ s.names.used, name ∈ s'.names.used) : Agree s t t' :=
  fun name taken => agree (grows name taken)

theorem Agree.trans {t'' : Temporaries V} (first : Agree s t t') (second : Agree s t' t'') : Agree s t t'' :=
  Set.EqOn.trans second first

theorem hoist_names (s : State) (name : String) : (hoist name c s).2.names = s.names := by
  change (if s.hoisted.contains name then s else { s with hoisted := s.hoisted ++ [name] }).names = s.names
  split
  · rfl
  · rfl

theorem newTemporary_names : (newTemporary c s).2.names = s.names.temporary.2 := hoist_names (c := c) ..

theorem temporary_fresh : (newTemporary c s).1 ∉ s.names.used := (NameSupply.Gives.step_temporary s.names).fresh

theorem temporary_taken : (newTemporary c s).1 ∈ (newTemporary c s).2.names.used := by
  rw [newTemporary_names]
  exact ((NameSupply.Gives.step_temporary s.names).mem_used _).mpr (.inl rfl)

theorem agree_set (v : V) : Agree s t (t.set (newTemporary c s).1 v) := by
  intro name taken
  refine set_other ?_
  rintro rfl
  exact temporary_fresh taken

def Grows (s s' : State) : Prop := ∀ name ∈ s.names.used, name ∈ s'.names.used

instance : Stable Grows where
  refl _ _ := id
  trans _ _ _ first second name taken := second name (first name taken)
  unique s base name taken := ((NameSupply.Gives.step_unique s.names base).mem_used name).mpr (.inr taken)
  temporary s name taken := ((NameSupply.Gives.step_temporary s.names).mem_used name).mpr (.inr taken)
  hoist s name other taken := by
    split
    · exact taken
    · exact taken

theorem Agree.refl (s : State) (t : Temporaries V) : Agree s t t := Set.eqOn_refl t _

/-! ## Assignments that take a value apart -/

/-- One after the other, the assignments do what a computation does, but for temporary variables that were free. -/
def TakesApart (c : Context) (s : State) (t : Temporaries V) (assignments : List Node) (x : m Unit) : Prop :=
  ∀ (β : Type) (next : Temporaries V → m β), (∀ t', Agree s t t' → next t' = next t) →
    E.run c.exporter t assignments >>= next = x >>= fun _ => next t

namespace TakesApart

variable [LawfulMonad m] {assignments : List Node} {x y : m Unit}

theorem nil : E.TakesApart c s t [] (pure ()) := by
  intro β next _
  rw [run, List.foldlM_nil, pure_bind, pure_bind]

theorem append_part {α : Type} [Nonempty α] {r : m α} {x y : α → m Unit} (grows : Grows s s')
    (first : E.TakesApart c s t assignments (r >>= x))
    (second : ∀ t', Agree s t t' → ∀ a, E.TakesApart c s' t' rest (y a)) :
    E.TakesApart c s t (assignments ++ rest) (r >>= fun a => x a >>= fun _ => y a) := by
  intro β next same
  have behind (t' : Temporaries V) (agree : Agree s t t') (a : α) :
      E.run c.exporter t' rest >>= next = y a >>= fun _ => next t := by
    rw [second t' agree a β next, same t' agree]
    intro t'' later
    rw [same t' agree, same t'' (agree.trans (later.mono grows))]
  calc E.run c.exporter t (assignments ++ rest) >>= next
    _ = E.run c.exporter t assignments >>= fun t' => E.run c.exporter t' rest >>= next := by
      simp only [run, List.foldlM_append, bind_assoc]
    _ = (r >>= x) >>= fun _ => E.run c.exporter t rest >>= next := by
      refine first _ _ fun t' agree => ?_
      obtain ⟨a⟩ := ‹Nonempty α›
      rw [behind t' agree a, behind t (.refl s t) a]
    _ = (r >>= fun a => x a >>= fun _ => y a) >>= fun _ => next t := by
      simp only [bind_assoc]
      exact bind_congr fun a => bind_congr fun _ => behind t (.refl s t) a

theorem append (grows : Grows s s') (first : E.TakesApart c s t assignments x)
    (second : ∀ t', Agree s t t' → E.TakesApart c s' t' rest y) :
    E.TakesApart c s t (assignments ++ rest) (x >>= fun _ => y) := by
  have both := append_part E (r := pure ()) (x := fun _ => x) (y := fun _ => y) grows
    (by rwa [pure_bind]) fun t' agree _ => second t' agree
  rwa [pure_bind] at both

omit [LawfulMonad m] in
theorem mono (grows : Grows s s') (apart : E.TakesApart c s' t assignments x) : E.TakesApart c s t assignments x :=
  fun β next same => apart β next fun t' agree => same t' (agree.mono grows)

/-- A value is kept in a new temporary variable. -/
theorem keep {y : V → m Unit}
    (behind : ∀ v, E.TakesApart c (newTemporary c s).2 (t.set (newTemporary c s).1 v) rest (y v)) :
    E.TakesApart c s t (assignment (identifier (newTemporary c s).1) value :: rest) (E.valueIn t value >>= y) := by
  intro β next same
  have grows : Grows s (newTemporary c s).2 := Keeps.keeps c s
  have after (v : V) : E.run c.exporter (t.set (newTemporary c s).1 v) rest >>= next = y v >>= fun _ => next t := by
    rw [behind v β next, same _ (agree_set v)]
    intro t' later
    rw [same _ (agree_set v), same t' ((agree_set v).trans (later.mono grows))]
  rw [run, List.foldlM_cons, step_temporary]
  simp only [bind_assoc, pure_bind]
  exact bind_congr after

end TakesApart

/-! ## Patterns -/

def IsMadeName (n : Node) : Prop := (n.kind == .identifier && n.origin.isNone && n.isSynthesized) = true

theorem not_isMadeName_of_isRead (isRead : IsRead value) : ¬IsMadeName value := by
  intro made
  rw [IsMadeName, isRead.isSynthesized, Bool.and_false] at made
  cases made

theorem nameValue_other (other : ¬IsMadeName value) :
    nameValue value c s =
      (([assignment (identifier (newTemporary c s).1) value], identifier (newTemporary c s).1),
        (newTemporary c s).2) := by
  rw [IsMadeName] at other
  rw [nameValue, if_neg other]
  rfl

theorem not_isMadeName_partOf? {index : Nat} {p : Form.BindingElement} {part : Node}
    (found : partOf? isObject value index p = some part) : ¬IsMadeName part := by
  rw [partOf?] at found
  split at found
  · dsimp only at found
    split at found
    · cases found
      exact Bool.false_ne_true
    · cases found
      exact Bool.false_ne_true
    · cases found
      exact Bool.false_ne_true
    · cases found
  · split at found
    · cases found
      exact Bool.false_ne_true
    · cases found
      exact Bool.false_ne_true

section

variable [LawfulMonad m] {index : Nat} {items : List Node}

theorem withDefault_takesApart {part : Node} {default : Option Node} (other : ¬IsMadeName part)
    (isRead : ∀ e, default = some e → e.isSynthesized = false)
    (taken : ∀ s t part, ¬IsMadeName part →
      E.TakesApart c s t (flatten part target c s).1 (E.valueIn t part >>= fun v => E.bind v target)) :
    E.TakesApart c s t
      ((do
        let (kept, part) ← withDefault part default
        pure (kept ++ (← flatten part target)) : Register (List Node)) c s).1
      (E.valueIn t part >>= fun v => E.orDefault v default >>= fun v => E.bind v target) := by
  cases default with
  | none =>
    simp only [orDefault, pure_bind]
    exact taken s t part other
  | some e =>
    refine TakesApart.keep E fun v => ?_
    rw [← E.valueIn_conditional set_self (isRead e rfl)]
    exact taken _ _ _ Bool.false_ne_true

theorem run_exportCalls {calls : List Node} (all : ∀ n ∈ calls, ∃ text value, n = exportCall c text value) :
    E.run c.exporter t calls = pure t := by
  induction calls with
  | nil => rw [run, List.foldlM_nil]
  | cons n rest ih =>
    obtain ⟨text, value, rfl⟩ := all n List.mem_cons_self
    rw [run, List.foldlM_cons, step_exportCall, pure_bind]
    exact ih fun n mem => all n (List.mem_cons_of_mem _ mem)

theorem wholePattern_fst (target value : Node) :
    ∃ calls, (wholePattern target value c s).1 = assignment target value :: calls ∧
      ∀ n ∈ calls, ∃ text value, n = exportCall c text value := by
  refine ⟨_, rfl, fun n mem => ?_⟩
  obtain ⟨leaf, -, mem⟩ := List.mem_flatMap.mp mem
  dsimp only at mem
  cases text : leaf.1.identifierText? with
  | none =>
    rw [text] at mem
    cases mem
  | some text' =>
    rw [text] at mem
    obtain ⟨exported, -, rfl⟩ := List.mem_map.mp mem
    exact ⟨_, _, rfl⟩

theorem wholePattern_takesApart (held : t name = some v) (isRead : target.isSynthesized = false) :
    E.TakesApart c s t (wholePattern target (identifier name) c s).1 (E.bind v target) := by
  intro β next _
  obtain ⟨calls, made, exports⟩ := wholePattern_fst (c := c) (s := s) target (identifier name)
  rw [made, run, List.foldlM_cons, step_target E isRead, E.valueIn_identifier held, pure_bind]
  simp only [bind_assoc, pure_bind]
  refine bind_congr fun _ => ?_
  change E.run c.exporter t calls >>= next = _
  rw [E.run_exportCalls exports, pure_bind]

theorem flatten_takesApart (value target : Node) : ∀ s t, ¬IsMadeName value → IsRead target → E.KeysNamed target →
    E.TakesApart c s t (flatten value target c s).1 (E.valueIn t value >>= fun v => E.bind v target) := by
  refine flatten.induct
    (fun value target => ∀ s t, ¬IsMadeName value → IsRead target → E.KeysNamed target →
      E.TakesApart c s t (flatten value target c s).1 (E.valueIn t value >>= fun v => E.bind v target))
    (fun isObject value index items => ∀ s t name v taken, value = identifier name → t name = some v →
      name ∈ s.names.used → E.Readable isObject items →
      E.TakesApart c s t (flattenElements isObject value index items c s).1
        (E.bindElements isObject v index taken items))
    ?pattern ?name ?done ?left ?taken ?other value target
  case pattern =>
    intro value h multiLine lh items docs origin ih s t other isRead named
    let pattern := Node.mk h (.list multiLine) [.list lh items] docs origin
    let name := (newTemporary c s).1
    have kept : (flatten value pattern c s).1 = assignment (identifier name) value ::
        ((if h.kind == .objectBindingPattern && items.any isRest then wholePattern pattern (identifier name)
          else flattenElements (h.kind == .objectBindingPattern) (identifier name) 0 items) c
            (newTemporary c s).2).1 := by
      rw [flatten, Keeps.bind_run, nameValue_other other]
      dsimp only
      split
      · rfl
      · rfl
    rw [kept]
    refine .keep E fun v => ?_
    split
    · exact wholePattern_takesApart E set_self (isRead _ (.refl _))
    · rename_i plain
      rw [bind]
      refine ih _ _ _ _ v [] rfl set_self temporary_taken ⟨?_, ?_, ?_⟩
      · intro object
        rwa [object, Bool.true_and, Bool.not_eq_true] at plain
      · intro n mem
        refine isRead.ofChild ?_
        simpa [Node.children, Node.slots, Slot.nodes] using mem
      · rwa [KeysNamed] at named
  case name =>
    intro value target name s t _ isRead _
    rw [flatten]
    · intro β next _
      change (E.step c.exporter t (assignment target value) >>= pure) >>= next = _
      rw [step_target E (isRead _ (.refl _))]
      simp only [bind_assoc, pure_bind]
    · exact name
  case done =>
    intro isObject value index s t name v taken _ _ _ _
    rw [flattenElements, bindElements]
    exact .nil E
  case left =>
    intro isObject value index head dots key target default docs origin rest parts none ih s t name v taken same
      held used readable
    simp only [parts] at none
    rw [flattenElements, bindElements, part?_eq_none E readable.first.dots none]
    simp only [none]
    exact ih s t name v taken same held used readable.tail
  case taken =>
    intro isObject value index head dots key target default docs origin rest parts part some ih ih' s t name v
      taken same held used readable
    simp only [parts] at some
    rw [flattenElements]
    simp only [some]
    subst same
    let first : Register (List Node) := do
      let (kept, part) ← withDefault part default.node?
      pure (kept ++ (← flatten part target))
    change E.TakesApart c s t ((first c s).1 ++
      (flattenElements isObject (identifier name) (index + 1) rest c (first c s).2).1) _
    have grows : Grows s (first c s).2 := Keeps.keeps c s
    obtain ⟨r, read, parts⟩ := part?_of_partOf? E taken held readable.first some
    have : Nonempty (V × List K) := ⟨v, taken⟩
    rw [bindElements, read]
    have bound : E.TakesApart c s t (first c s).1
        (r >>= fun p => E.orDefault p.1 default.node? >>= fun v => E.bind v target) := by
      have first : (Prod.fst <$> r >>= fun u => E.orDefault u default.node? >>= fun v => E.bind v target) =
          r >>= fun p => E.orDefault p.1 default.node? >>= fun v => E.bind v target := bind_map_left ..
      rw [← first, parts]
      refine withDefault_takesApart E (not_isMadeName_partOf? some) ?_ ?_
      · exact fun e written => (readable.first.default e written).isSynthesized
      · exact fun s t part other => ih' part s t other readable.first.target readable.first.targetNamed
    have behind (t' : Temporaries V) (agree : Agree s t t') (p : V × List K) :=
      ih (first c s).2 t' name v p.2 rfl ((agree used).trans held) (grows _ used) readable.tail
    have all := TakesApart.append_part E grows bound behind
    simpa only [bind_assoc] using all
  case other =>
    intro isObject value index first rest other ih s t name v taken same held used readable
    rw [flattenElements, bindElements]
    · exact ih s t name v taken same held used readable.tail
    · exact other
    · exact other

/-! ## Lists of variables -/

theorem variableRound_takesApart {n : Node} (isRead : IsRead n)
    (named : ∀ p, n.form = .variableDeclaration p → E.KeysNamed p.name) (out : List Node) (s : State) :
    ∃ assigned, (variableRound n out c s).1 = .yield (out ++ assigned) ∧
      ∀ t, E.TakesApart c s t assigned (E.bindVariable n) := by
  by_cases declares : ∃ p, n.form = .variableDeclaration p
  · obtain ⟨p, form⟩ := declares
    rw [variableRound, bindVariable, form]
    dsimp only
    let declared : Register PUnit := p.name.boundTexts.forM hoist
    have grows : Grows s (declared c s).2 := Keeps.keeps c s
    have isReadName : IsRead p.name := isRead.ofChild (Node.mem_children form List.mem_cons_self)
    cases value : p.value with
    | some e =>
      have isReadValue : IsRead e := by
        refine isRead.ofChild (Node.mem_children form ?_)
        simp [Form.slots, value, Slot.ofNode?, Slot.nodes]
      refine ⟨(flatten e p.name c (declared c s).2).1, rfl, fun t => .mono E grows ?_⟩
      dsimp only
      rw [← E.valueIn_given isReadValue.isSynthesized]
      exact E.flatten_takesApart e p.name _ t (not_isMadeName_of_isRead isReadValue) isReadName (named p form)
    | none => exact ⟨[], congrArg ForInStep.yield (List.append_nil out).symm, fun t => .nil E⟩
  · have round : variableRound n out = pure (.yield out) := by
      rw [variableRound]
      split
      · exact absurd ⟨_, ‹_›⟩ declares
      · rfl
    have bound : E.bindVariable n = pure () := by
      rw [bindVariable]
      split
      · exact absurd ⟨_, ‹_›⟩ declares
      · rfl
    rw [round, bound]
    exact ⟨[], congrArg ForInStep.yield (List.append_nil out).symm, fun t => .nil E⟩

theorem forIn_variableRound_takesApart (isRead : ∀ n ∈ items, IsRead n)
    (named : ∀ n ∈ items, ∀ p, n.form = .variableDeclaration p → E.KeysNamed p.name) (out : List Node) (s : State) :
    ∃ assigned, (forIn items out variableRound c s).1 = out ++ assigned ∧
      ∀ t, E.TakesApart c s t assigned (items.forM E.bindVariable) := by
  induction items generalizing out s with
  | nil => exact ⟨[], (List.append_nil out).symm, fun t => .nil E⟩
  | cons n rest ih =>
    obtain ⟨here, round, apart⟩ := E.variableRound_takesApart (c := c) (isRead n List.mem_cons_self)
      (named n List.mem_cons_self) out s
    obtain ⟨later, rounds, aparts⟩ := ih (fun n mem => isRead n (List.mem_cons_of_mem _ mem))
      (fun n mem => named n (List.mem_cons_of_mem _ mem)) (out ++ here) (variableRound n out c s).2
    refine ⟨here ++ later, ?_, fun t => ?_⟩
    · rw [List.forIn_cons, Keeps.bind_run, round]
      exact rounds.trans (List.append_assoc ..)
    · exact .append E (Keeps.keeps c s) (apart t) fun t' _ => aparts t'

/-- The assignments that are left of a list of variables evaluate what the variables start with in order, each once,
and give its parts to the same names. -/
theorem run_hoistVariables {l : Node} (isRead : IsRead l)
    (named : ∀ n p, l.Contains n → n.form = .variableDeclaration p → E.KeysNamed p.name) (s : State)
    (t : Temporaries V) :
    (fun _ => ()) <$> E.run c.exporter t (hoistVariables l c s).1 = E.bindVariables l := by
  rw [map_eq_pure_bind]
  by_cases list : ∃ multiLine declarations, l.form = .list multiLine declarations
  · obtain ⟨multiLine, declarations, form⟩ := list
    have within {n : Node} (mem : n ∈ declarations.items) : n ∈ l.children := by
      refine Node.mem_children form ?_
      simpa [Form.slots, Slot.ofList, Slot.nodes] using mem
    obtain ⟨assigned, rounds, apart⟩ := E.forIn_variableRound_takesApart (c := c)
      (fun n mem => isRead.ofChild (within mem)) (fun n mem p => named n p (.ofChild (within mem) (.refl n))) [] s
    have hoisted : (hoistVariables l c s).1 = assigned := by
      rw [hoistVariables, form]
      exact rounds
    have run := apart t Unit (fun _ => pure ()) (fun _ _ => rfl)
    rw [hoisted, run, bindVariables, form, bind_pure_unit]
  · have hoisted : hoistVariables l = pure [] := by
      rw [hoistVariables]
      split
      · exact absurd ⟨_, _, ‹_›⟩ list
      · rfl
    have bound : E.bindVariables l = pure () := by
      rw [bindVariables]
      split
      · exact absurd ⟨_, _, ‹_›⟩ list
      · rfl
    rw [hoisted, bound]
    change E.run c.exporter t [] >>= _ = _
    rw [run, List.foldlM_nil, pure_bind]

end

/-! ## Values that are paths -/

def ofPaths : Evaluation (StateM (List (String × String))) String String where
  value n := pure (n.identifierText?.getD "")
  assign target v := modify ((target.identifierText?.getD "", v) :: ·)
  key := pure
  named := id
  literalName _ text := text
  read v k := pure (v ++ "." ++ k)
  elementsFrom v n := pure (v ++ ".." ++ toString n)
  propertiesBut v keys := pure (keys.foldl (fun v k => v ++ "-" ++ k) v)
  isUndefined v := v == ""

theorem ofPaths_keysNamed (n : Node) : ofPaths.KeysNamed n := by
  refine KeysNamed.induct ofPaths.KeysNamed ofPaths.KeysNamedIn
    ?pattern ?name ?done ?element ?other n
  case pattern =>
    intro h multiLine lh items docs origin named
    rwa [KeysNamed]
  case name =>
    intro n other
    rw [KeysNamed.eq_def]
    split
    · exact absurd rfl (other _ _ _ _ _ _)
    · trivial
  case done =>
    rw [KeysNamedIn]
    trivial
  case element =>
    intro h dots key target default docs origin rest named more
    rw [KeysNamedIn]
    exact ⟨fun _ _ _ _ => rfl, named, more⟩
  case other =>
    intro first rest other more
    rw [KeysNamedIn]
    · exact more
    · exact other

theorem run_hoistVariables_of_nested_pattern :
    ∃ l ∈ (SourceFile.parse "a.ts" "var \x7b a: [b = c, ...d], \"e\": f \x7d = g;" .esNext .ts
        true).statements.flatMap Node.children,
      l.kind = .variableDeclarationList ∧ IsRead l ∧
        (∀ n p, l.Contains n → n.form = .variableDeclaration p → ofPaths.KeysNamed p.name) ∧
        ∀ (c : Context) (s : State) (t : Temporaries String),
          (fun _ => ()) <$> ofPaths.run c.exporter t (hoistVariables l c s).1 = ofPaths.bindVariables l := by
  have read : ∃ l ∈ (SourceFile.parse "a.ts" "var \x7b a: [b = c, ...d], \"e\": f \x7d = g;" .esNext .ts
      true).statements.flatMap Node.children,
    l.kind = .variableDeclarationList ∧ l.preorder.all (!·.isSynthesized) = true := by decide +kernel
  obtain ⟨l, mem, kind, plain⟩ := read
  have isRead : IsRead l := fun n contains => by simpa using List.all_eq_true.mp plain n contains.mem_preorder
  have named : ∀ n p, l.Contains n → n.form = .variableDeclaration p → ofPaths.KeysNamed p.name :=
    fun _ p _ _ => ofPaths_keysNamed p.name
  exact ⟨l, mem, kind, isRead, named, fun c s t => ofPaths.run_hoistVariables isRead named s t⟩

end Evaluation

end ScriptFrontend
