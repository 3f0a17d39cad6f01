import ScriptFrontend.Proofs.Lowering.Replacement
import ScriptFrontend.Proofs.Registration.State

/-!
# Exports that are held

Exports of an enumeration or namespace are held from its first statement on and released at its last
one. Nothing else holds or releases any, so none is left behind the body.
-/

namespace ScriptFrontend.Registration

open Made

def State.HoldsSame (s t : State) : Prop := t.deferred = s.deferred

instance : Stable State.HoldsSame where
  refl _ := rfl
  trans _ _ _ h h' := Eq.trans h' h
  unique _ _ := rfl
  temporary _ := rfl
  hoist s name := by
    split <;> rfl

instance (n : Node) : Keeps State.HoldsSame (hoistFunction n) := by
  rw [hoistFunction]
  split
  · infer_instance
  · exact .then_ fun c => .then_ fun name => .ofModify fun s => rfl

/-- How the exports that are held change over a statement: only one that stands for a declaration
holds some for it, and only its last mark releases them. -/
inductive Step (n : Node) (s t : State) : Prop where
  | same (h : t.deferred = s.deferred)
  | held (declaration : Node) (of : n.origin = some declaration)
      (starts : Lower.isContainer declaration = true ∨ n.kind = .mergeDeclarationMarker)
      (exports : List Node) (h : t.deferred = hold declaration exports s.deferred)
  | released (declaration : Node) (of : n.origin = some declaration)
      (ends : n.kind = .endOfDeclarationMarker)
      (h : t.deferred = s.deferred.eraseP (·.1.id == declaration.id))

def Steps (n : Node) {α : Type} (x : Register α) : Prop := ∀ c s, Step n s (x c s).2

namespace Steps

variable {α β : Type} {n : Node} {x : Register α} {f : α → Register β}

theorem of_keeps (x : Register α) [h : Keeps State.HoldsSame x] : Steps n x :=
  fun c s => .same (h.keeps c s)

theorem then_ [first : Keeps State.HoldsSame x] (rest : ∀ a, Steps n (f a)) : Steps n (x >>= f) := by
  intro c s
  have same : (x c s).2.deferred = s.deferred := first.keeps c s
  rw [Keeps.bind_run]
  cases rest (x c s).1 c (x c s).2 with
  | same h => exact .same (h.trans same)
  | held declaration of starts exports h => exact .held declaration of starts exports (same ▸ h)
  | released declaration of ends h => exact .released declaration of ends (same ▸ h)

theorem value {a : β} (h : Steps n x) : Steps n (do let _ ← x; return a) := h

end Steps

variable {n : Node}

theorem deferExports_steps {declaration : Node} (of : n.origin = some declaration)
    (starts : Lower.isContainer declaration = true ∨ n.kind = .mergeDeclarationMarker) :
    Steps n (deferExports declaration) := by
  rw [deferExports]
  refine .then_ fun c => ?_
  cases declaration.declaredText? with
  | none => exact .of_keeps (pure _)
  | some name => exact fun _ _ => .held declaration of starts _ rfl

theorem variableStatements_steps (n : Node) : Steps n (variableStatements n) := by
  rw [variableStatements]
  split
  · rename_i declaration found
    obtain ⟨of, container⟩ := Option.filter_eq_some_iff.mp found
    exact .then_ fun _ => .value (deferExports_steps of (.inl container))
  · split <;> exact .of_keeps _

theorem statement_steps (depth : Nat) (n : Node) : Steps n (statement depth n) := by
  rw [statement]
  split
  · exact .of_keeps _
  refine .then_ fun c => ?_
  split
  case h_10 => exact variableStatements_steps n
  case h_11 kind =>
    cases of : n.origin with
    | none => exact .of_keeps (pure _)
    | some declaration => exact .value (deferExports_steps of (.inr kind))
  case h_12 kind =>
    cases of : n.origin with
    | none => exact .of_keeps _
    | some declaration => exact fun _ _ => .released declaration of kind rfl
  all_goals first
    | exact .of_keeps _
    | split <;> exact .of_keeps _

/-! ## What is left behind the body -/

variable {c : Context} {s t : State} {depth : Nat}

theorem statement_of_parsed (parsed : n.origin = none) :
    (statement depth n c s).2.deferred = s.deferred := by
  cases statement_steps depth n c s with
  | same h => exact h
  | held declaration of => cases parsed.symm.trans of
  | released declaration of => cases parsed.symm.trans of

def State.HoldsOnly (s : State) (declaration : Node) : Prop :=
  s.deferred = [] ∨ ∃ exports, s.deferred = [(declaration, exports)]

theorem statement_holdsOnly {declaration : Node} (of : ∀ m, n.origin = some m → m = declaration)
    (only : s.HoldsOnly declaration) : (statement depth n c s).2.HoldsOnly declaration := by
  cases statement_steps depth n c s with
  | same h => exact only.imp h.trans fun ⟨exports, held⟩ => ⟨exports, h.trans held⟩
  | held m from_ starts exports h =>
    cases of m from_
    rcases only with empty | ⟨old, held⟩
    · rw [empty] at h
      exact .inr ⟨_, h⟩
    · rw [held, hold, if_pos (beq_self_eq_true _)] at h
      exact .inr ⟨_, h⟩
  | released m from_ ends h =>
    cases of m from_
    rcases only with empty | ⟨old, held⟩
    · exact .inl (by simpa [empty] using h)
    · exact .inl (by simpa [held] using h)

/-- The last mark of a declaration leaves nothing that was held for it. -/
theorem endMarker_releases {declaration : Node} (only : s.HoldsOnly declaration) :
    (statement depth (marker .endOfDeclarationMarker declaration) c s).2.deferred = [] := by
  have run : (statement depth (marker .endOfDeclarationMarker declaration) c s).2.deferred =
      s.deferred.eraseP (·.1.id == declaration.id) := by
    have present : (marker .endOfDeclarationMarker declaration).isAmbient = false := by
      change FlagSet.empty.meets ModifierFlags.isAmbient = false
      decide
    rw [statement, present]
    rfl
  rw [run]
  rcases only with empty | ⟨exports, held⟩
  · simp [empty]
  · simp [held]

/-- One round of the loop over the statements that stand in the place of one. -/
abbrev round (depth : Nat) (n : Node) (out : List Node) : Register (ForInStep (List Node)) := do
  return .yield (out ++ (← statement depth n))

theorem forIn_round_cons {l out : List Node} :
    (forIn (n :: l) out (round depth) : Register (List Node)) c s =
      (forIn l (out ++ (statement depth n c s).1) (round depth) : Register (List Node)) c
        (statement depth n c s).2 := by
  rw [List.forIn_cons]
  rfl

/-- One round of the loop over the statements of a module. -/
abbrev turn (c : Context) (depth : Nat) (n : Node) (out : List Node) : Register (ForInStep (List Node)) := do
  return .yield (← forIn (expand c n) out (round depth))

theorem forIn_turn_cons {items out : List Node} :
    (forIn (n :: items) out (turn c depth) : Register (List Node)) c s =
      (forIn items ((forIn (expand c n) out (round depth) : Register (List Node)) c s).1 (turn c depth) :
        Register (List Node)) c ((forIn (expand c n) out (round depth) : Register (List Node)) c s).2 := by
  rw [List.forIn_cons]
  rfl

theorem mem_forIn_round {m : Node} {l out : List Node} (mem : m ∈ out) :
    m ∈ ((forIn l out (round depth) : Register (List Node)) c s).1 := by
  induction l generalizing out s with
  | nil => exact mem
  | cons n l ih =>
    rw [forIn_round_cons]
    exact ih (List.mem_append_left _ mem)

/-- What is left of a statement that nothing stands for is in the body of the module. -/
theorem mem_body {m : Node} {items : List Node} (mem : n ∈ items) (own : c.lowering.replacement? n = none)
    (left : ∀ s, m ∈ (statement depth n c s).1) (s : State) : m ∈ (body depth items c s).1 := by
  have kept {items out : List Node} {s : State} (mem : m ∈ out) :
      m ∈ ((forIn items out (turn c depth) : Register (List Node)) c s).1 := by
    induction items generalizing out s with
    | nil => exact mem
    | cons n items ih =>
      rw [forIn_turn_cons]
      exact ih (mem_forIn_round mem)
  have loop (out : List Node) : m ∈ ((forIn items out (turn c depth) : Register (List Node)) c s).1 := by
    induction items generalizing out s with
    | nil => cases mem
    | cons first items ih =>
      rw [forIn_turn_cons]
      rcases List.mem_cons.mp mem with rfl | later
      · refine kept ?_
        have run : ((forIn [n] out (round depth) : Register (List Node)) c s).1 = out ++ (statement depth n c s).1 :=
          congrArg Prod.fst forIn_round_cons
        rw [expand, own, Option.getD_none, run]
        exact List.mem_append_right _ (left s)
      · exact ih later _ _
  exact loop []

theorem statement_expressionStatement {e : Node} (form : n.form = .wrapped e) (kind : n.kind = .expressionStatement)
    (present : n.isAmbient = false) (s : State) : statement (depth + 1) n c s = ([n], s) := by
  have visited : nested (depth + 1) n = pure n := by rw [nested, form]
  rw [statement, present, kind]
  change (do return [← nested (depth + 1) n] : Register (List Node)) c s = _
  rw [visited]
  rfl

theorem statement_fillingCall (role : Lowering.Role) (statements : List Node) :
    statement (depth + 1) (Lowering.fillingCall role statements) c s =
      ([Lowering.fillingCall role statements], s) := by
  have present : (Lowering.fillingCall role statements).isAmbient = false := by
    change FlagSet.empty.meets ModifierFlags.isAmbient = false
    decide
  rw [statement, present]
  rfl

/-- The function that an enumeration or a namespace becomes is in the body of the module. -/
theorem fillingCall_mem_body (depth : Nat) (s : State) {role : Lowering.Role} {statements : List Node}
    (replaced : c.lowering.replacement? n = some (Lowering.declarationStatements n role statements)) :
    Lowering.fillingCall role statements ∈ (body (depth + 1) [n] c s).1 := by
  have expanded : expand c n = Lowering.declarationStatements n role statements := by
    rw [expand, replaced]
    rfl
  change _ ∈ ((forIn (expand c n) [] (round (depth + 1)) : Register (List Node)) c s).1
  rw [expanded, Lowering.declarationStatements, forIn_round_cons, forIn_round_cons, forIn_round_cons,
    statement_fillingCall]
  exact List.mem_append_left _ (List.mem_append_right _ (List.mem_singleton_self _))

theorem declarationStatements_settle {declaration : Node} {role : Lowering.Role}
    {body out : List Node} (empty : s.deferred = []) :
    ((forIn (Lowering.declarationStatements declaration role body) out (round depth) :
      Register (List Node)) c s).2.deferred = [] := by
  have variable_of (m : Node) (from_ : (Lowering.variableOf declaration role).origin = some m) :
      m = declaration := Lowering.variableOf_origin from_
  have filling_of (m : Node) (from_ : (Lowering.fillingCall role body).origin = some m) :
      m = declaration := nomatch from_
  rw [Lowering.declarationStatements, forIn_round_cons, forIn_round_cons, forIn_round_cons]
  exact endMarker_releases (statement_holdsOnly filling_of (statement_holdsOnly variable_of (.inl empty)))

/-- What stands in the place of a statement leaves nothing that is held. A name for a part of a module
is no enumeration or namespace. -/
theorem standsFor_settle {v out : List Node} (stands : Lowering.StandsFor n v)
    (other : n.isInnerAlias = true → Lower.isContainer n = false) (empty : s.deferred = []) :
    ((forIn v out (round depth) : Register (List Node)) c s).2.deferred = [] := by
  cases stands with
  | nothing => exact empty
  | declaration container role body => exact declarationStatements_settle empty
  | innerAlias inner place =>
    rw [forIn_round_cons]
    change (statement depth (Lowering.aliasStatement n place none) c s).2.deferred = []
    have made (m : Node) (from_ : (Lowering.aliasStatement n place none).origin = some m) : m = n :=
      Lowering.aliasStatement_origin from_
    have kind : (Lowering.aliasStatement n place none).kind = .variableStatement ∨
        (Lowering.aliasStatement n place none).kind = .notEmittedStatement := by
      rw [Lowering.aliasStatement]
      split
      · exact .inl rfl
      · exact .inr rfl
    cases statement_steps depth (Lowering.aliasStatement n place none) c s with
    | same h => exact h.trans empty
    | held m from_ starts =>
      cases made m from_
      rw [other inner] at starts
      rcases kind with kind | kind <;> rw [kind] at starts <;> simp at starts
    | released m from_ ends => rcases kind with kind | kind <;> cases kind.symm.trans ends

/-- The body of a module leaves nothing that is held, where its statements were read from a text. -/
theorem body_deferred {given : Node → Prop} {items : List Node}
    (parsed : ∀ n ∈ items, n.origin = none) (made : Lowering.MadeFor given c.lowering)
    (other : ∀ n, given n → n.isInnerAlias = true → Lower.isContainer n = false)
    (empty : s.deferred = []) : (body depth items c s).2.deferred = [] := by
  have loop (out : List Node) :
      ((forIn items out (turn c depth) : Register (List Node)) c s).2.deferred = [] := by
    induction items generalizing s out with
    | nil => exact empty
    | cons n items ih =>
      have first : ((forIn (expand c n) out (round depth) : Register (List Node)) c s).2.deferred = [] := by
        rw [expand, Lowering.replacement?]
        split
        · rw [Option.getD_none, forIn_round_cons]
          exact (statement_of_parsed (parsed n (List.mem_cons_self ..))).trans empty
        · cases found : c.lowering.replacements[n.id]? with
          | none =>
            rw [Option.getD_none, forIn_round_cons]
            exact (statement_of_parsed (parsed n (List.mem_cons_self ..))).trans empty
          | some v =>
            obtain ⟨m, inside, -, stands⟩ := made _ _ found
            exact standsFor_settle stands (other m inside) empty
      rw [forIn_turn_cons]
      exact ih (fun m mem => parsed m (List.mem_cons_of_mem _ mem)) first _
  exact loop []

end ScriptFrontend.Registration
