import ScriptFrontend.Proofs.Reading.File

/-!
# Guesses of arrow functions

What the tokens say about an arrow function is final: after a yes one is read, whatever errors that
takes, and after a no none is. Where only a reading can tell, the first one that fails is final, too. Its
offset is kept in whatever context it failed, also where all that was read around it is taken back.
-/

namespace ScriptFrontend

namespace Parse

variable {α β : Type}

/-! ## Readings that have an answer -/

/-- The value of a reading meets a condition, wherever it begins. -/
def Gives (P : α → Prop) (p : Parse α) : Prop := ∀ g s, P (p g s).1

namespace Gives

variable {P : α → Prop} {Q : β → Prop} {p : Parse α} {f : α → Parse β}

theorem pure {x : α} (h : P x) : Gives P (Pure.pure x : Parse α) := fun _ _ => h

theorem seq (first : Gives P p) (rest : ∀ x, P x → Gives Q (f x)) : Gives Q (p >>= f) :=
  fun g s => rest _ (first g s) g (p g s).2

theorem behind (rest : ∀ x, Gives Q (f x)) : Gives Q (p >>= f) :=
  fun g s => rest (p g s).1 g (p g s).2

theorem choose {c : Prop} [Decidable c] {q : Parse α} (yes : c → Gives P p) (no : ¬ c → Gives P q) :
    Gives P (if c then p else q) := by
  split
  · exact yes ‹c›
  · exact no ‹¬ c›

end Gives

theorem parameterList?_sure (mode : SignatureMode) :
    Gives (fun l => l.isSome = true) (parameterList? mode true) := by
  unfold parameterList? inSignature
  refine .behind fun _ => .behind fun _ => .behind fun _ => .behind fun _ => .behind fun _ => ?_
  refine .seq (P := fun l => l.isSome = true) ?_ fun l found => .behind fun _ => .behind fun _ => .pure found
  exact .choose (fun _ => .behind fun _ => .pure rfl) fun _ => .behind fun _ => .pure rfl

/-- Parameters that must be there are read, or missing ones stand for them. -/
theorem arrowParameters?_sure (mode : SignatureMode) :
    Gives (fun l => l.isSome = true) (arrowParameters? mode true) := by
  unfold arrowParameters?
  refine .behind fun opened => .choose (fun _ => ?_) fun _ => .behind fun _ => .pure rfl
  refine .seq (parameterList?_sure mode) fun l found => ?_
  cases l with
  | none => cases found
  | some l => exact .behind fun closed => .choose (fun _ => .pure rfl) fun other => absurd (by simp) other

theorem finishLed_kind (l : Lead) (kind : Kind) (form : Form) :
    Gives (fun n => n.kind = kind) (finishLed l kind form) := by
  unfold finishLed
  exact .seq (P := fun n => n.kind = kind) (fun g s => rfl)
    fun n same g s => (congrArg Head.kind (withDocs_head l.hasDoc n s)).trans same

theorem parenthesizedArrow?_sure :
    Gives (fun n => ∃ arrow, n = some arrow ∧ arrow.kind = .arrowFunction) (parenthesizedArrow? true true) := by
  unfold parenthesizedArrow?
  refine .behind fun l => .behind fun modifiers => .behind fun typeParameters =>
    .seq (arrowParameters?_sure _) fun parameters found => ?_
  cases parameters with
  | none => cases found
  | some parameters =>
    refine .behind fun hasColon => .behind fun t => .choose (fun no => absurd no (by simp)) fun _ => ?_
    refine .behind fun last => .choose (fun no => absurd no (by simp)) fun _ => .behind fun arrow => ?_
    have finished (body : Node) : Gives (fun n => ∃ arrow, n = some arrow ∧ arrow.kind = .arrowFunction)
        (do
          if !true && hasColon && !(← tokenIs .colonToken) then return none
          return some (← finishLed { l with modifiers } .arrowFunction (.functionLike
            { modifiers, typeParameters, parameters, type := t, arrow := some arrow, body := some body }))) :=
      .behind fun _ => .choose (fun no => absurd no (by simp)) fun _ =>
        .seq (finishLed_kind _ _ _) fun n kind => .pure ⟨n, rfl, kind⟩
    exact .choose (fun _ => .behind finished) fun _ => .behind finished

/-! ## Guesses by the tokens -/

variable {D : Discipline} {m m' : World D} {g : Productions} {s t : ParserState}

theorem arrow?_run (allowReturnType : Bool) (g : Productions) (s : ParserState) :
    arrow? allowReturnType g s = match (guessArrow g s).1 with
      | .no => (none, (guessArrow g s).2)
      | .yes => parenthesizedArrow? true true g (guessArrow g s).2
      | .unknown => attempt (possibleArrow? allowReturnType) g (guessArrow g s).2 := by
  rw [arrow?, bind_run]
  cases (guessArrow g s).1 <;> rfl

theorem guessArrow_regains (link : Linked D g) (stands : m.At s) : s.Regains (guessArrow g s).2 := by
  have unchanged : s.Regains s := ⟨.refl s, rfl, rfl, rfl, rfl⟩
  have looked : s.Regains (lookAhead guessArrowAhead g s).2 := lookAhead_regains link stands
  rw [guessArrow, bind_run]
  change (fun guess : Parse ArrowGuess => s.Regains (guess g s).2) _
  split
  · exact looked
  · exact looked
  · exact looked
  · exact unchanged
  · exact unchanged

theorem arrow?_of_yes (allowReturnType : Bool) (yes : (guessArrow g s).1 = .yes) :
    ∃ n, (arrow? allowReturnType g s).1 = some n ∧ n.kind = .arrowFunction := by
  rw [arrow?_run, yes]
  exact parenthesizedArrow?_sure g _

theorem arrow?_of_no (link : Linked D g) (stands : m.At s) (allowReturnType : Bool)
    (no : (guessArrow g s).1 = .no) :
    (arrow? allowReturnType g s).1 = none ∧ s.Regains (arrow? allowReturnType g s).2 := by
  rw [arrow?_run, no]
  exact ⟨rfl, guessArrow_regains link stands⟩

/-! ## Guesses by reading -/

/-- An offset that is known to open no arrow function is not tried again. -/
theorem possibleArrow?_of_mem (known : s.scanner.tokenStart ∈ s.notArrows) (allowReturnType : Bool) :
    possibleArrow? allowReturnType g s = (none, s) := by
  rw [possibleArrow?, bind_run, bind_run]
  change (if s.notArrows.contains s.scanner.tokenStart = true then _ else _ : Parse (Option Node)) g s = _
  rw [if_pos (List.contains_iff_mem.mpr known)]
  rfl

/-- An offset where no arrow function could be read is kept. -/
theorem mem_notArrows_of_none {allowReturnType : Bool} (failed : (possibleArrow? allowReturnType g s).1 = none) :
    s.scanner.tokenStart ∈ (possibleArrow? allowReturnType g s).2.notArrows := by
  by_cases known : s.scanner.tokenStart ∈ s.notArrows
  · rw [possibleArrow?_of_mem known]
    exact known
  · have unknown : ¬ s.notArrows.contains s.scanner.tokenStart = true := by simpa using known
    have tried : possibleArrow? allowReturnType g s = (do
        let n ← parenthesizedArrow? false allowReturnType
        if n.isNone then modify fun t => { t with notArrows := s.scanner.tokenStart :: t.notArrows }
        return n : Parse (Option Node)) g s := by
      rw [possibleArrow?, bind_run, bind_run]
      change (if s.notArrows.contains s.scanner.tokenStart = true then _ else _ : Parse (Option Node)) g s = _
      rw [if_neg unknown]
      rfl
    rw [tried, bind_run] at failed ⊢
    revert failed
    generalize parenthesizedArrow? false allowReturnType g s = r
    obtain ⟨n, t⟩ := r
    cases n with
    | none => exact fun _ => List.mem_cons_self ..
    | some n => exact nofun

/-- Where a reading found no arrow function, none is found again: whatever was read since then and taken
back, and in whatever context the same token stands. -/
theorem arrow?_stays_none (link : Linked D g) {allowReturnType : Bool} (stands : m.At s)
    (unknown : (guessArrow g s).1 = .unknown) (failed : (arrow? allowReturnType g s).1 = none)
    (later : (arrow? allowReturnType g s).2.Keeps t) (stands' : m'.At t)
    (same : t.scanner.tokenStart = s.scanner.tokenStart) (unknown' : (guessArrow g t).1 = .unknown)
    (allowReturnType' : Bool) : (arrow? allowReturnType' g t).1 = none := by
  have start {s : ParserState} {m : World D} (stands : m.At s) :
      (guessArrow g s).2.scanner.tokenStart = s.scanner.tokenStart :=
    congrArg TokenState.tokenStart (guessArrow_regains link stands).place
  rw [arrow?_run, unknown] at failed later
  have notFound : (possibleArrow? allowReturnType g (guessArrow g s).2).1 = none := by
    cases found : (possibleArrow? allowReturnType g (guessArrow g s).2).1 with
    | none => rfl
    | some n => exact absurd (attempt_some found ▸ failed) (by simp [found])
  dsimp only at later
  rw [attempt_none notFound] at later
  have kept : s.scanner.tokenStart ∈ t.notArrows :=
    later.notArrows (start stands ▸ mem_notArrows_of_none notFound)
  have known : (guessArrow g t).2.scanner.tokenStart ∈ (guessArrow g t).2.notArrows := by
    rw [start stands', same]
    exact (guessArrow_regains link stands').notArrows kept
  rw [arrow?_run, unknown']
  dsimp only
  rw [attempt_none (by rw [possibleArrow?_of_mem known])]

/-- What the tokens say of an arrow function is final, and so is a reading that finds none where they leave it
open. -/
theorem arrow?_follows_guess (link : Linked D g) (stands : m.At s) (allowReturnType : Bool) :
    ((guessArrow g s).1 = .yes →
      ∃ n, (arrow? allowReturnType g s).1 = some n ∧ n.kind = .arrowFunction) ∧
    ((guessArrow g s).1 = .no →
      (arrow? allowReturnType g s).1 = none ∧ s.Regains (arrow? allowReturnType g s).2) ∧
    ((guessArrow g s).1 = .unknown → (arrow? allowReturnType g s).1 = none →
      ∀ (m' : World D) (t : ParserState), (arrow? allowReturnType g s).2.Keeps t → m'.At t →
        t.scanner.tokenStart = s.scanner.tokenStart → (guessArrow g t).1 = .unknown →
          ∀ allowReturnType', (arrow? allowReturnType' g t).1 = none) := by
  refine ⟨arrow?_of_yes allowReturnType, arrow?_of_no link stands allowReturnType, ?_⟩
  intro unknown failed m' t later stands' same unknown'
  exact arrow?_stays_none link stands unknown failed later stands' same unknown'

theorem empty_parameters_begin_arrow :
    let text := "() => a"
    let g := Productions.upTo (Productions.depthFor text)
    let s := (skipToken g (.initial "a.ts" text .esNext .ts none 0)).2
    (∃ m : World (.ofText text false), Linked (.ofText text false) g ∧ m.At s) ∧ (guessArrow g s).1 = .yes ∧
      ∃ n, (arrow? true g s).1 = some n ∧ n.kind = .arrowFunction := by
  intro text g s
  have link : Linked (.ofText text false) g := Discipline.linked_of_whole
  have begins := ParserState.initial_begins "a.ts" text .esNext .ts
  have rests : (Discipline.ofText text false).Rests (.initial "a.ts" text .esNext .ts none 0) :=
    ⟨⟨begins.whole.le, begins.skips, Nat.zero_le _⟩, rfl, nofun, rfl⟩
  obtain ⟨m, -, stands, -⟩ := rests.skipToken_lands link (.inr ⟨rfl, Nat.succ_pos 7⟩)
  have yes : (guessArrow g s).1 = .yes := by decide +kernel
  exact ⟨⟨m, link, stands⟩, yes, (arrow?_follows_guess link stands true).1 yes⟩

end Parse

end ScriptFrontend
