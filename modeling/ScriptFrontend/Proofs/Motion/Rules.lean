import ScriptFrontend.Grammar.Production
import ScriptFrontend.Proofs.Diagnostic.Collection
import ScriptFrontend.Proofs.Token.Standing

/-!
# Readings that make no nodes

A scanner keeps its text, and whether it passes over trivia, wherever it goes. From a place in its text
it goes on to a place in its text.

Looking, moving on, reporting and going back make no nodes. What holds between the states before and after
each such step, and from step to step, holds between those before and after all that is put together from
such steps. There is a rule for each way to put readings together.
-/

namespace ScriptFrontend

/-! ## Ways of a scanner -/

namespace Scanner

open Token

/-- The text of a scanner, and whether it passes over trivia. -/
structure Frame where
  text : String
  skipsTrivia : Bool

def frame (s : Scanner) : Frame := ⟨s.text, s.skipsTrivia⟩

/-- A scanner may go to another one, be it placed or not. -/
structure GoesTo (s t : Scanner) : Prop where
  frame : t.frame = s.frame
  moves : s.Placed → s.MovesTo t

variable {s t : Scanner}

theorem MovesTo.trans {u : Scanner} (h : s.MovesTo t) (h' : t.MovesTo u) : s.MovesTo u where
  placed := h'.placed
  text := h'.text.trans h.text
  stop := h'.stop.trans h.stop
  forward := Nat.le_trans h.forward h'.forward
  live same token := by
    have := h.forward
    have := h'.forward
    exact h'.live (by omega) (h.live (by omega) token)
  whole := h'.whole ∘ h.whole

theorem GoesTo.trans {u : Scanner} (h : s.GoesTo t) (h' : t.GoesTo u) : s.GoesTo u where
  frame := h'.frame.trans h.frame
  moves placed := (h.moves placed).trans (h'.moves (h.moves placed).placed)

theorem frame_report (errors : List ScanError) : (s.report errors).frame = s.frame := by
  rw [frame, report_text, report_skipsTrivia]
  rfl

theorem frame_land (start : Nat) (l : Lexeme) : (s.land start l).frame = s.frame := by
  rw [land, frame_report]
  rfl

theorem frame_scan_go (fuel : Nat) (s : Scanner) : (scan.go fuel s).frame = s.frame := by
  induction fuel generalizing s with
  | zero => exact frame_land _ _
  | succ fuel ih =>
    rw [scan.go]
    split
    · split
      · rw [ih, frame_report]
        rfl
      · exact frame_land _ _
    · exact frame_land _ _

theorem frame_scan : s.scan.frame = s.frame := frame_scan_go _ _

theorem goesTo_scan (s : Scanner) : s.GoesTo s.scan := ⟨frame_scan, fun h => (scan_passes h).toMovesTo⟩

theorem goesTo_scanDoc (s : Scanner) : s.GoesTo s.scanDoc :=
  ⟨frame_land _ _, fun h => (scanDoc_passes h).toMovesTo⟩

theorem goesTo_rescanGreater (s : Scanner) : s.GoesTo s.rescanGreater := by
  refine ⟨?_, rescanGreater_moves⟩
  rw [rescanGreater]
  split
  · split <;> rfl
  · rfl

theorem goesTo_rescanLess (s : Scanner) : s.GoesTo s.rescanLess := by
  refine ⟨?_, rescanLess_moves⟩
  rw [rescanLess]
  split <;> rfl

theorem goesTo_rescanSlash (s : Scanner) : s.GoesTo s.rescanSlash := by
  refine ⟨?_, rescanSlash_moves⟩
  rw [rescanSlash]
  split
  · dsimp only
    split
    · rfl
    · exact frame_report _
  · rfl

theorem goesTo_scanElementContent (overLines : Bool) (s : Scanner) : s.GoesTo (s.scanElementContent overLines) :=
  ⟨frame_land _ _, fun h => (scanElementContent_passes h overLines).toMovesTo⟩

theorem goesTo_rescanElementContent (overLines : Bool) (s : Scanner) :
    s.GoesTo (s.rescanElementContent overLines) :=
  ⟨frame_land _ _, fun h => rescanElementContent_moves h overLines⟩

theorem goesTo_scanElementName (s : Scanner) : s.GoesTo s.scanElementName := by
  refine ⟨?_, scanElementName_moves⟩
  rw [scanElementName]
  split <;> rfl

theorem goesTo_scanAttributeValue (s : Scanner) : s.GoesTo s.scanAttributeValue := by
  refine ⟨?_, fun h => (scanAttributeValue_passes h).toMovesTo⟩
  rw [scanAttributeValue]
  dsimp only
  split
  · exact frame_land _ _
  · exact frame_scan

theorem GoesTo.of_same (place : t.toTokenState = s.toTokenState) (frame : t.frame = s.frame)
    (stop : t.stop = s.stop) : s.GoesTo t where
  frame
  moves h := by
    obtain ⟨text, skips⟩ := Frame.mk.inj frame
    exact ⟨h.same place text stop skips, text, stop, place ▸ Nat.le_refl _, fun _ => place ▸ id,
      fun whole => whole.same place text stop⟩

theorem goesTo_forgetErrors (s : Scanner) : s.GoesTo s.forgetErrors := .of_same rfl rfl rfl

theorem goesTo_enterDocType (s : Scanner) : s.GoesTo s.enterDocType := .of_same rfl rfl rfl

theorem goesTo_leaveDocType (s : Scanner) : s.GoesTo s.leaveDocType := .of_same rfl rfl rfl

end Scanner

/-! ## Ways of a reading -/

variable {α β : Type}

theorem Parse.bind_run (p : Parse α) (f : α → Parse β) (g : Productions) (s : ParserState) :
    (p >>= f) g s = f (p g s).1 g (p g s).2 := rfl

/-- What a loop does with a round: it ends, or it goes on unless the round did not move on. -/
theorem Parse.Rounds.run_succ (f : α → Parse (ForInStep α)) (left : Nat) (x : α) (g : Productions)
    (s : ParserState) :
    Parse.Rounds.run f (left + 1) x g s =
      (match (f x g s).1 with
      | .done y => (y, (f x g s).2)
      | .yield y =>
        (if (f x g s).2.scanner.fullStart ≤ s.scanner.fullStart then do
            Parse.stall
            return y
          else Parse.Rounds.run f left y : Parse α) g (f x g s).2) := by
  change (match (f x g s).1 with
    | .done y => Pure.pure y
    | .yield y => _ : Parse α) g (f x g s).2 = _
  generalize f x g s = r
  rcases r with ⟨_ | _, t⟩ <;> rfl

def ParserState.takenBack (t s : ParserState) : ParserState :=
  { t with
    scanner := t.scanner.restore s.scanner.save
    diagnostics := t.diagnostics.truncate s.diagnostics.size
    errorPending := s.errorPending
    counts := s.counts }

/-- What a reading finds set up around it. -/
structure ParserState.Context where
  fileName : String
  target : ScriptTarget
  scriptKind : ScriptKind
  flags : NodeFlags
  openLists : List ListContext
  topLevel : Bool
  depth : Nat

namespace ParserState

def context (s : ParserState) : Context :=
  ⟨s.fileName, s.target, s.scriptKind, s.contextFlags, s.openLists, s.topLevel, s.depth⟩

def withContext (s : ParserState) (c : Context) : ParserState :=
  { s with
    fileName := c.fileName
    target := c.target
    scriptKind := c.scriptKind
    contextFlags := c.flags
    openLists := c.openLists
    topLevel := c.topLevel
    depth := c.depth }

end ParserState

/-- What is noted beside the scanner and the context changed, and no names and no diagnostics were lost. -/
structure ParserState.Notes (s t : ParserState) : Prop where
  context : t.context = s.context
  scanner : t.scanner = s.scanner
  cursor : t.cursor = s.cursor
  nextId : t.nextId = s.nextId
  names : s.identifiers ⊆ t.identifiers
  diagnostics : s.diagnostics.Grows t.diagnostics
  docDiagnostics : t.docDiagnostics = s.docDiagnostics
  stalled : s.stalled = true → t.stalled = true

/-- Holds between the states before and after each step that makes no node. -/
class Motion (R : ParserState → ParserState → Prop) : Prop where
  refl : ∀ s, R s s
  trans : ∀ {s t u}, R s t → R t u → R s u
  notes : ∀ {s t : ParserState}, s.Notes t → R s t
  goes : ∀ {s : ParserState} {scanner : Scanner}, s.scanner.GoesTo scanner → R s { s with scanner }
  returns : ∀ {s t : ParserState}, R s t → R s (t.takenBack s)
  asks : ∀ {s : ParserState} {c : ElementCursor} (pos : Nat), s.cursor = some c →
    R s { s with cursor := some (c.nodeAt pos).2 }

class FreeMotion (R : ParserState → ParserState → Prop) : Prop extends Motion R where
  turns : ∀ (s : ParserState) (c : ParserState.Context), R s (s.withContext c)

/-- A reading that leads from each state to one in the relation. -/
class Goes (R : ParserState → ParserState → Prop) (p : Parse α) : Prop where
  leads : ∀ g s, R s (p g s).2

theorem Parse.attempt_some {p : Parse (Option α)} {g : Productions} {s : ParserState} {x : α}
    (h : (p g s).1 = some x) : attempt p g s = p g s := by
  change (if (p g s).1.isNone then _ else _ : Parse (Option α)) g (p g s).2 = _
  rw [h]
  exact Prod.ext h.symm rfl

theorem Parse.attempt_none {p : Parse (Option α)} {g : Productions} {s : ParserState}
    (h : (p g s).1 = none) : attempt p g s = (none, (p g s).2.takenBack s) := by
  change (if (p g s).1.isNone then _ else _ : Parse (Option α)) g (p g s).2 = _
  rw [h]
  rfl

namespace Goes

variable {R : ParserState → ParserState → Prop} [Motion R] {p : Parse α} {f : α → Parse β}

theorem of_look (look : ∀ g s, (p g s).2 = s) : Goes R p :=
  ⟨fun g s => by rw [look]; exact Motion.refl s⟩

instance pure (x : α) : Goes R (Pure.pure x : Parse α) := .of_look fun _ _ => rfl

theorem seq (first : Goes R p) (rest : ∀ x, Goes R (f x)) : Goes R (p >>= f) where
  leads g s := Motion.trans (first.leads g s) ((rest _).leads g _)

instance bind [first : Goes R p] [rest : ∀ x, Goes R (f x)] : Goes R (p >>= f) := .seq first rest

omit [Motion R] in
theorem choose {c : Prop} {_ : Decidable c} {p q : Parse α} (yes : c → Goes R p) (no : ¬ c → Goes R q) :
    Goes R (if c then p else q) := by
  split
  · exact yes ‹_›
  · exact no ‹_›

instance ite (c : Prop) {_ : Decidable c} (p q : Parse α) [yes : Goes R p] [no : Goes R q] :
    Goes R (if c then p else q) :=
  .choose (fun _ => yes) fun _ => no

instance map (h : α → β) [r : Goes R p] : Goes R (h <$> p) := ⟨r.leads⟩

instance or (p q : Parse Bool) [first : Goes R p] [rest : Goes R q] : Goes R (p <||> q) := by
  refine .seq first fun x => ?_
  cases x with
  | true => exact pure true
  | false => exact rest

instance and (p q : Parse Bool) [first : Goes R p] [rest : Goes R q] : Goes R (p <&&> q) := by
  refine .seq first fun x => ?_
  cases x with
  | true => exact rest
  | false => exact pure false

theorem notes {f : ParserState → ParserState} (notes : ∀ s : ParserState, s.Notes (f s)) :
    Goes R (modify f : Parse Unit) :=
  ⟨fun _ s => Motion.notes (notes s)⟩

omit [Motion R] in
theorem turns [FreeMotion R] {c : ParserState → ParserState.Context} :
    Goes R (modify fun s => s.withContext (c s) : Parse Unit) :=
  ⟨fun _ s => FreeMotion.turns s (c s)⟩

theorem scanner {f : Scanner → Scanner} (goes : ∀ s : Scanner, s.GoesTo (f s)) :
    Goes R (Parse.modifyScanner f) :=
  ⟨fun _ s => Motion.goes (goes s.scanner)⟩

/-! ## Loops -/

theorem run {f : α → Parse (ForInStep α)} (body : ∀ x, Goes R (f x)) (left : Nat) (x : α) :
    Goes R (Parse.Rounds.run f left x) := by
  have stalled (x : α) : Goes R (Parse.stall >>= fun _ => (Pure.pure x : Parse α)) :=
    .seq (.notes fun _ => ⟨rfl, rfl, rfl, rfl, fun _ => id, .refl _, rfl, fun _ => rfl⟩) fun _ => pure x
  have looks : Goes R Parse.nodePos := .of_look fun _ _ => rfl
  induction left generalizing x with
  | zero => exact stalled x
  | succ left ih =>
    unfold Parse.Rounds.run
    refine .seq looks fun start => .seq (body x) fun step => ?_
    cases step with
    | done y => exact pure y
    | yield y => exact .seq looks fun stop => .choose (fun _ => stalled y) fun _ => ih y

theorem loop {f : Unit → α → Parse (ForInStep α)} {x : α} (body : ∀ x, Goes R (f () x)) :
    Goes R (forIn Parse.Rounds.rounds x f) where
  leads g s := (run body _ x).leads g s

instance rounds (f : Unit → α → Parse (ForInStep α)) (x : α) [body : ∀ x, Goes R (f () x)] :
    Goes R (forIn Parse.Rounds.rounds x f) :=
  .loop body

instance loop_over {ι : Type} (values : List ι) (f : ι → α → Parse (ForInStep α)) (x : α)
    [body : ∀ i x, Goes R (f i x)] : Goes R (forIn values x f) := by
  induction values generalizing x with
  | nil => exact pure x
  | cons i rest ih =>
    rw [List.forIn_cons]
    refine .seq (body i x) fun step => ?_
    cases step with
    | done y => exact pure y
    | yield y => exact ih y

/-! ## Going back -/

instance lookAhead (p : Parse α) [r : Goes R p] : Goes R (Parse.lookAhead p) where
  leads g s := Motion.returns (r.leads g s)

instance attempt (p : Parse (Option α)) [r : Goes R p] : Goes R (Parse.attempt p) where
  leads g s := by
    cases found : (p g s).1 with
    | none =>
      rw [Parse.attempt_none found]
      exact Motion.returns (r.leads g s)
    | some x =>
      rw [Parse.attempt_some found]
      exact r.leads g s

end Goes

/-! ## Readings from certain states to others -/

variable {g : Productions}

/-- From a state such as one property tells, a reading comes to a value and a state such as another tells. -/
def Leads (g : Productions) (P : ParserState → Prop) (p : Parse α) (J : α → ParserState → Prop) : Prop :=
  ∀ ⦃s : ParserState⦄, P s → J (p g s).1 (p g s).2

abbrev Anywhere (_ : ParserState) : Prop := True

namespace Leads

variable {P P' : ParserState → Prop} {p : Parse α} {f : α → Parse β} {J J' : α → ParserState → Prop}
  {K : β → ParserState → Prop}

theorem seq (first : Leads g P p J) (rest : ∀ x, Leads g (J x) (f x) K) : Leads g P (p >>= f) K :=
  fun _ holds => rest _ (first holds)

theorem rest (h : ∀ x, Leads g Anywhere (f x) K) : Leads g P (p >>= f) K := fun _ _ => h _ trivial

theorem look (same : ∀ s, (p g s).2 = s) (h : ∀ x, Leads g P (f x) K) : Leads g P (p >>= f) K :=
  fun s holds => h _ ((same s).symm ▸ holds)

theorem pure {x : α} (holds : ∀ s, P s → J x s) : Leads g P (Pure.pure x : Parse α) J := holds

theorem choose {c : Prop} {_ : Decidable c} {p q : Parse α} (yes : c → Leads g P p J) (no : ¬ c → Leads g P q J) :
    Leads g P (if c then p else q) J := by
  split
  · exact yes ‹_›
  · exact no ‹_›

theorem finish {Q : Node → Prop} {kind : Kind} {pos : Nat} {form : Form}
    (holds : ∀ id stop flags, Q (.ofForm ⟨kind, id, pos, stop, flags, false⟩ form)) :
    Leads g P (Parse.finish kind pos form) (fun n _ => Q n) :=
  fun _ _ => holds ..

def Round (I J : α → ParserState → Prop) : ForInStep α → ParserState → Prop
  | .done x => J x
  | .yield x => I x

/-- What rounds keep holds where they end, or where the loop stalls. -/
theorem loop {I : α → ParserState → Prop} {f : Unit → α → Parse (ForInStep α)} {x : α}
    (body : ∀ x, Leads g (I x) (f () x) (Round I J)) (stalls : ∀ x s, I x s → J x { s with stalled := true }) :
    Leads g (I x) (forIn Parse.Rounds.rounds x f) J := by
  have run (left : Nat) (x : α) : Leads g (I x) (Parse.Rounds.run (f ()) left x) J := by
    induction left generalizing x with
    | zero => exact fun s holds => stalls x s holds
    | succ left ih =>
      intro s holds
      have round := body x holds
      rw [Parse.Rounds.run_succ]
      generalize (f () x g s).1 = step at round
      cases step with
      | done y => exact round
      | yield y =>
        dsimp only
        split
        · exact stalls y _ round
        · exact ih y round
  exact fun s holds => run _ x holds

end Leads

end ScriptFrontend
