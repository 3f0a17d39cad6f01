import ScriptFrontend.Grammar.Lists
import ScriptFrontend.Proofs.Motion.State
import ScriptFrontend.Proofs.Reading.State
import ScriptFrontend.Proofs.Tree.FlagSet

/-!
# Speculation and context

A speculative reading goes back to where it began; a reading inside of a changed context puts the
context right.
-/

namespace ScriptFrontend

open Parse

namespace FlagSet

variable {owner : FlagOwner} (c flags : FlagSet owner)

/-- Taking flags out again that were put in gives back the set. -/
theorem set_added : (c.set (flags.without c) true).set (flags.without c) false = c := by
  apply ext_holds
  intro i
  simp only [holds_set, holds_without]
  cases c.holds i <;> cases flags.holds i <;> rfl

/-- Putting flags in again that were taken out gives back the set. -/
theorem set_removed : (c.set (flags &&& c) false).set (flags &&& c) true = c := by
  apply ext_holds
  intro i
  simp only [holds_set, holds_and]
  cases c.holds i <;> cases flags.holds i <;> rfl

end FlagSet

theorem NodeFlags.set_signature (c : NodeFlags) (isGenerator isAsync : Bool) :
    (((c.set yieldContext isGenerator).set awaitContext isAsync).set yieldContext
      (c.meets yieldContext)).set awaitContext (c.meets awaitContext) = c := by
  apply FlagSet.ext_holds
  intro i
  simp only [yieldContext, awaitContext, FlagSet.holds_set, FlagSet.meets_flag, FlagSet.holds_flag,
    UInt32.reduceLT, UInt32.reduceToNat]
  by_cases h : i = 15 <;> by_cases h' : i = 17 <;> simp [h, h']

variable {D : Discipline} {α : Type} {m : World D}

/-! ## Going back -/

theorem World.At.takenBack {w : World D} {s t : ParserState} (h : m.At s) (later : w.At t)
    (follows : s.Follows t) : m.At (t.takenBack s) ∧ s.Follows (t.takenBack s) := by
  have same := Diagnostic.Collection.truncate_items follows.diagnostics
  have text : t.scanner.text = s.scanner.text := later.text.trans h.text.symm
  refine ⟨⟨⟨?_, later.text, later.cursor, later.going⟩, h.offset, h.token⟩,
    { follows with
      diagnostics := same.symm ▸ List.prefix_rfl
      distinct := fun distinct => (follows.distinct distinct).truncate _
      whole := fun whole => ?_ }⟩
  · exact Scanner.restore_placed h.placed later.placed.fits later.placed.skips text follows.stop _
  · exact whole.restore text (follows.whole whole).stop _

instance (p : Parse α) [r : Runs D m p] : Peeks D m (lookAhead p) where
  holds link _ stands :=
    have ⟨_, _, later, follows, _⟩ := r.holds link stands
    stands.takenBack later follows

/-- What is the same again after a reading was taken back. Documentation and the facts about the file
that were noted in the reading are none of it. -/
structure ParserState.Regains (s t : ParserState) : Prop extends s.Keeps t where
  place : t.scanner.toTokenState = s.scanner.toTokenState
  items : t.diagnostics.items = s.diagnostics.items
  errorPending : t.errorPending = s.errorPending
  counts : t.counts = s.counts

theorem ParserState.Follows.regains {s t : ParserState} (follows : s.Follows t) :
    s.Regains (t.takenBack s) := by
  have same := Diagnostic.Collection.truncate_items follows.diagnostics
  exact ⟨{ follows.toKeeps with
    diagnostics := same.symm ▸ List.prefix_rfl
    distinct := fun distinct => (follows.distinct distinct).truncate _ }, rfl,
    Array.toList_inj.mp same, rfl, rfl⟩

theorem Parse.lookAhead_regains {p : Parse α} [r : Runs D m p] {g : Productions} (link : Linked D g)
    {s : ParserState} (stands : m.At s) : s.Regains (lookAhead p g s).2 :=
  have ⟨_, _, _, follows, _⟩ := r.holds link stands
  follows.regains

theorem Reads.attempt {p : Parse (Option α)} {Q : World D → Option α → Prop} (r : Reads D Q m p) :
    Reads D (fun w x => (x.isSome = true ∧ Q w x) ∨ (x = none ∧ w = m)) m (attempt p) where
  holds {g} link s stands := by
    obtain ⟨w, before, later, follows, holds⟩ := r.holds link stands
    cases found : (p g s).1 with
    | none =>
      rw [attempt_none found]
      have ⟨after, follows⟩ := stands.takenBack later follows
      exact ⟨m, .refl m, after, follows, .inr ⟨rfl, rfl⟩⟩
    | some x =>
      rw [attempt_some found]
      exact ⟨w, before, later, follows, .inl ⟨by rw [found]; rfl, holds⟩⟩

instance (p : Parse (Option α)) [r : Runs D m p] : Runs D m (attempt p) := r.attempt.any

instance (priority := 900) Advances.attempt (p : Parse (Option α))
    [r : Reads D (BehindIfSome m.offset) m p] : Advances D m (attempt p) :=
  ⟨r.attempt.imp fun _ _ _ h => h.imp_left fun ⟨found, past⟩ => ⟨found, past found⟩⟩

instance (p : Parse Bool) [r : Runs D m p] : Runs D m (attemptTest p) := by
  unfold attemptTest
  infer_instance

theorem Passes.attemptTest {p : Parse Bool}
    (r : Reads D (fun w x => x = true → m.offset < w.offset) m p) :
    Passes D m (attemptTest p) := by
  unfold Parse.attemptTest
  have inner : Reads D (BehindIfSome m.offset) m
      (do return if ← p then some () else none) :=
    .seq r fun w x past =>
      match x, past with
      | true, past => ⟨fun _ => .pure fun _ => past rfl⟩
      | false, _ => ⟨fun _ => .pure fun found => nomatch found⟩
  exact ⟨.seq_advances ⟨(Advances.attempt _).reads⟩ (Reads.passed_false) fun w _ => Reads.passed_true⟩

/-! ## Changed contexts -/

/-- A reading in a state that is changed before and put right afterwards. -/
theorem Reads.around {p p' : Parse α} {Q : World D → α → Prop} (enter : ParserState → ParserState)
    (leave : ParserState → ParserState → ParserState)
    (run : ∀ g s, p' g s = ((p g (enter s)).1, leave s (p g (enter s)).2)) (inner : Reads D Q m p)
    (entered : ∀ {s}, m.At s → m.At (enter s))
    (keeps : ∀ {s t}, (enter s).Follows t → s.Follows (leave s t))
    (left : ∀ {w : World D} {s t}, w.At t → w.At (leave s t)) : Reads D Q m p' where
  holds {g} link s stands := by
    obtain ⟨w, before, inner, follows, holds⟩ := inner.holds link (entered stands)
    rw [run]
    exact ⟨w, before, left inner, keeps follows, holds⟩

section

variable {p p' : Parse α} {Q : World D → α → Prop} (flags : NodeFlags) (isGenerator isAsync : Bool)
  (context : ListContext)

/-- A reading in a context that is made from the current one and put right afterwards. -/
theorem Reads.withContext (enter : NodeFlags → NodeFlags) (leave : NodeFlags → NodeFlags → NodeFlags)
    (back : ∀ c, leave c (enter c) = c)
    (run : ∀ g s, p' g s =
      let (x, t) := p g { s with contextFlags := enter s.contextFlags }
      (x, { t with contextFlags := leave s.contextFlags t.contextFlags }))
    (inner : Reads D Q m p) : Reads D Q m p' := by
  refine inner.around (fun s => { s with contextFlags := enter s.contextFlags })
    (fun s t => { t with contextFlags := leave s.contextFlags t.contextFlags }) run ?entered ?keeps
    ?left
  case entered => exact fun stands => stands.same rfl rfl rfl
  case keeps =>
    intro s t follows
    refine { follows with contextFlags := ?_ }
    dsimp only
    rw [follows.contextFlags, back]
  case left => exact fun stands => stands.same rfl rfl rfl

instance Reads.inside (p : Parse α) [inner : Reads D Q m p] : Reads D Q m (inside flags p) :=
  inner.withContext (fun c => c.set (flags.without c) true)
    (fun c d => d.set (flags.without c) false) (fun c => c.set_added flags) fun _ _ => rfl

instance (p : Parse α) [h : Steps D m p] : Steps D m (Parse.inside flags p) :=
  ⟨h.reads.inside flags⟩

instance Reads.outside (p : Parse α) [inner : Reads D Q m p] : Reads D Q m (outside flags p) :=
  inner.withContext (fun c => c.set (flags &&& c) false)
    (fun c d => d.set (flags &&& c) true) (fun c => c.set_removed flags) fun _ _ => rfl

instance Reads.inSignature (p : Parse α) [inner : Reads D Q m p] :
    Reads D Q m (inSignature isGenerator isAsync p) :=
  inner.withContext
    (fun c => (c.set NodeFlags.yieldContext isGenerator).set NodeFlags.awaitContext isAsync)
    (fun c d => (d.set NodeFlags.yieldContext (c.meets NodeFlags.yieldContext)).set
      NodeFlags.awaitContext (c.meets NodeFlags.awaitContext))
    (fun c => c.set_signature isGenerator isAsync) fun _ _ => rfl

instance Reads.beneathTop (p : Parse α) [inner : Reads D Q m p] : Reads D Q m (beneathTop p) := by
  refine inner.around (fun s => { s with topLevel := false })
    (fun s t => { t with topLevel := s.topLevel }) (fun _ _ => rfl) ?entered ?keeps ?left
  case entered => exact fun stands => stands.same rfl rfl rfl
  case keeps => exact fun follows => { follows with topLevel := rfl }
  case left => exact fun stands => stands.same rfl rfl rfl

instance Reads.withOpenList (p : Parse α) [inner : Reads D Q m p] :
    Reads D Q m (withOpenList context p) := by
  refine inner.around (fun s => { s with openLists := context :: s.openLists })
    (fun s t => { t with openLists := s.openLists }) (fun _ _ => rfl) ?entered ?keeps ?left
  case entered => exact fun stands => stands.same rfl rfl rfl
  case keeps => exact fun follows => { follows with openLists := rfl }
  case left => exact fun stands => stands.same rfl rfl rfl

/-! ## Nesting -/

theorem Reads.nested (inner : Reads D Q m p) :
    Reads D Q m
      (do
        modify fun s => { s with depth := s.depth + 1 }
        let result ← p
        modify fun s => { s with depth := s.depth - 1 }
        return result) := by
  refine inner.around (fun s => { s with depth := s.depth + 1 })
    (fun _ t => { t with depth := t.depth - 1 }) (fun _ _ => rfl) ?entered ?keeps ?left
  case entered => exact fun stands => stands.same rfl rfl rfl
  case keeps =>
    intro s t follows
    refine { follows with depth := ?_ }
    change t.depth - 1 = s.depth
    rw [follows.depth]
    rfl
  case left => exact fun stands => stands.same rfl rfl rfl

instance (tooDeep p : Parse α) [shallow : Runs D m tooDeep] [inner : Runs D m p] :
    Runs D m (deeper tooDeep p) := by
  unfold deeper
  refine .seq_peeks inferInstance fun s => .choose (fun _ => ?_) fun _ => inner.nested
  exact .seq_peeks inferInstance fun _ => shallow

end

/-! ## Calls -/

/-- A nonterminal that may begin with any token and promises nothing. -/
@[reducible]
def Nonterminal.isPlain : Nonterminal → Bool
  | .element _ | .docComment .. | .docTag .. | .docChild .. => false
  | _ => true

section

variable (n : Nonterminal)

theorem Reads.call? [allows : m.Allows n] (nested : ∀ start stop, n ≠ .docComment start stop)
    (opens : ∀ k ∈ n.opening?, m.token = k) : Reads D (n.Promises m) m (Parse.call? n) :=
  ⟨fun link => link.call n nested m allows opens⟩

instance [m.Allows n] [plain : Holds n.isPlain] : Runs D m (Parse.call? n) := by
  refine (Reads.call? n ?_ ?_).any
  · rintro start stop rfl
    cases plain.eq
  · cases n
    case element => cases plain.eq
    case docTag => cases plain.eq
    all_goals exact fun k mem => nomatch mem

instance [m.Allows n] [Holds n.isPlain] : Runs D m (call n) := by
  unfold call
  infer_instance

theorem Steps.call (r : Reads D (fun w _ => m.offset < w.offset) m (Parse.call? n)) :
    Steps D m (Parse.call n) := by
  unfold Parse.call
  exact ⟨.seq r fun w x past => .seq_nodePos ⟨fun _ => .pure past⟩⟩

instance (place : ElementPlace) [m.Allows (.element place)] [shows : m.Shows .lessThanToken] :
    Steps D m (call (.element place)) :=
  .call _ (Reads.call? (.element place) (fun _ _ same => nomatch same) fun _ mem => by
    cases mem
    exact shows.token)

instance (earlier : List Node) (indent : Nat) [m.Allows (.docTag earlier indent)]
    [shows : m.Shows .atToken] : Steps D m (call (.docTag earlier indent)) :=
  .call _ (Reads.call? (.docTag earlier indent) (fun _ _ same => nomatch same) fun _ mem => by
    cases mem
    exact shows.token)

instance (targets : DocTargets) (indent : Nat) (parent : Option Node)
    [m.Allows (.docChild targets indent parent)] :
    Reads D (BehindIfSome m.offset) m (Parse.call? (.docChild targets indent parent)) :=
  Reads.call? (.docChild targets indent parent) (fun _ _ same => nomatch same)
    fun _ mem => nomatch mem

end

end ScriptFrontend
