import ScriptFrontend.Grammar.Element
import ScriptFrontend.Grammar.Production
import ScriptFrontend.Proofs.Reading.Access
import ScriptFrontend.Proofs.Reading.DocTag
import ScriptFrontend.Proofs.Reading.Name
import ScriptFrontend.Proofs.Reading.Statement

/-!
# Reading with productions that call each other

A call gets closer to the end of the text or down to a lower rank. So the productions that call each
other at most so many levels deep, as there are places in the text times ranks, never run out of
levels; each of them reads what its nonterminal promises. Of an element the opening tag comes first, and
each of its children passes a token: text, the brace of an expression, or the bracket of an element.
-/

namespace ScriptFrontend

open Parse

set_option synthInstance.maxSize 4096

variable {D : Discipline} {m : World D}

/-! ## Tokens -/

instance : Scans D m nextElementToken := by
  unfold nextElementToken
  exact ⟨inferInstance⟩

instance [m.Live] : Skips D m nextElementToken := by
  unfold nextElementToken
  exact .of_step inferInstance fun w => ⟨inferInstance⟩

instance : Scans D m rescanElementToken := by
  unfold rescanElementToken
  exact ⟨inferInstance⟩

instance : Runs D m skipElementToken := by
  unfold skipElementToken
  infer_instance

instance [m.Live] : Steps D m skipElementToken := by
  unfold skipElementToken
  exact ⟨inferInstance⟩

instance (toTokens : Bool) : Runs D m (leaveTag toTokens) := by
  unfold leaveTag
  infer_instance

/-! ## Names and attributes -/

instance : Runs D m hyphenatedName := by
  unfold hyphenatedName
  infer_instance

instance : Runs D m simpleTagName := by
  unfold simpleTagName
  infer_instance

instance : Runs D m tagName := by
  unfold tagName
  dsimp only
  infer_instance

instance (isValue : Bool) : Reads D (BehindIfSome m.offset) m (bracedExpression? isValue) := by
  unfold bracedExpression?
  dsimp only
  infer_instance

instance : Runs D m attributeValue? := by
  have value (w : World D) [w.Free] : Runs D w (do
      match ← token with
      | .stringLiteral => some <$> literal
      | .openBraceToken => bracedExpression? true
      | .lessThanToken => some <$> call (.element { inExpression := true })
      | _ =>
        errorHere .braceOrElementExpected []
        return none) := by
    refine .seq_token ?_
    split
    case h_3 =>
      have : w.Shows .lessThanToken := ⟨‹_›⟩
      infer_instance
    case h_2 => exact Reads.any (R := BehindIfSome w.offset) inferInstance
    all_goals infer_instance
  unfold attributeValue?
  infer_instance

instance : Runs D m tagAttribute := by
  unfold tagAttribute
  infer_instance

instance : Runs D m tagAttributes := by
  unfold tagAttributes
  infer_instance

/-! ## Tags -/

instance (inExpression : Bool) [m.Shows .lessThanToken] : Steps D m (openingTag inExpression) := by
  unfold openingTag
  dsimp only
  exact ⟨inferInstance⟩

instance (opening : Node) (inExpression : Bool) : Runs D m (closingTag opening inExpression) := by
  unfold closingTag
  infer_instance

instance (inExpression : Bool) : Runs D m (closingFragment inExpression) := by
  unfold closingFragment
  infer_instance

/-! ## Children -/

instance [m.Live] : Steps D m elementText := by
  unfold elementText
  exact ⟨inferInstance⟩

instance (opening : Node) : Peeks D m (errorNotClosed opening) := by
  unfold errorNotClosed
  split
  · infer_instance
  · split <;> infer_instance

instance (opening : Node) [m.Free] :
    Reads D (BehindIfSome m.offset) m (child? opening m.token) := by
  unfold child?
  split
  case h_2 | h_3 =>
    have : m.Live := .of_token ‹_›
    infer_instance
  case h_5 =>
    have : m.Shows .lessThanToken := ⟨‹_›⟩
    infer_instance
  all_goals infer_instance

instance (opening : Node) [m.Free] : Runs D m (children opening) := by
  unfold children
  dsimp only
  infer_instance

/-! ## Elements -/

instance (opening : Node) (inner : NodeList) : Peeks D m (withoutTakenTag opening inner) := by
  unfold withoutTakenTag
  infer_instance

instance (opening closing : Node) (parentTag : Option Node) :
    Peeks D m (errorClosingMismatch opening closing parentTag) := by
  unfold errorClosingMismatch
  dsimp only
  refine @Peeks.ite _ _ _ _ _ _ _ inferInstance (@Peeks.bind _ _ _ _ _ _ inferInstance fun source => ?_)
  split <;> infer_instance

instance (pos : Nat) (opening : Node) (place : ElementPlace) [m.Free] :
    Runs D m (elementRest pos opening place) := by
  unfold elementRest
  refine @Reads.bind _ _ _ _ _ _ _ inferInstance fun w l => ?_
  split <;> infer_instance

instance (place : ElementPlace) [m.Shows .lessThanToken] : Steps D m (oneElement place) := by
  unfold oneElement
  refine ⟨@Reads.bind_nodePos _ _ _ _ _ (.seq_steps inferInstance fun w opening => ?_)⟩
  split <;> infer_instance

instance (place : ElementPlace) [m.Shows .lessThanToken] : Steps D m (element place) := by
  unfold element
  dsimp only
  refine ⟨@Reads.bind_nodePos _ _ _ _ _ (.seq_steps inferInstance fun w n => .ask_token (fun v => ?_)
    fun _ => ?_)⟩
  · infer_instance
  · rw [Bool.and_false, if_neg Bool.false_ne_true]
    infer_instance

/-! ## One production -/

theorem World.Allows.of_rank {n : Nonterminal} (floor : D.floor ≤ m.offset) (lower : n.rank < D.rank) :
    m.Allows n := ⟨by
  unfold Discipline.Covers
  omega⟩

theorem Reads.production (n : Nonterminal)
    (nested : ∀ start stop, n ≠ .docComment start stop) (opens : ∀ k ∈ n.opening?, m.token = k)
    (floor : D.floor ≤ m.offset) (rank : D.rank = n.rank) :
    Reads D (n.Promises m) m n.production := by
  have below {l : Nonterminal} (lower : l.rank < n.rank) : m.Allows l :=
    .of_rank floor (rank ▸ lower)
  cases n with
  | docComment start stop => exact absurd rfl (nested start stop)
  | type =>
    have : m.Allows .operatorType := below (by decide)
    exact inferInstanceAs (Runs D m (some <$> wholeType))
  | operatorType =>
    have : m.Allows .simpleType := below (by decide)
    exact inferInstanceAs (Runs D m (some <$> operatorType))
  | simpleType => exact inferInstanceAs (Runs D m (some <$> simpleType))
  | assignment allowReturnType =>
    have : m.Allows (.binary .comma) := below (show 5 < 6 by decide)
    exact inferInstanceAs (Runs D m (some <$> assignmentAtDepth allowReturnType))
  | unary =>
    have : m.Allows .simpleUnary := below (by decide)
    have : m.Allows .leftHandSide := below (by decide)
    have : m.Allows (.element { inExpression := true }) := below (by decide)
    exact inferInstanceAs (Runs D m (some <$> unary))
  | simpleUnary =>
    have : m.Allows .leftHandSide := below (by decide)
    have (place : ElementPlace) : m.Allows (.element place) := below (show 1 < 3 by decide)
    exact inferInstanceAs (Runs D m (some <$> simpleUnary))
  | binary level =>
    have : m.Allows .unary := below (show 4 < 5 by decide)
    exact inferInstanceAs (Runs D m (some <$> binary level))
  | primary => exact inferInstanceAs (Runs D m (some <$> primary))
  | leftHandSide =>
    have : m.Allows .primary := below (by decide)
    exact inferInstanceAs (Runs D m (some <$> leftHandSide))
  | decorator =>
    have : m.Allows .leftHandSide := below (by decide)
    exact inferInstanceAs (Runs D m (some <$> decoratorExpression))
  | binding privateFault => exact inferInstanceAs (Runs D m (some <$> nameOrPattern privateFault))
  | statement =>
    have : m.Allows (.assignment true) := below (by decide)
    exact inferInstanceAs (Runs D m (some <$> statementAtDepth))
  | element place =>
    have : m.Shows .lessThanToken := ⟨opens _ rfl⟩
    exact .seq_steps (f := fun x => pure (some x)) inferInstance fun w x => ⟨fun _ => .pure w.past⟩
  | innerNamespace flags => exact inferInstanceAs (Runs D m (some <$> innerNamespace flags))
  | docTag earlier indent =>
    have : m.Shows .atToken := ⟨opens _ rfl⟩
    exact .seq_steps (f := fun x => pure (some x)) inferInstance fun w x => ⟨fun _ => .pure w.past⟩
  | docChild targets indent parent =>
    exact inferInstanceAs (Reads D (BehindIfSome m.offset) m (docChild targets indent parent))

/-! ## Calls up to a depth -/

namespace Discipline

def within (D : Discipline) (floor rank : Nat) : Discipline := { D with floor := floor, rank := rank }

def calls (D : Discipline) : Nat := 8 * (D.size - D.floor) + D.rank

theorem Covers.calls_lt {offset rank : Nat} (h : D.Covers offset rank) (inside : offset ≤ D.size)
    (le : rank ≤ 7) : (D.within offset rank).calls < D.calls := by
  change 8 * (D.size - offset) + rank < 8 * (D.size - D.floor) + D.rank
  unfold Covers at h
  omega

end Discipline

def World.within (m : World D) (rank : Nat) (pos : 0 < rank) : World (D.within m.offset rank) :=
  ⟨m.offset, m.token, m.inside, .inr ⟨rfl, pos⟩⟩

theorem ReadsIn.called {n : Nonterminal} {g : Productions} {p : Parse (Option Node)} {rank : Nat}
    {pos : 0 < rank} (h : ReadsIn g (n.Promises (m.within rank pos)) (m.within rank pos) p) :
    ReadsIn g (n.Promises m) m p := by
  intro s stands
  obtain ⟨w, before, after, follows, promised⟩ := h ⟨⟨stands.placed, stands.text, stands.cursor,
    stands.going⟩, stands.offset, stands.token⟩
  have le : m.offset ≤ w.offset := before.offset
  refine ⟨⟨w.offset, w.token, w.inside, m.above.mono le⟩, ⟨le, before.live⟩,
    ⟨⟨after.placed, after.text, after.cursor, after.going⟩, after.offset, after.token⟩, follows, ?_⟩
  cases n <;> exact promised

/-- Productions whose calls may be nested deep enough read what their nonterminals promise. -/
theorem Productions.linked {depth : Nat} {D : Discipline} (enough : D.calls ≤ depth) :
    Linked D (upTo depth) := by
  induction depth generalizing D with
  | zero =>
    have none_called {offset rank : Nat} (covers : D.Covers offset rank) (inside : offset ≤ D.size)
        (le : rank ≤ 7) : False := by
      have := covers.calls_lt inside le
      omega
    exact ⟨fun n _ m allows _ => (none_called allows.covers m.inside n.rank_le).elim,
      fun order inside above => (none_called above (Nat.le_trans order inside) (by decide)).elim⟩
  | succ depth ih =>
    have called {offset rank : Nat} (covers : D.Covers offset rank) (inside : offset ≤ D.size)
        (le : rank ≤ 7) : Linked (D.within offset rank) (upTo depth) := by
      have := covers.calls_lt inside le
      exact ih (by omega)
    refine ⟨fun n nested m allows opens => ?_, fun {start stop} order inside above s stands => ?_⟩
    · have pos : 0 < n.rank := n.rank_pos nested
      have link : Linked (D.within m.offset n.rank) (upTo depth) :=
        called allows.covers m.inside n.rank_le
      have read : Reads (D.within m.offset n.rank) (n.Promises (m.within n.rank pos))
          (m.within n.rank pos) n.production := .production n nested opens (Nat.le_refl _) rfl
      exact (read.holds link).called
    · have link : Linked (D.within start 0) (upTo depth) :=
        called above (Nat.le_trans order inside) (by decide)
      have within : (D.within start 0).Stands s :=
        ⟨stands.placed, stands.text, stands.cursor, stands.going⟩
      obtain ⟨after, keeps⟩ := commentAt_stands link (Nat.le_refl start) inside within
      exact ⟨⟨after.placed, after.text, after.cursor, after.going⟩, keeps⟩

/-! ## Whole texts -/

namespace Discipline

class IsWhole (D : Discipline) : Prop where
  floor : D.floor = 0
  rank : D.rank = 8

instance [whole : D.IsWhole] : m.Free := ⟨by
  have := whole.floor
  have := whole.rank
  unfold Covers
  omega⟩

/-- Calls are never nested deeper than the levels that there are for a text. -/
theorem linked_of_whole [whole : D.IsWhole] : Linked D (.upTo (Productions.depthFor D.text)) := by
  apply Productions.linked
  rw [calls, whole.floor, whole.rank, Productions.depthFor, size]
  omega

end Discipline

end ScriptFrontend
