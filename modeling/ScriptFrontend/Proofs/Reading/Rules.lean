import ScriptFrontend.Proofs.Motion.Rules
import ScriptFrontend.Proofs.Reading.Discipline

/-!
# Rules of reading

From a world on, a reading comes to a later world and to a value; both may have to meet a condition.
Some readings do more: they only look, they pass a token, or they pass one if they have a value.
There is a rule for each way to put readings together, so that what holds of the steps holds of the
productions.

A loop ends because each of its rounds moves on: a round that goes on has to come behind the offset
where it began.
-/

namespace ScriptFrontend

variable {D : Discipline} {α β γ : Type}

/-- The reading comes from the world to a later one, and to a value that meets a condition. -/
def ReadsIn (g : Productions) (Q : World D → α → Prop) (m : World D) (p : Parse α) : Prop :=
  ∀ ⦃s : ParserState⦄, m.At s → ∃ w : World D, m.Before w ∧ w.At (p g s).2 ∧
    s.Follows (p g s).2 ∧ Q w (p g s).1

def ReadsFrom (g : Productions) (P : ParserState → Prop) (Q : World D → α → Prop) (m : World D)
    (p : Parse α) : Prop :=
  ∀ ⦃s : ParserState⦄, m.At s → P s → ∃ w : World D, m.Before w ∧ w.At (p g s).2 ∧
    s.Follows (p g s).2 ∧ Q w (p g s).1

/-! ## Conditions on where a reading comes to -/

def Any : World D → α → Prop := fun _ _ => True

def Behind (i : Nat) : World D → α → Prop := fun w _ => i < w.offset

def AtLiberty : World D → α → Prop := fun w _ => w.Free

def AtLife : World D → α → Prop := fun w _ => w.Live

def IsToken : World D → Kind → Prop := fun w k => k = w.token

/-- Either a token was passed or nothing was, and the value tells which. -/
def Passed (m w : World D) (x : Bool) : Prop := (x = true ∧ m.offset < w.offset) ∨ (x = false ∧ w = m)

/-- Either there is a value and a token was passed, or there is none and nothing was. -/
def Advanced (m w : World D) (x : Option α) : Prop :=
  (x.isSome = true ∧ m.offset < w.offset) ∨ (x = none ∧ w = m)

def BehindIfSome (i : Nat) : World D → Option α → Prop := fun w x => x.isSome = true → i < w.offset

/-! ## Readings -/

/-- What a nonterminal promises besides coming to a later world. Loops rely on these to move on. -/
def Nonterminal.Promises (n : Nonterminal) (m w : World D) (x : Option Node) : Prop :=
  match n with
  | .element _ | .docTag .. => m.offset < w.offset
  | .docChild .. => x.isSome = true → m.offset < w.offset
  | _ => True

/-- What is behind the names of the nonterminals reads what they promise, where it may be called. A
documentation comment may be read wherever the scanner stands; it is left elsewhere. -/
structure Linked (D : Discipline) (g : Productions) : Prop where
  call : ∀ n : Nonterminal, (∀ start stop, n ≠ .docComment start stop) → ∀ m : World D,
    m.Allows n → (∀ k ∈ n.opening?, m.token = k) → ReadsIn g (n.Promises m) m (Parse.call? n)
  docComment : ∀ {start stop : Nat}, start ≤ stop → stop ≤ D.size → D.Covers start 0 →
    ∀ ⦃s : ParserState⦄, D.Stands s →
      D.Stands (Parse.call? (.docComment start stop) g s).2 ∧
      s.Keeps (Parse.call? (.docComment start stop) g s).2

/-- A reading from the world on comes to a later one, and to a value that meets a condition. -/
class Reads (D : Discipline) (Q : World D → α → Prop) (m : World D) (p : Parse α) : Prop where
  holds : ∀ {g}, Linked D g → ReadsIn g Q m p

abbrev Runs (D : Discipline) (m : World D) (p : Parse α) : Prop := Reads D Any m p

class Peeks (D : Discipline) (m : World D) (p : Parse α) : Prop where
  holds : ∀ {g}, Linked D g → ∀ ⦃s : ParserState⦄, m.At s → m.At (p g s).2 ∧ s.Follows (p g s).2

class Steps (D : Discipline) (m : World D) (p : Parse α) : Prop where
  reads : Reads D (Behind m.offset) m p

class Frees (D : Discipline) (m : World D) (p : Parse α) : Prop where
  reads : Reads D AtLiberty m p

/-- The text does not end where the reading comes to. -/
class Lives (D : Discipline) (m : World D) (p : Parse α) : Prop where
  reads : Reads D AtLife m p

/-- If the test comes out true then a token was passed, and else nothing was. -/
class Passes (D : Discipline) (m : World D) (p : Parse Bool) : Prop where
  reads : Reads D (Passed m) m p

/-- If there is a value then a token was passed, and else nothing was. -/
class Advances (D : Discipline) (m : World D) (p : Parse (Option α)) : Prop where
  reads : Reads D (Advanced m) m p

section

variable {m : World D} {g : Productions} {p : Parse α} {f : α → Parse β} {Q : World D → β → Prop}
  {R : World D → α → Prop}

theorem ReadsIn.imp {R' : World D → α → Prop} (h : ReadsIn g R m p)
    (sub : ∀ w x, m.Before w → R w x → R' w x) : ReadsIn g R' m p := by
  intro s stands
  obtain ⟨w, before, stands, follows, holds⟩ := h stands
  exact ⟨w, before, stands, follows, sub w _ before holds⟩

theorem ReadsIn.any (h : ReadsIn g R m p) : ReadsIn g Any m p := h.imp fun _ _ _ _ => trivial

theorem ReadsIn.pure {x : β} (h : Q m x) : ReadsIn g Q m (Pure.pure x) :=
  fun _ stands => ⟨m, .refl m, stands, .refl _, h⟩

theorem ReadsIn.bind (first : ReadsIn g R m p)
    (rest : ∀ (w : Later m) (x : α), R w.world x → ReadsIn g Q w.world (f x)) :
    ReadsIn g Q m (p >>= f) := by
  intro s stands
  obtain ⟨w, before, stands, follows, rel⟩ := first stands
  obtain ⟨v, before', stands, follows', holds⟩ := rest ⟨w, before⟩ _ rel stands
  exact ⟨v, before.trans before', stands, follows.trans follows', holds⟩

theorem Reads.imp {R' : World D → α → Prop} (h : Reads D R m p)
    (sub : ∀ w x, m.Before w → R w x → R' w x) : Reads D R' m p :=
  ⟨fun link => (h.holds link).imp sub⟩

theorem Reads.any (h : Reads D R m p) : Runs D m p := ⟨fun link => (h.holds link).any⟩

/-! ## Sequences -/

theorem Reads.seq (first : Reads D R m p)
    (rest : ∀ (w : Later m) (x : α), R w.world x → Reads D Q w.world (f x)) :
    Reads D Q m (p >>= f) :=
  ⟨fun link => (first.holds link).bind fun w x rel => (rest w x rel).holds link⟩

instance Reads.bind (p : Parse α) (f : α → Parse β) [first : Runs D m p]
    [rest : ∀ (w : Later m) (x : α), Reads D Q w.world (f x)] : Reads D Q m (p >>= f) :=
  .seq first fun w x _ => rest w x

theorem Reads.seq_peeks (first : Peeks D m p) (rest : ∀ x : α, Reads D Q m (f x)) :
    Reads D Q m (p >>= f) where
  holds link s stands := by
    obtain ⟨stands, follows⟩ := first.holds link stands
    obtain ⟨v, before, stands, follows', holds⟩ := (rest _).holds link stands
    exact ⟨v, before, stands, follows.trans follows', holds⟩

instance (priority := 1200) Reads.bind_peeks (p : Parse α) (f : α → Parse β)
    [first : Peeks D m p] [rest : ∀ x : α, Reads D Q m (f x)] : Reads D Q m (p >>= f) :=
  .seq_peeks first rest

theorem Reads.seq_steps (first : Steps D m p)
    (rest : ∀ (w : Past m) (x : α), Reads D Q w.world (f x)) : Reads D Q m (p >>= f) :=
  .seq first.reads fun w x past => rest ⟨w, past⟩ x

instance (priority := 1250) Reads.bind_steps (p : Parse α) (f : α → Parse β)
    [first : Steps D m p] [rest : ∀ (w : Past m) (x : α), Reads D Q w.world (f x)] :
    Reads D Q m (p >>= f) :=
  .seq_steps first rest

theorem Reads.seq_frees (first : Frees D m p)
    (rest : ∀ (w : Freed m) (x : α), Reads D Q w.world (f x)) : Reads D Q m (p >>= f) :=
  .seq first.reads fun w x free => rest ⟨w, free⟩ x

instance (priority := 1240) Reads.bind_frees (p : Parse α) (f : α → Parse β)
    [first : Frees D m p] [rest : ∀ (w : Freed m) (x : α), Reads D Q w.world (f x)] :
    Reads D Q m (p >>= f) :=
  .seq_frees first rest

theorem Reads.seq_lives (first : Lives D m p)
    (rest : ∀ (w : Alive m) (x : α), Reads D Q w.world (f x)) : Reads D Q m (p >>= f) :=
  .seq first.reads fun w x live => rest ⟨w, live⟩ x

instance (priority := 1150) Reads.bind_lives (p : Parse α) (f : α → Parse β)
    [first : Lives D m p] [rest : ∀ (w : Alive m) (x : α), Reads D Q w.world (f x)] :
    Reads D Q m (p >>= f) :=
  .seq_lives first rest

theorem Reads.seq_passes {p : Parse Bool} {f : Bool → Parse β} (first : Passes D m p)
    (yes : ∀ w : Past m, Reads D Q w.world (f true)) (no : Reads D Q m (f false)) :
    Reads D Q m (p >>= f) :=
  .seq first.reads fun w x passed => by
    rcases passed with ⟨rfl, past⟩ | ⟨rfl, same⟩
    · exact yes ⟨w, past⟩
    · rw [same]
      exact no

instance (priority := 900) Reads.bind_passes (p : Parse Bool) (f : Bool → Parse β)
    [first : Passes D m p] [yes : ∀ w : Past m, Reads D Q w.world (f true)]
    [no : Reads D Q m (f false)] : Reads D Q m (p >>= f) :=
  .seq_passes first yes no

instance (priority := 1300) Reads.bind_passes_ite (p : Parse Bool) (q r : Parse β)
    [first : Passes D m p] [yes : ∀ w : Past m, Reads D Q w.world q] [no : Reads D Q m r] :
    Reads D Q m (p >>= fun x => if x = true then q else r) :=
  .seq_passes first yes no

theorem Reads.seq_advances {p : Parse (Option α)} {f : Option α → Parse β}
    (first : Advances D m p) (nothing : Reads D Q m (f none))
    (something : ∀ (w : Past m) (x : α), Reads D Q w.world (f (some x))) :
    Reads D Q m (p >>= f) :=
  .seq first.reads fun w x advanced => by
    rcases advanced with ⟨found, past⟩ | ⟨rfl, same⟩
    · obtain ⟨x, rfl⟩ := Option.isSome_iff_exists.mp found
      exact something ⟨w, past⟩ x
    · rw [same]
      exact nothing

instance (priority := 950) Reads.bind_advances (p : Parse (Option α)) (f : Option α → Parse β)
    [first : Advances D m p] [nothing : Reads D Q m (f none)]
    [something : ∀ (w : Past m) (x : α), Reads D Q w.world (f (some x))] :
    Reads D Q m (p >>= f) :=
  .seq_advances first nothing something

instance (priority := 940) Reads.bind_behindIfSome (p : Parse (Option α)) (f : Option α → Parse β)
    [first : Reads D (BehindIfSome m.offset) m p]
    [nothing : ∀ w : Later m, Reads D Q w.world (f none)]
    [something : ∀ (w : Past m) (x : α), Reads D Q w.world (f (some x))] : Reads D Q m (p >>= f) :=
  .seq first fun w x past =>
    match x, past with
    | none, _ => nothing w
    | some x, past => something ⟨w, past rfl⟩ x

theorem Reads.seq_option {p : Parse (Option α)} {f : Option α → Parse β} (first : Runs D m p)
    (nothing : ∀ w : Later m, Reads D Q w.world (f none))
    (something : ∀ (w : Later m) (x : α), Reads D Q w.world (f (some x))) :
    Reads D Q m (p >>= f) :=
  .seq first fun w x _ =>
    match x with
    | none => nothing w
    | some x => something w x

instance (priority := 900) Reads.bind_option (p : Parse (Option α)) (f : Option α → Parse β)
    [first : Runs D m p] [nothing : ∀ w : Later m, Reads D Q w.world (f none)]
    [something : ∀ (w : Later m) (x : α), Reads D Q w.world (f (some x))] :
    Reads D Q m (p >>= f) :=
  .seq_option first nothing something

instance Runs.pure (x : α) : Runs D m (Pure.pure x) := ⟨fun _ => .pure trivial⟩

instance Runs.map (h : α → β) (p : Parse α) [r : Runs D m p] : Runs D m (h <$> p) where
  holds link _ stands :=
    have ⟨w, before, stands, follows, _⟩ := r.holds link stands
    ⟨w, before, stands, follows, trivial⟩

instance Runs.or (p q : Parse Bool) [first : Runs D m p] [rest : ∀ w : Later m, Runs D w.world q] :
    Runs D m (p <||> q) :=
  .seq first fun w x _ =>
    match x with
    | true => Runs.pure true
    | false => rest w

instance Runs.and (p q : Parse Bool) [first : Runs D m p] [rest : ∀ w : Later m, Runs D w.world q] :
    Runs D m (p <&&> q) :=
  .seq first fun w x _ =>
    match x with
    | true => rest w
    | false => Runs.pure false

/-! ## Weaker readings -/

instance (priority := 50) Runs.of_peeks (p : Parse α) [h : Peeks D m p] : Runs D m p where
  holds link _ stands :=
    have ⟨after, follows⟩ := h.holds link stands
    ⟨m, .refl m, after, follows, trivial⟩

instance (priority := 50) Runs.of_frees (p : Parse α) [h : Frees D m p] : Runs D m p := h.reads.any

instance (priority := 50) Runs.of_passes (p : Parse Bool) [h : Passes D m p] : Runs D m p :=
  h.reads.any

instance (priority := 50) Runs.of_advances (p : Parse (Option α)) [h : Advances D m p] :
    Runs D m p :=
  h.reads.any

instance (priority := 50) Frees.of_steps (p : Parse α) [h : Steps D m p] : Frees D m p :=
  ⟨h.reads.imp fun _ _ before past => Past.free ⟨⟨_, before⟩, past⟩⟩

theorem Peeks.of_same {R : α → Prop} (h : Reads D (fun w x => w = m ∧ R x) m p) : Peeks D m p where
  holds link _ stands :=
    have ⟨_, _, after, follows, same, _⟩ := h.holds link stands
    ⟨same ▸ after, follows⟩

theorem Peeks.reads {R : α → Prop} (h : Peeks D m p) (value : ∀ g s, R (p g s).1) :
    Reads D (fun w x => w = m ∧ R x) m p :=
  ⟨fun link _ stands =>
    have ⟨after, follows⟩ := h.holds link stands
    ⟨m, .refl m, after, follows, rfl, value _ _⟩⟩

/-- A reading that may begin wherever one from the world on comes to. -/
class RunsOn (D : Discipline) (m : World D) (p : Parse α) : Prop where
  runs : ∀ w : Later m, Runs D w.world p

instance RunsOn.of_all (p : Parse α) [h : ∀ w : Later m, Runs D w.world p] : RunsOn D m p := ⟨h⟩

instance (priority := 50) RunsOn.later (p : Parse α) (w : Later m) [h : RunsOn D m p] :
    RunsOn D w.world p :=
  ⟨fun v => h.runs (w.trans v)⟩

theorem RunsOn.here (h : RunsOn D m p) : Runs D m p := h.runs ⟨m, .refl m⟩

/-! ## The ends of readings -/

section

variable {i : Nat} {w : World D}

instance (priority := 40) Reads.behind (p : Parse α) [after : w.After i] [h : Runs D w p] :
    Reads D (Behind i) w p :=
  h.imp fun _ _ before _ => Nat.lt_of_lt_of_le after.lt before.offset

instance (priority := 40) Reads.atLiberty (p : Parse α) [free : w.Free] [h : Runs D w p] :
    Reads D AtLiberty w p :=
  h.imp fun v _ before _ => World.Free.later ⟨v, before⟩

instance (priority := 40) Reads.atLife (p : Parse α) [live : w.Live] [h : Peeks D w p] :
    Reads D AtLife w p where
  holds link _ stands :=
    have ⟨after, follows⟩ := h.holds link stands
    ⟨w, .refl w, after, follows, live⟩

instance (priority := 30) Reads.of_steps (p : Parse α) [start : w.From i] [h : Steps D w p] :
    Reads D (Behind i) w p :=
  h.reads.imp fun _ _ _ past => Nat.lt_of_le_of_lt start.le past

instance Reads.passed_true [after : w.After m.offset] :
    Reads D (Passed m) w (Pure.pure true) :=
  ⟨fun _ => .pure (.inl ⟨rfl, after.lt⟩)⟩

instance Reads.passed_false : Reads D (Passed m) m (Pure.pure false) :=
  ⟨fun _ => .pure (.inr ⟨rfl, rfl⟩)⟩

instance Reads.passed_false_shown {k : Kind} (v : Shown m k) :
    Reads D (Passed m) v.world (Pure.pure false) :=
  Reads.passed_false

instance Reads.of_passes (p : Parse Bool) [h : Passes D m p] : Reads D (Passed m) m p := h.reads

instance Reads.advanced_some (x : α) [after : w.After m.offset] :
    Reads D (Advanced m) w (Pure.pure (some x)) :=
  ⟨fun _ => .pure (.inl ⟨rfl, after.lt⟩)⟩

instance Reads.advanced_none : Reads D (Advanced m) m (Pure.pure (none : Option α)) :=
  ⟨fun _ => .pure (.inr ⟨rfl, rfl⟩)⟩

instance Reads.behind_some (x : α) [after : w.After i] :
    Reads D (BehindIfSome i) w (Pure.pure (some x)) :=
  ⟨fun _ => .pure fun _ => after.lt⟩

instance Reads.behind_none : Reads D (BehindIfSome i) w (Pure.pure (none : Option α)) :=
  ⟨fun _ => .pure fun h => nomatch h⟩

instance (priority := 900) Reads.behindIfSome_map (p : Parse α) [start : w.From i]
    [h : Steps D w p] : Reads D (BehindIfSome i) w (some <$> p) where
  holds link _ stands :=
    have ⟨v, before, stands, follows, past⟩ := h.reads.holds link stands
    ⟨v, before, stands, follows, fun _ => Nat.lt_of_le_of_lt start.le past⟩

end

end

/-! ## Readings that only look -/

namespace Peeks

variable {m : World D}

instance pure (x : α) : Peeks D m (Pure.pure x : Parse α) := ⟨fun _ _ stands => ⟨stands, .refl _⟩⟩

instance bind (p : Parse α) (f : α → Parse β) [first : Peeks D m p] [rest : ∀ x, Peeks D m (f x)] :
    Peeks D m (p >>= f) where
  holds link s stands := by
    obtain ⟨stands, follows⟩ := first.holds link stands
    obtain ⟨stands, follows'⟩ := (rest _).holds link stands
    exact ⟨stands, follows.trans follows'⟩

instance ite (c : Prop) {_ : Decidable c} (p q : Parse α) [yes : Peeks D m p] [no : Peeks D m q] :
    Peeks D m (if c then p else q) := by
  split <;> assumption

instance map (f : α → β) (p : Parse α) [h : Peeks D m p] : Peeks D m (f <$> p) :=
  ⟨fun link _ stands => h.holds link stands⟩

instance or (p q : Parse Bool) [first : Peeks D m p] [rest : Peeks D m q] :
    Peeks D m (p <||> q) := by
  refine @Peeks.bind _ _ _ _ p _ _ fun x => ?_
  cases x with
  | true => exact Peeks.pure true
  | false => exact rest

instance and (p q : Parse Bool) [first : Peeks D m p] [rest : Peeks D m q] :
    Peeks D m (p <&&> q) := by
  refine @Peeks.bind _ _ _ _ p _ _ fun x => ?_
  cases x with
  | true => exact rest
  | false => exact Peeks.pure false

instance loop_over {ι : Type} (values : List ι) (f : ι → α → Parse (ForInStep α)) (x : α)
    [body : ∀ i x, Peeks D m (f i x)] : Peeks D m (forIn values x f) := by
  induction values generalizing x with
  | nil => exact Peeks.pure x
  | cons i rest ih =>
    rw [List.forIn_cons]
    refine @Peeks.bind _ _ _ _ _ _ _ fun step => ?_
    cases step with
    | done y => exact Peeks.pure y
    | yield y => exact ih y

end Peeks

/-! ## Choices -/

section

variable {m : World D} {Q : World D → β → Prop}

theorem Reads.choose {c : Prop} {_ : Decidable c} {p q : Parse β} (yes : c → Reads D Q m p)
    (no : ¬ c → Reads D Q m q) : Reads D Q m (if c then p else q) := by
  split
  · exact yes ‹_›
  · exact no ‹_›

instance Reads.ite (c : Prop) {_ : Decidable c} (p q : Parse β) [yes : Reads D Q m p]
    [no : Reads D Q m q] : Reads D Q m (if c then p else q) :=
  .choose (fun _ => yes) fun _ => no

instance (priority := 1300) Reads.if_true (p q : Parse β) [yes : Reads D Q m p] :
    Reads D Q m (if true = true then p else q) := yes

instance (priority := 1300) Reads.if_false (p q : Parse β) [no : Reads D Q m q] :
    Reads D Q m (if false = true then p else q) := no

instance (priority := 1320) Reads.bind_pure_and_ite (b : Bool) (t : Parse Bool) (p q : Parse β)
    [test : Reads D Q m (t >>= fun x => if x = true then p else q)] [no : Reads D Q m q] :
    Reads D Q m ((Pure.pure b <&&> t) >>= fun x => if x = true then p else q) := by
  cases b
  · exact no
  · exact test

instance (priority := 1320) Reads.bind_false_or_ite (t : Parse Bool) (p q : Parse β)
    [test : Reads D Q m (t >>= fun x => if x = true then p else q)] :
    Reads D Q m ((Pure.pure false <||> t) >>= fun x => if x = true then p else q) :=
  test

instance (priority := 1100) Reads.ite_bind (c : Prop) {_ : Decidable c} (p q : Parse α)
    (f : α → Parse β) [yes : Runs D m p] [no : Runs D m q]
    [rest : ∀ (w : Later m) (x : α), Reads D Q w.world (f x)] :
    Reads D Q m (if c then p >>= f else q >>= f) :=
  .choose (fun _ => .seq yes fun w x _ => rest w x) fun _ => .seq no fun w x _ => rest w x

/-- What follows a test that passes a token, and what is read after that test, is read once. -/
instance (priority := 1400) Reads.bind_passes_join (t : Parse Bool) (p q : Parse α)
    (f : α → Parse β) [first : Passes D m t] [yes : ∀ w : Past m, Runs D w.world p]
    [no : Runs D m q] [rest : ∀ (w : Later m) (x : α), Reads D Q w.world (f x)] :
    Reads D Q m (t >>= fun x => if x = true then p >>= f else q >>= f) := by
  have past (w : Past m) (v : Later w.world) (x : α) : Reads D Q v.world (f x) :=
    rest (w.toLater.trans v) x
  exact .seq_passes first (fun w => .seq (yes w) fun v x _ => past w v x)
    (.seq no fun v x _ => rest v x)

end

/-! ## Loops -/

/-- After a round the loop ends, or it goes on behind the offset where the round began. -/
inductive Round (I J : World D → α → Prop) (i : Nat) (w : World D) : ForInStep α → Prop
  | done {x : α} (holds : J w x) : Round I J i w (.done x)
  | yield {x : α} (holds : I w x) (past : i < w.offset) : Round I J i w (.yield x)

section

variable {m : World D} {i : Nat} {I J : World D → α → Prop}

instance Reads.done (x : α) : Reads D (Round I Any i) m (Pure.pure (ForInStep.done x)) :=
  ⟨fun _ => .pure (.done trivial)⟩

instance Reads.yield (x : α) [past : m.After i] :
    Reads D (Round Any J i) m (Pure.pure (ForInStep.yield x)) :=
  ⟨fun _ => .pure (.yield trivial past.lt)⟩

instance Reads.yield_alive (x : α) [past : m.After i] [alive : m.Live] :
    Reads D (Round AtLife J i) m (Pure.pure (ForInStep.yield x)) :=
  ⟨fun _ => .pure (.yield alive past.lt)⟩

/-- The rounds of a loop without a bound on their number. Each of them but the last moves on. -/
inductive Parse.Rounds.Progress (f : α → Parse (ForInStep α)) (g : Productions) :
    α → ParserState → α × ParserState → Prop
  | done {x y : α} {s t : ParserState} (last : f x g s = (.done y, t)) : Progress f g x s (y, t)
  | yield {x y : α} {s t : ParserState} {r : α × ParserState} (round : f x g s = (.yield y, t))
      (past : s.scanner.fullStart < t.scanner.fullStart) (rest : Progress f g y t r) :
      Progress f g x s r

/-- A loop that did not stall is one without a bound, and each of its rounds but the last moved on. -/
theorem Parse.Rounds.run_progress {f : α → Parse (ForInStep α)} {g : Productions} {left : Nat} {x : α}
    {s : ParserState} (going : (Parse.Rounds.run f left x g s).2.stalled = false) :
    Parse.Rounds.Progress f g x s (Parse.Rounds.run f left x g s) := by
  induction left generalizing x s with
  | zero => cases going
  | succ left ih =>
    rw [run_succ] at going ⊢
    rcases found : f x g s with ⟨_ | y, t⟩
    · exact .done found
    · rw [found] at going
      by_cases still : t.scanner.fullStart ≤ s.scanner.fullStart
      · simp only [if_pos still] at going
        cases going
      · simp only [if_neg still] at going ⊢
        exact .yield found (Nat.lt_of_not_le still) (ih going)

/-- A loop ends before its rounds do, because there are more of them than places in the text. -/
theorem ReadsFrom.run {g : Productions} {P : ParserState → Prop} {f : α → Parse (ForInStep α)}
    (kept : ∀ {s t : ParserState}, P s → s.Follows t → P t)
    (body : ∀ (w : Later m) (x : α), I w.world x →
      ReadsFrom g P (Round I J w.world.offset) w.world (f x))
    (left : Nat) {w : World D} (before : m.Before w) (enough : D.size < w.offset + left) {x : α}
    (holds : I w x) : ReadsFrom g P J w (Parse.Rounds.run f left x) := by
  induction left generalizing w x with
  | zero =>
    have := w.inside
    omega
  | succ left ih =>
    intro s stands meets
    obtain ⟨v, before', after, follows, round⟩ := body ⟨w, before⟩ x holds stands meets
    rw [Parse.Rounds.run_succ]
    generalize (f x g s).1 = step at round
    cases round with
    | done holds => exact ⟨v, before', after, follows, holds⟩
    | @yield y holds past =>
      have moved : ¬ (f x g s).2.scanner.fullStart ≤ s.scanner.fullStart := by
        rw [after.offset, stands.offset]
        exact Nat.not_le_of_lt past
      dsimp only
      rw [if_neg moved]
      obtain ⟨u, before'', stands, follows', holds⟩ :=
        ih (before.trans before') (by dsimp only at past; omega) holds after (kept meets follows)
      exact ⟨u, before'.trans before'', stands, follows.trans follows', holds⟩

theorem ReadsFrom.rounds {g : Productions} {P : ParserState → Prop}
    {f : Unit → α → Parse (ForInStep α)} {x : α}
    (kept : ∀ {s t : ParserState}, P s → s.Follows t → P t) (start : I m x)
    (body : ∀ (w : Later m) (y : α), I w.world y →
      ReadsFrom g P (Round I J w.world.offset) w.world (f () y)) :
    ReadsFrom g P J m (forIn Parse.Rounds.rounds x f) := by
  intro s stands
  have size : s.scanner.text.utf8ByteSize = D.size := congrArg _ stands.text
  refine ReadsFrom.run kept body _ (.refl m) ?_ start stands
  rw [size]
  omega

theorem Reads.rounds {f : Unit → α → Parse (ForInStep α)} {x : α} (start : I m x)
    (body : ∀ (w : Later m) (y : α), I w.world y →
      Reads D (Round I J w.world.offset) w.world (f () y)) :
    Reads D J m (forIn Parse.Rounds.rounds x f) where
  holds link _ stands :=
    ReadsFrom.rounds (P := fun _ => True) (fun _ _ => trivial) start
      (fun w y holds _ stands _ => (body w y holds).holds link stands) stands trivial

/-- Each loop that is read where a reading may be, and was not cut short, goes on up to its own end. -/
theorem Reads.progress {f : Unit → α → Parse (ForInStep α)} {x : α} {g : Productions}
    {s : ParserState} (h : Reads D J m (forIn Parse.Rounds.rounds x f)) (going : D.stalled = false)
    (link : Linked D g) (stands : m.At s) :
    Parse.Rounds.Progress (f ()) g x s ((forIn Parse.Rounds.rounds x f : Parse α) g s) := by
  obtain ⟨w, _, after, _, _⟩ := h.holds link stands
  exact Parse.Rounds.run_progress (after.going.trans going)

theorem Runs.rounds {f : Unit → α → Parse (ForInStep α)} {x : α}
    (body : ∀ (w : Later m) (y : α), Reads D (Round Any Any w.world.offset) w.world (f () y)) :
    Runs D m (forIn Parse.Rounds.rounds x f) :=
  Reads.rounds trivial fun w y _ => body w y

instance Runs.loop (f : Unit → α → Parse (ForInStep α)) (x : α)
    [body : ∀ (w : Later m) (y : α),
      Reads D (Round Any Any w.world.offset) w.world (f () y)] :
    Runs D m (forIn Parse.Rounds.rounds x f) :=
  .rounds body

end

end ScriptFrontend
