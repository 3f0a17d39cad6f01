import ScriptFrontend.Proofs.Making.Course
import ScriptFrontend.Proofs.Reading.Rules

/-!
# Rules of making

A reading goes on from a stage of a course to a later one, by which all parts of its value were made. There
is a rule for each way to put readings together. What is read after a node began lies behind its start.
-/

namespace ScriptFrontend

variable {α β γ W : Type} [Course W]

/-! ## Values that were read -/

/-- A value with the stage behind the reading that gave it. -/
structure Got (lo : Nat) (w : W) (α : Type) [Parted α] where
  stage : W
  before : Course.Before w stage
  value : α
  built : Built lo stage value

structure Spot (w : W) where
  stage : W
  before : Course.Before w stage
  pos : Nat
  eq : Course.Places W → Course.offset stage = pos

section

variable [Parted α] [Parted β] {lo lo' i : Nat} {w : W}

instance (x : Got lo' w α) [low : AtMost W lo lo'] : Built lo x.stage x.value := x.built.lower low

instance (priority := 50) (x : Got lo' w α) (y : β) [h : Built lo w y] : Built lo x.stage y := h.later x.before

instance (x : Got lo' w α) [h : AtMost W i (Course.offset w)] : AtMost W i (Course.offset x.stage) :=
  h.before x.before

instance (x : Got lo' w Node) [h : AtMost W i lo'] : AtMost W i x.value.pos :=
  h.trans x.built.starts

instance (priority := high) (x : Got lo' w Node) : AtMost W x.value.pos (Course.offset x.stage) := x.built.started

instance (priority := high) (x : Got lo' w Node) : Built x.value.pos x.stage x.value := x.built.itself

instance (priority := 50) (x : Spot w) (y : β) [h : Built lo w y] : Built lo x.stage y := h.later x.before

instance (x : Spot w) [h : AtMost W i (Course.offset w)] : AtMost W i (Course.offset x.stage) :=
  h.before x.before

instance (x : Spot w) [h : AtMost W i (Course.offset w)] : AtMost W i x.pos :=
  ⟨fun places => x.eq places ▸ (h.before x.before).le places⟩

instance (priority := high) (x : Spot w) : AtMost W x.pos (Course.offset x.stage) :=
  ⟨fun places => Nat.le_of_eq (x.eq places).symm⟩

instance (priority := high) (x : Spot w) : AtMost W (Course.offset x.stage) x.pos :=
  ⟨fun places => Nat.le_of_eq (x.eq places)⟩

end

/-! ## Readings -/

/-- A reading goes on to a stage by which its value was made. -/
def MakesIn (g : Productions) [Parted α] (lo : Nat) (w : W) (p : Parse α) : Prop :=
  ∀ ⦃s : ParserState⦄, Course.At w s → ∃ x : Got lo w α, (p g s).1 = x.value ∧ Course.At x.stage (p g s).2

/-- What is behind the names of the nonterminals makes the nodes that it reads where it stands. -/
structure Laid (W : Type) [Course W] (g : Productions) : Prop where
  reads : ∀ n : Nonterminal, n.isDoc = false → ∀ w : W, MakesIn g (Course.offset w) w (Parse.call? n)
  tell : g.TellTaken
  documents : Course.Documents W g

class Makes (lo : Nat) (w : W) [Parted α] (p : Parse α) : Prop where
  holds : ∀ {g}, Laid W g → MakesIn g lo w p

abbrev Still (W : Type) [Course W] (p : Parse α) : Prop := Goes (Course.Moves W) p

section

variable [Parted α] [Parted β] {lo i : Nat} {w : W} {p : Parse α} {f : α → Parse β}

theorem MakesIn.bind {g : Productions} (first : MakesIn g i w p)
    (rest : ∀ x : Got i w α, MakesIn g lo x.stage (f x.value)) : MakesIn g lo w (p >>= f) := by
  intro s stands
  obtain ⟨x, value, stands⟩ := first stands
  obtain ⟨y, value', stands'⟩ := rest x stands
  rw [Parse.bind_run, value]
  exact ⟨{ y with before := Course.trans x.before y.before }, value', stands'⟩

theorem MakesIn.lower {g : Productions} (h : MakesIn g i w p) (low : AtMost W lo i) : MakesIn g lo w p := by
  intro s stands
  obtain ⟨x, value, stands⟩ := h stands
  exact ⟨⟨x.stage, x.before, x.value, inferInstance⟩, value, stands⟩

/-- From a state such as one property tells, the reading comes to a value and a state such as another tells. -/
def MakesSuch (P : ParserState → Prop) (Q : α → ParserState → Prop) (g : Productions) (lo : Nat) (w : W)
    (p : Parse α) : Prop :=
  ∀ ⦃s : ParserState⦄, Course.At w s → P s →
    ∃ x : Got lo w α, (p g s).1 = x.value ∧ Course.At x.stage (p g s).2 ∧ Q x.value (p g s).2

theorem MakesIn.such {P : ParserState → Prop} {Q : α → ParserState → Prop} {g : Productions}
    (h : MakesIn g lo w p) (such : Leads g P p Q) : MakesSuch P Q g lo w p := fun _ stands holds =>
  have ⟨x, value, stands⟩ := h stands
  ⟨x, value, stands, value ▸ such holds⟩

namespace MakesSuch

variable {P P' : ParserState → Prop} {Q R : α → ParserState → Prop} {Q' : β → ParserState → Prop}
  {g : Productions}

theorem makes (h : MakesSuch Anywhere Q g lo w p) : MakesIn g lo w p := fun _ stands =>
  have ⟨x, value, stands, _⟩ := h stands trivial
  ⟨x, value, stands⟩

theorem when (h : MakesSuch P' Q g lo w p) (sub : ∀ s, P s → P' s) : MakesSuch P Q g lo w p :=
  fun _ stands holds => h stands (sub _ holds)

theorem given {c : Prop} (known : ∀ s, P s → c) (h : c → MakesSuch P Q g lo w p) : MakesSuch P Q g lo w p :=
  fun s stands holds => h (known s holds) stands holds

theorem imp (h : MakesSuch P Q g lo w p) (sub : ∀ x s, Q x s → R x s) : MakesSuch P R g lo w p :=
  fun _ stands holds =>
  have ⟨x, value, stands, such⟩ := h stands holds
  ⟨x, value, stands, sub _ _ such⟩

theorem and (h : MakesSuch P Q g lo w p) (such : Leads g P p R) :
    MakesSuch P (fun x s => Q x s ∧ R x s) g lo w p := fun _ stands holds =>
  have ⟨x, value, stands, holds'⟩ := h stands holds
  ⟨x, value, stands, holds', value ▸ such holds⟩

theorem seq (first : MakesSuch P Q g i w p)
    (rest : ∀ x : Got i w α, MakesSuch (Q x.value) Q' g lo x.stage (f x.value)) :
    MakesSuch P Q' g lo w (p >>= f) := by
  intro s stands holds
  obtain ⟨x, value, stands, such⟩ := first stands holds
  obtain ⟨y, value', stands', such'⟩ := rest x stands such
  rw [Parse.bind_run, value]
  exact ⟨{ y with before := Course.trans x.before y.before }, value', stands', such'⟩

theorem seq_still {α : Type} {p : Parse α} {f : α → Parse β} {J : α → ParserState → Prop} (first : Still W p)
    (such : Leads g P p J) (rest : ∀ x, MakesSuch (J x) Q' g lo w (f x)) : MakesSuch P Q' g lo w (p >>= f) :=
  fun s stands holds => rest _ (Course.moves stands (first.leads g s)) (such holds)

theorem seq_here {f : Nat → Parse β} (rest : ∀ x : Spot w, MakesSuch P Q' g lo x.stage (f x.pos)) :
    MakesSuch P Q' g lo w (Parse.nodePos >>= f) := by
  intro s stands holds
  obtain ⟨b, before, stands, eq⟩ := Course.here stands
  obtain ⟨y, value, stands, such⟩ := rest ⟨b, before, s.scanner.fullStart, eq⟩ stands holds
  exact ⟨{ y with before := Course.trans before y.before }, value, stands, such⟩

theorem pure {x : α} (built : Built lo w x) (such : ∀ s, P s → Q x s) :
    MakesSuch P Q g lo w (Pure.pure x : Parse α) :=
  fun s stands holds => ⟨⟨w, Course.refl w, x, built⟩, rfl, stands, such s holds⟩

theorem choose {c : Prop} {_ : Decidable c} {p q : Parse α} (yes : c → MakesSuch P Q g lo w p)
    (no : ¬ c → MakesSuch P Q g lo w q) : MakesSuch P Q g lo w (if c then p else q) := by
  split
  · exact yes ‹_›
  · exact no ‹_›

end MakesSuch

namespace Makes

theorem seq (first : Makes i w p) (rest : ∀ x : Got i w α, Makes lo x.stage (f x.value)) :
    Makes lo w (p >>= f) :=
  ⟨fun link => (first.holds link).bind fun x => (rest x).holds link⟩

theorem lower (h : Makes i w p) (low : AtMost W lo i) : Makes lo w p :=
  ⟨fun link => (h.holds link).lower low⟩

theorem seq_new (first : Makes (Course.offset w) w p)
    (rest : ∀ x : Got (Course.offset w) w α, Makes lo x.stage (f x.value)) : Makes lo w (p >>= f) :=
  .seq first rest

instance bind [first : Makes (Course.offset w) w p]
    [rest : ∀ x : Got (Course.offset w) w α, Makes lo x.stage (f x.value)] : Makes lo w (p >>= f) :=
  .seq first rest

theorem seq_on (first : Makes lo w p) (rest : ∀ x : Got lo w α, Makes lo x.stage (f x.value)) :
    Makes lo w (p >>= f) :=
  .seq first rest

instance (priority := 900) bind_on [first : Makes lo w p]
    [rest : ∀ x : Got lo w α, Makes lo x.stage (f x.value)] : Makes lo w (p >>= f) :=
  .seq first rest

theorem seq_still {α : Type} {p : Parse α} {f : α → Parse β} (first : Still W p)
    (rest : ∀ x, Makes lo w (f x)) : Makes lo w (p >>= f) where
  holds {g} link s stands := (rest _).holds link (Course.moves stands (first.leads g s))

instance (priority := 1200) bind_still {α : Type} [Parted α] [Partless α] {p : Parse α}
    {f : α → Parse β} [first : Still W p] [rest : ∀ x, Makes lo w (f x)] : Makes lo w (p >>= f) :=
  .seq_still first rest

theorem seq_here {f : Nat → Parse β} (rest : ∀ x : Spot w, Makes lo x.stage (f x.pos)) :
    Makes lo w (Parse.nodePos >>= f) where
  holds {g} link s stands := by
    obtain ⟨b, before, stands, eq⟩ := Course.here stands
    obtain ⟨y, value, stands⟩ := (rest ⟨b, before, s.scanner.fullStart, eq⟩).holds link stands
    exact ⟨{ y with before := Course.trans before y.before }, value, stands⟩

instance (priority := 1220) bind_here {f : Nat → Parse β} [rest : ∀ x : Spot w, Makes lo x.stage (f x.pos)] :
    Makes lo w (Parse.nodePos >>= f) :=
  .seq_here rest

theorem seq_from {f : Nat → Parse β} [past : AtMost W lo (Course.offset w)]
    (rest : ∀ x : Spot w, Makes x.pos x.stage (f x.pos)) : Makes lo w (Parse.nodePos >>= f) :=
  .seq_here fun x => (rest x).lower inferInstance

instance (priority := 1250) bind_from {f : Nat → Parse β} [AtMost W lo (Course.offset w)]
    [rest : ∀ x : Spot w, Makes x.pos x.stage (f x.pos)] : Makes lo w (Parse.nodePos >>= f) :=
  .seq_from rest

/-! A form is no value of its own: what follows finishes a node with it. -/

theorem form_seq {α : Type} {p : Parse α} {f : α → Parse Form} {g : Form → Parse β}
    (r : Makes lo w (p >>= fun x => f x >>= g)) : Makes lo w ((p >>= f) >>= g) :=
  r

instance (priority := 1300) form_bind {α : Type} (p : Parse α) (f : α → Parse Form)
    (g : Form → Parse β) [r : Makes lo w (p >>= fun x => f x >>= g)] : Makes lo w ((p >>= f) >>= g) :=
  r

theorem form_choose {c : Prop} {_ : Decidable c} {p q : Parse Form} {g : Form → Parse β}
    (yes : c → Makes lo w (p >>= g)) (no : ¬ c → Makes lo w (q >>= g)) :
    Makes lo w ((if c then p else q) >>= g) := by
  split
  · exact yes ‹_›
  · exact no ‹_›

instance (priority := 1300) form_ite (c : Prop) {_ : Decidable c} (p q : Parse Form)
    (g : Form → Parse β) [yes : Makes lo w (p >>= g)] [no : Makes lo w (q >>= g)] :
    Makes lo w ((if c then p else q) >>= g) :=
  .form_choose (fun _ => yes) fun _ => no

theorem seq_option {p : Parse (Option α)} {f : Option α → Parse β} (first : Makes i w p)
    (nothing : ∀ x : Got i w Unit, Makes lo x.stage (f none))
    (something : ∀ x : Got i w α, Makes lo x.stage (f (some x.value))) : Makes lo w (p >>= f) :=
  .seq first fun x =>
    match x with
    | ⟨stage, before, none, _⟩ => nothing ⟨stage, before, (), inferInstance⟩
    | ⟨stage, before, some x, built⟩ => something ⟨stage, before, x, ⟨built.holds⟩⟩

instance (priority := 980) bind_option {p : Parse (Option α)} {f : Option α → Parse β}
    [first : Makes (Course.offset w) w p]
    [nothing : ∀ x : Got (Course.offset w) w Unit, Makes lo x.stage (f none)]
    [something : ∀ x : Got (Course.offset w) w α, Makes lo x.stage (f (some x.value))] :
    Makes lo w (p >>= f) :=
  .seq_option first nothing something

instance (priority := 880) bind_option_on {p : Parse (Option α)} {f : Option α → Parse β} [first : Makes lo w p]
    [nothing : ∀ x : Got lo w Unit, Makes lo x.stage (f none)]
    [something : ∀ x : Got lo w α, Makes lo x.stage (f (some x.value))] : Makes lo w (p >>= f) :=
  .seq_option first nothing something

instance (priority := 1090) bind_pair {p : Parse (α × β)} {f : α × β → Parse γ} [Parted γ]
    [first : Makes (Course.offset w) w p]
    [rest : ∀ x : Got (Course.offset w) w (α × β), Makes lo x.stage (f (x.value.1, x.value.2))] :
    Makes lo w (p >>= f) :=
  .seq first rest

instance pure (x : α) [built : Built lo w x] : Makes lo w (Pure.pure x : Parse α) :=
  ⟨fun _ _ stands => ⟨⟨w, Course.refl w, x, built⟩, rfl, stands⟩⟩

instance (priority := 1400) pure_bind {α : Type} (x : α) (f : α → Parse β) [r : Makes lo w (f x)] :
    Makes lo w ((Pure.pure x : Parse α) >>= f) :=
  r

theorem choose {c : Prop} {_ : Decidable c} {p q : Parse α} (yes : c → Makes lo w p)
    (no : ¬ c → Makes lo w q) : Makes lo w (if c then p else q) := by
  split
  · exact yes ‹_›
  · exact no ‹_›

instance ite (c : Prop) {_ : Decidable c} (p q : Parse α) [yes : Makes lo w p] [no : Makes lo w q] :
    Makes lo w (if c then p else q) :=
  .choose (fun _ => yes) fun _ => no

instance (priority := 1100) ite_bind (c : Prop) {_ : Decidable c} (p q : Parse α)
    (f : α → Parse β) [yes : Makes (Course.offset w) w p] [no : Makes (Course.offset w) w q]
    [rest : ∀ x : Got (Course.offset w) w α, Makes lo x.stage (f x.value)] :
    Makes lo w (if c then p >>= f else q >>= f) :=
  .choose (fun _ => .seq yes rest) fun _ => .seq no rest

instance map (h : α → β) (p : Parse α) [r : Makes lo w (p >>= fun x => Pure.pure (h x))] :
    Makes lo w (h <$> p) :=
  r

instance (priority := 1500) of_still [partless : Partless α] (p : Parse α) [still : Still W p] :
    Makes lo w p where
  holds {g} _ s stands :=
    ⟨⟨w, Course.refl w, (p g s).1, inferInstance⟩, rfl, Course.moves stands (still.leads g s)⟩

end Makes

/-! ## Readings from certain states -/

/-- A reading makes its nodes where the state is such as a property tells. -/
class MakesWhen (T : ParserState → Prop) (lo : Nat) (w : W) [Parted α] (p : Parse α) : Prop where
  holds : ∀ {g}, Laid W g → ∀ {s}, Course.At w s → T s →
    ∃ x : Got lo w α, (p g s).1 = x.value ∧ Course.At x.stage (p g s).2

def ParserState.IsOn (kind : Kind) (s : ParserState) : Prop := s.scanner.token = kind

namespace MakesWhen

variable {T : ParserState → Prop}

instance (priority := 500) of_makes [makes : Makes lo w p] : MakesWhen T lo w p :=
  ⟨fun link _ stands _ => makes.holds link stands⟩

theorem seq (first : MakesWhen T i w p) (rest : ∀ x : Got i w α, Makes lo x.stage (f x.value)) :
    MakesWhen T lo w (p >>= f) where
  holds {g} link s stands such := by
    obtain ⟨x, value, stands⟩ := first.holds link stands such
    obtain ⟨y, value', stands'⟩ := (rest x).holds link stands
    rw [Parse.bind_run, value]
    exact ⟨{ y with before := Course.trans x.before y.before }, value', stands'⟩

theorem seq_still {α : Type} {p : Parse α} {f : α → Parse β} (first : Still W p)
    (keeps : ∀ {s t}, Course.Moves W s t → T s → T t) (rest : ∀ x, MakesWhen T lo w (f x)) :
    MakesWhen T lo w (p >>= f) where
  holds {g} link s stands such :=
    (rest _).holds link (Course.moves stands (first.leads g s)) (keeps (first.leads g s) such)

theorem seq_here {f : Nat → Parse β} (rest : ∀ x : Spot w, MakesWhen T lo x.stage (f x.pos)) :
    MakesWhen T lo w (Parse.nodePos >>= f) where
  holds {g} link s stands such := by
    obtain ⟨b, before, stands, eq⟩ := Course.here stands
    obtain ⟨y, value, stands⟩ := (rest ⟨b, before, s.scanner.fullStart, eq⟩).holds link stands such
    exact ⟨{ y with before := Course.trans before y.before }, value, stands⟩

theorem lower (h : MakesWhen T i w p) (low : AtMost W lo i) : MakesWhen T lo w p where
  holds link _ stands such :=
    have ⟨x, value, stands⟩ := h.holds link stands such
    ⟨⟨x.stage, x.before, x.value, inferInstance⟩, value, stands⟩

theorem seq_flags {f : TokenFlags → Parse β} (rest : ∀ flags, MakesWhen T lo w (f flags)) :
    MakesWhen T lo w (Parse.tokenFlags >>= f) where
  holds {_} link s stands such := (rest s.scanner.flags).holds link stands such

theorem choose {c : Prop} {_ : Decidable c} {p q : Parse α} (yes : c → MakesWhen T lo w p)
    (no : ¬ c → MakesWhen T lo w q) : MakesWhen T lo w (if c then p else q) := by
  split
  · exact yes ‹_›
  · exact no ‹_›

theorem form_seq {α : Type} {p : Parse α} {f : α → Parse Form} {g : Form → Parse β}
    (r : MakesWhen T lo w (p >>= fun x => f x >>= g)) : MakesWhen T lo w ((p >>= f) >>= g) :=
  r

/-- A template is scanned again from the start of its first or next piece. -/
theorem rescan {kind : Kind} {report : Bool} {f : Unit → Parse β} (some : kind ≠ .endOfFileToken)
    (rest : Makes lo w (f ())) :
    MakesWhen (ParserState.IsOn kind) lo w (Parse.modifyScanner (·.rescanTemplate report) >>= f) where
  holds {_} link _ stands on :=
    rest.holds link (Course.rescans report stands fun ended => some (on.symm.trans ended))

end MakesWhen

namespace Makes

theorem seq_token {f : Kind → Parse β} (rest : ∀ kind, MakesWhen (ParserState.IsOn kind) lo w (f kind)) :
    Makes lo w (Parse.token >>= f) :=
  ⟨fun link s stands => (rest s.scanner.token).holds link stands rfl⟩

theorem seq_tokenIs {kind : Kind} {f : Bool → Parse β} (yes : MakesWhen (ParserState.IsOn kind) lo w (f true))
    (no : Makes lo w (f false)) : Makes lo w (Parse.tokenIs kind >>= f) where
  holds {g} link s stands := by
    change ∃ x : Got lo w β, (f (s.scanner.token == kind) g s).1 = x.value ∧
      Course.At x.stage (f (s.scanner.token == kind) g s).2
    cases found : s.scanner.token == kind with
    | true => exact yes.holds link stands (eq_of_beq found)
    | false => exact no.holds link stands

end Makes

/-! ## Loops -/

theorem MakesSuch.loop {I J : α → ParserState → Prop} {g : Productions} {f : Unit → α → Parse (ForInStep α)} {x : α}
    (built : Built lo w x)
    (body : ∀ x : Got lo w α, MakesSuch (I x.value) (Leads.Round I J) g lo x.stage (f () x.value))
    (stalled : ∀ x s, I x s → J x { s with stalled := true }) :
    MakesSuch (I x) J g lo w (forIn Parse.Rounds.rounds x f) := by
  have stalls {b : W} {s : ParserState} (stands : Course.At b s) : Course.At b { s with stalled := true } :=
    Course.moves stands (Motion.notes ⟨rfl, rfl, rfl, rfl, fun _ => id, .refl _, rfl, fun _ => rfl⟩)
  have run (left : Nat) (x : Got lo w α) :
      MakesSuch (I x.value) J g lo x.stage (Parse.Rounds.run (f ()) left x.value) := by
    induction left generalizing x with
    | zero => exact fun s stands holds => ⟨{ x with before := Course.refl _ }, rfl, stalls stands, stalled _ _ holds⟩
    | succ left ih =>
      intro s stands holds
      obtain ⟨⟨stage, before, value', built⟩, value, stands', such⟩ := body x stands holds
      rw [Parse.Rounds.run_succ, value]
      cases value' with
      | done y => exact ⟨⟨stage, before, y, ⟨built.holds⟩⟩, rfl, stands', such⟩
      | yield y =>
        have held : Built lo stage y := ⟨built.holds⟩
        dsimp only
        split
        · exact ⟨⟨stage, before, y, held⟩, rfl, stalls stands', stalled _ _ such⟩
        · obtain ⟨z, value, stands, such⟩ := ih ⟨stage, Course.trans x.before before, y, held⟩ stands' such
          exact ⟨{ z with before := Course.trans before z.before }, value, stands, such⟩
  exact fun _ stands holds => run _ ⟨w, Course.refl w, x, built⟩ stands holds

namespace Makes

theorem loop {f : Unit → α → Parse (ForInStep α)} {x : α} (built : Built lo w x)
    (body : ∀ x : Got lo w α, Makes lo x.stage (f () x.value)) : Makes lo w (forIn Parse.Rounds.rounds x f) where
  holds link := by
    refine MakesSuch.makes (MakesSuch.loop (I := fun _ => Anywhere) (J := fun _ => Anywhere) built (fun x => ?_)
      fun _ _ => id)
    refine ((body x).holds link).such fun s _ => ?_
    cases (f () x.value _ s).1 <;> trivial

instance rounds (f : Unit → α → Parse (ForInStep α)) (x : α) [built : Built lo w x]
    [body : ∀ x : Got lo w α, Makes lo x.stage (f () x.value)] : Makes lo w (forIn Parse.Rounds.rounds x f) :=
  .loop built body

end Makes

end

end ScriptFrontend
