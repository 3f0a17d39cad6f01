import ScriptFrontend.Proofs.Making.Rules

/-!
# Nodes that are finished

A node is finished where it ends, from its start and from what was made since. Going back, changes of the
context and documentation keep what was made.
-/

namespace ScriptFrontend

open Diagnostic (Fault)
open Parse

set_option synthInstance.maxSize 4096

variable {α W : Type} [Course W] {lo : Nat} {w : W}

/-! ## Finishing -/

/-- A node of the kind may have a shape that is for nodes of a certain kind. -/
class Kind.Suits (kind : Kind) (certain : Option Kind) : Prop where
  eq : ∀ k ∈ certain, kind = k

instance (kind : Kind) : kind.Suits none := ⟨nofun⟩

instance (kind : Kind) : kind.Suits (some kind) := ⟨fun _ mem => Option.some.inj mem⟩

/-- A node with the shape has no name of its own, or a blank one. -/
class Shape.Nameless (name : Option String) : Prop where
  eq : ∀ text ∈ name, text = ""

instance : Shape.Nameless none := ⟨nofun⟩

instance : Shape.Nameless (some "") := ⟨fun _ mem => (Option.some.inj mem).symm⟩

class Form.Untagged (isTagged : Bool) : Prop where
  eq : isTagged = false

instance : Form.Untagged false := ⟨rfl⟩

class Form.Empty (slots : List Slot) : Prop where
  eq : slots = []

instance : Form.Empty [] := ⟨rfl⟩

theorem MakesIn.finishAt {g : Productions} {kind : Kind} {pos stop : Nat} {form : Form} {s : ParserState}
    (range : Course.Places W → pos ≤ stop ∧ stop ≤ Course.offset w)
    (parts : ∀ slot ∈ form.slots, Built pos w slot ∧ (Course.Places W → slot.EndsBy stop)) (low : AtMost W lo pos)
    (suits : form.Suits kind s) (opens : Course.Places W → form.Opens)
    (lines : Course.Places W → Course.Unmoved W → form.Lines) (stands : Course.At w s) :
    ∃ x : Got lo w Node, (Parse.finishAt kind pos stop form g s).1 = x.value ∧
      Course.At x.stage (Parse.finishAt kind pos stop form g s).2 := by
  have holds (slot : Slot) (mem : slot ∈ form.slots) :
      Course.Holds pos w slot ∧ (Course.Places W → slot.EndsBy stop) :=
    have ⟨part, ends⟩ := parts slot mem
    ⟨part.holds slot (List.mem_singleton_self slot), ends⟩
  obtain ⟨b, before, holds, stands⟩ := Course.finish (g := g) stands range holds suits opens lines
  exact ⟨⟨b, before, _, (Built.of_node holds).lower low⟩, rfl, stands⟩

/-- What has no tags needs nothing to be known of the state. -/
theorem Form.Suits.of_untagged {kind : Kind} {form : Form} {s : ParserState}
    [suits : kind.Suits form.shape.kind?] [nameless : Shape.Nameless form.shape.name?]
    [untagged : Form.Untagged form.shape.isTagged] : form.Suits kind s where
  kind := suits.eq
  name text mem := .inl (nameless.eq text mem)
  paired := .inr (Form.isPaired_of_untagged untagged.eq)

theorem Makes.finishAt {kind : Kind} {pos stop : Nat} {form : Form} [kind.Suits form.shape.kind?]
    [Shape.Nameless form.shape.name?] [untagged : Form.Untagged form.shape.isTagged]
    (range : Course.Places W → pos ≤ stop ∧ stop ≤ Course.offset w)
    (parts : ∀ slot ∈ form.slots, Built pos w slot ∧ (Course.Places W → slot.EndsBy stop)) (low : AtMost W lo pos) :
    Makes lo w (Parse.finishAt kind pos stop form) where
  holds _ _ stands := MakesIn.finishAt range parts low .of_untagged
    (fun _ => Form.opens_of_untagged untagged.eq) (fun _ _ => Form.lines_of_untagged untagged.eq) stands

theorem MakesSuch.finishAt {P : ParserState → Prop} {g : Productions} {kind : Kind} {pos stop : Nat} {form : Form}
    (range : Course.Places W → pos ≤ stop ∧ stop ≤ Course.offset w)
    (parts : ∀ slot ∈ form.slots, Built pos w slot ∧ (Course.Places W → slot.EndsBy stop)) (low : AtMost W lo pos)
    (suits : ∀ s, P s → form.Suits kind s) (opens : Course.Places W → form.Opens)
    (lines : Course.Places W → Course.Unmoved W → form.Lines) :
    MakesSuch P (fun n _ => n.pos = pos ∧ n.stop = stop) g lo w (Parse.finishAt kind pos stop form) := by
  intro s stands holds
  obtain ⟨x, value, stands⟩ := MakesIn.finishAt range parts low (suits s holds) opens lines stands
  exact ⟨x, value, stands, value ▸ ⟨rfl, rfl⟩⟩

theorem Built.ends_here {pos stop : Nat} {form : Form} (built : Built pos w form.slots)
    (here : AtMost W (Course.offset w) stop) (slot : Slot) (mem : slot ∈ form.slots) :
    Built pos w slot ∧ (Course.Places W → slot.EndsBy stop) := by
  have part := built.of_mem mem
  refine ⟨part, fun places => ?_⟩
  have ends := part.ends places
  cases slot with
  | absent => trivial
  | node n => exact Nat.le_trans ends (here.le places)
  | list head items => exact Nat.le_trans ends (here.le places)

instance (kind : Kind) (pos stop : Nat) (form : Form) [low : AtMost W lo pos]
    [past : AtMost W pos (Course.offset w)] [here : AtMost W (Course.offset w) stop]
    [high : AtMost W stop (Course.offset w)] [built : Built pos w form.slots]
    [kind.Suits form.shape.kind?] [Shape.Nameless form.shape.name?]
    [Form.Untagged form.shape.isTagged] : Makes lo w (finishAt kind pos stop form) :=
  .finishAt (fun places => ⟨Nat.le_trans (past.le places) (here.le places), high.le places⟩)
    (built.ends_here here) low

instance (kind : Kind) (pos : Nat) (form : Form) [low : AtMost W lo pos] [past : AtMost W pos (Course.offset w)]
    [empty : Form.Empty form.slots] [kind.Suits form.shape.kind?]
    [Shape.Nameless form.shape.name?] [Form.Untagged form.shape.isTagged] :
    Makes lo w (finishAt kind pos pos form) :=
  .finishAt (fun places => ⟨Nat.le_refl pos, past.le places⟩) (empty.eq ▸ List.forall_mem_nil _) low

instance (kind : Kind) (pos : Nat) (form : Form) [AtMost W lo pos] [AtMost W pos (Course.offset w)]
    [Built pos w form.slots] [kind.Suits form.shape.kind?] [Shape.Nameless form.shape.name?]
    [Form.Untagged form.shape.isTagged] : Makes lo w (finish kind pos form) := by
  unfold finish
  exact .seq_here fun x => inferInstance

theorem MakesSuch.finish {P : ParserState → Prop} {g : Productions} {kind : Kind} {pos : Nat} {form : Form}
    [low : AtMost W lo pos] [past : AtMost W pos (Course.offset w)] [built : Built pos w form.slots]
    (suits : ∀ s, P s → form.Suits kind s) (opens : Course.Places W → form.Opens)
    (lines : Course.Places W → Course.Unmoved W → form.Lines) :
    MakesSuch P (fun n _ => n.pos = pos) g lo w (Parse.finish kind pos form) := by
  refine .seq_here fun stop => ?_
  have here : AtMost W (Course.offset stop.stage) stop.pos := inferInstance
  have high : AtMost W stop.pos (Course.offset stop.stage) := inferInstance
  have behind : AtMost W pos (Course.offset stop.stage) := inferInstance
  have held : Built pos stop.stage form.slots := inferInstance
  refine .imp (.finishAt (fun places => ?_) (held.ends_here here) low suits opens lines) fun _ _ => And.left
  exact ⟨(behind.trans here).le places, high.le places⟩

instance (items : Array Node) (pos : Nat) [AtMost W lo pos] [AtMost W pos (Course.offset w)] [Built pos w items] :
    Makes lo w (listFrom items pos) := by
  unfold listFrom
  exact .seq_here fun x => inferInstance

/-! From here on a reading stands behind the offset. -/

variable [AtMost W lo (Course.offset w)]

instance : Makes lo w missingList := by
  unfold missingList
  infer_instance

theorem Parse.missingForm_eq (kind : Kind) :
    (missingForm kind).slots = [] ∧ (missingForm kind).shape.kind? = none ∧
      Shape.Nameless (missingForm kind).shape.name? ∧ (missingForm kind).shape.isTagged = false := by
  unfold missingForm
  repeat' split
  all_goals exact ⟨rfl, rfl, inferInstance, rfl⟩

instance (kind : Kind) (atNodePos : Bool) (fault : Fault) (args : List String) :
    Makes lo w (missingNode kind atNodePos fault args) := by
  unfold missingNode
  obtain ⟨slots, shape, nameless, other⟩ := missingForm_eq kind
  have (i : Nat) (b : W) : Built i b (missingForm kind).slots := slots ▸ inferInstance
  have : kind.Suits (missingForm kind).shape.kind? := shape ▸ inferInstance
  have : Form.Untagged (missingForm kind).shape.isTagged := ⟨other⟩
  dsimp only
  infer_instance

/-! ## Expected tokens -/

instance : Makes lo w tokenNode := by
  unfold tokenNode
  infer_instance

instance (kind : Kind) : Makes lo w (optionalToken? kind) := by
  unfold optionalToken?
  infer_instance

instance (kind : Kind) (fault : Option Fault) : Makes lo w (expectedToken kind fault) := by
  unfold expectedToken
  cases fault <;> infer_instance

/-! ## Names -/

def ParserState.HasNoted (text : String) (s : ParserState) : Prop := text ∈ s.identifiers

namespace MakesWhen

omit [AtMost W lo (Course.offset w)]

variable [Parted α] {text : String}

instance seq_noted {β : Type} {p : Parse β} {f : β → Parse α} [first : Still W p]
    [rest : ∀ x, MakesWhen (ParserState.HasNoted text) lo w (f x)] :
    MakesWhen (ParserState.HasNoted text) lo w (p >>= f) :=
  .seq_still first (fun moves noted => Course.names moves noted) rest

instance (kind : Kind) (pos stop : Nat) (word : Option Kind) [low : AtMost W lo pos]
    [past : AtMost W pos (Course.offset w)] [here : AtMost W (Course.offset w) stop]
    [high : AtMost W stop (Course.offset w)] :
    MakesWhen (ParserState.HasNoted text) lo w (finishAt kind pos stop (.identifier text word)) where
  holds _ _ stands noted :=
    MakesIn.finishAt (fun places => ⟨Nat.le_trans (past.le places) (here.le places), high.le places⟩)
      (List.forall_mem_nil _) low ⟨nofun, fun _ mem => .inr (Option.some.inj mem ▸ noted), .inr trivial⟩
      (fun _ => nofun) (fun _ _ => nofun) stands

instance (kind : Kind) (pos : Nat) (word : Option Kind) [AtMost W lo pos] [AtMost W pos (Course.offset w)] :
    MakesWhen (ParserState.HasNoted text) lo w (finish kind pos (.identifier text word)) := by
  unfold finish
  exact .seq_here fun stop => inferInstance

end MakesWhen

omit [AtMost W lo (Course.offset w)] in
instance (priority := 1600) Makes.noting [Parted α] {text : String} {f : Unit → Parse α}
    [rest : ∀ x, MakesWhen (ParserState.HasNoted text) lo w (f x)] : Makes lo w (noteIdentifier text >>= f) where
  holds link s stands :=
    (rest ()).holds link (s := { s with identifiers := text :: s.identifiers })
      (Course.moves stands (Motion.notes
        ⟨rfl, rfl, rfl, rfl, fun _ => List.mem_cons_of_mem _, .refl _, rfl, id⟩)) (List.mem_cons_self ..)

instance : Makes lo w takeIdentifier := by
  unfold takeIdentifier
  infer_instance

instance (mayBe : Bool) (fault : Option Fault) : Makes lo w (identifierIf mayBe fault) := by
  unfold identifierIf
  cases fault <;> infer_instance

instance : Makes lo w identifier := by
  unfold identifier
  infer_instance

instance (fault : Fault) : Makes lo w (identifierOr fault) := by
  unfold identifierOr
  infer_instance

instance : Makes lo w identifierName := by
  unfold identifierName
  infer_instance

instance : Makes lo w privateName := by
  unfold privateName
  infer_instance

instance (allowWords allowPrivate : Bool) : Makes lo w (nameAfterDot allowWords allowPrivate) := by
  unfold nameAfterDot
  infer_instance

instance (allowWords : Bool) (fault : Option Fault) : Makes lo w (entityName allowWords fault) := by
  unfold entityName
  infer_instance

/-! ## Nonterminals -/

class Nonterminal.Plain (isDoc : Bool) : Prop where
  eq : isDoc = false

instance : Nonterminal.Plain false := ⟨rfl⟩

instance (n : Nonterminal) [plain : Nonterminal.Plain n.isDoc] : Makes lo w (call? n) :=
  ⟨fun link => (link.reads n plain.eq w).lower inferInstance⟩

instance (n : Nonterminal) [Nonterminal.Plain n.isDoc] : Makes lo w (call n) := by
  unfold call
  exact .seq_new inferInstance fun found => .seq_here fun pos => inferInstance

/-! ## Going back and context -/

section

variable [Parted α]

omit [AtMost W lo (Course.offset w)] in
theorem Makes.returns {p : Parse α} (h : Makes lo w p) {g : Productions} (link : Laid W g) {s : ParserState}
    (stands : Course.At w s) : ∃ b, Course.Before w b ∧ Course.At b ((p g s).2.takenBack s) := by
  obtain ⟨x, -, stands'⟩ := h.holds link stands
  exact Course.returns stands x.before stands'

instance (p : Parse α) [partless : Partless α] [reads : Makes lo w p] : Makes lo w (lookAhead p) where
  holds {g} link s stands := by
    obtain ⟨b, before, stands⟩ := reads.returns link stands
    exact ⟨⟨b, before, (p g s).1, inferInstance⟩, rfl, stands⟩

instance (p : Parse (Option α)) [reads : Makes lo w p] : Makes lo w (attempt p) where
  holds {g} link s stands := by
    cases found : (p g s).1 with
    | none =>
      obtain ⟨b, before, stands⟩ := reads.returns link stands
      rw [attempt_none found]
      exact ⟨⟨b, before, none, inferInstance⟩, rfl, stands⟩
    | some x =>
      rw [attempt_some found]
      exact reads.holds link stands

instance (p : Parse Bool) [Makes lo w p] : Makes lo w (attemptTest p) := by
  unfold attemptTest
  infer_instance

instance (flags : NodeFlags) (p : Parse α) [Makes lo w p] : Makes lo w (inside flags p) := by
  unfold inside
  infer_instance

instance (flags : NodeFlags) (p : Parse α) [Makes lo w p] : Makes lo w (outside flags p) := by
  unfold outside
  infer_instance

instance (isGenerator isAsync : Bool) (p : Parse α) [Makes lo w p] :
    Makes lo w (inSignature isGenerator isAsync p) := by
  unfold inSignature
  infer_instance

instance (tooDeep p : Parse α) [Makes lo w tooDeep] [Makes lo w p] : Makes lo w (deeper tooDeep p) := by
  unfold deeper
  have (f : ParserState → Nat) : Still W (modify fun s => { s with depth := f s } : Parse Unit) :=
    .turns (c := fun s => { s.context with depth := f s })
  infer_instance

instance (p : Parse α) [Makes lo w p] : Makes lo w (beneathTop p) := by
  unfold beneathTop
  have (top : Bool) : Still W (modify fun s => { s with topLevel := top } : Parse Unit) :=
    .turns (c := fun s => { s.context with topLevel := top })
  infer_instance

omit [AtMost W lo (Course.offset w)] in
theorem Makes.withOpenList {context : ListContext} {p : Parse α} (reads : Makes lo w p) :
    Makes lo w (Parse.withOpenList context p) := by
  unfold Parse.withOpenList
  have (lists : List ListContext) : Still W (modify fun s => { s with openLists := lists } : Parse Unit) :=
    .turns (c := fun s => { s.context with openLists := lists })
  infer_instance

instance (context : ListContext) (p : Parse α) [reads : Makes lo w p] : Makes lo w (withOpenList context p) :=
  reads.withOpenList

end

omit [AtMost W lo (Course.offset w)] in
theorem Makes.inside_form [Parted α] {flags : NodeFlags} {p : Parse Form} {f : Form → Parse α}
    (r : ∀ added : NodeFlags, Makes lo w (p >>= fun form => setContext false added >>= fun _ => f form)) :
    Makes lo w (inside flags p >>= f) := by
  change Makes lo w ((get : Parse ParserState) >>= fun s => setContext true (flags.without s.contextFlags) >>=
    fun _ => p >>= fun form => setContext false (flags.without s.contextFlags) >>= fun _ => f form)
  infer_instance

instance (priority := 1300) [Parted α] (flags : NodeFlags) (p : Parse Form) (f : Form → Parse α)
    [r : ∀ added : NodeFlags, Makes lo w (p >>= fun form => setContext false added >>= fun _ => f form)] :
    Makes lo w (inside flags p >>= f) :=
  .inside_form r

/-! ## Documentation -/

theorem Parse.docComments_hold {g : Productions} (link : Laid W g) (comments : List Comment) {w : W}
    {s : ParserState} (stands : Course.At w s) :
    ∃ b, Course.Before w b ∧ (∀ doc ∈ (docComments comments g s).1, Course.HoldsDoc b doc) ∧
      Course.At b (docComments comments g s).2 := by
  induction comments generalizing w s with
  | nil => exact ⟨w, Course.refl w, List.forall_mem_nil _, stands⟩
  | cons c rest ih =>
    obtain ⟨b, before, first, stands⟩ := Course.document c stands link.documents
    obtain ⟨d, before', others, stands⟩ := ih stands
    refine ⟨d, Course.trans before before', fun doc mem => ?_, stands⟩
    rcases List.mem_append.mp mem with here | behind
    · exact Course.docLater (first doc (Option.mem_toList.mp here)) before'
    · exact others doc behind

omit [AtMost W lo (Course.offset w)] in
instance (hasDoc : Bool) (n : Node) [built : Built lo w n] : Makes lo w (withDocs hasDoc n) := by
  unfold withDocs
  refine .choose (fun _ => inferInstance) fun _ => .seq_still inferInstance fun _ => ?_
  refine .choose (fun _ => .seq_still inferInstance fun source => ?_) fun _ => inferInstance
  split
  · infer_instance
  · refine ⟨fun link s stands => ?_⟩
    obtain ⟨b, before, docs, stands⟩ := docComments_hold link _ stands
    have later : Course.Holds lo b (.node n) := Course.later built.node before
    exact ⟨⟨b, before, _, .of_node (Course.withDocs later docs)⟩, rfl, stands⟩

/-- The modifiers that a lead holds were made behind its start. -/
class Leading (w : W) (led : Lead) : Prop where
  past : AtMost W led.pos (Course.offset w)
  modifiers : Built led.pos w led.modifiers

section

omit [AtMost W lo (Course.offset w)]

instance (priority := 40) (led : Lead) [h : Leading w led] : AtMost W led.pos (Course.offset w) := h.past

instance (priority := 40) (led : Lead) [h : Leading w led] : Built led.pos w led.modifiers := h.modifiers

instance (led : Lead) [past : AtMost W led.pos (Course.offset w)] [modifiers : Built led.pos w led.modifiers] :
    Leading w led :=
  ⟨past, modifiers⟩

instance (led : Lead) (flags : NodeFlags) [h : AtMost W lo led.pos] : AtMost W lo (led.addFlags flags).pos := h

instance (led : Lead) (flags : NodeFlags) [h : Leading w led] : Leading w (led.addFlags flags) where
  past := h.past
  modifiers := by
    have old := h.modifiers
    obtain ⟨pos, hasDoc, modifiers⟩ := led
    cases modifiers with
    | none => exact .of_nil rfl
    | some l =>
      obtain ⟨range, items⟩ := Course.list.mp (old.of_some rfl).list
      have marked : Course.Holds pos w (.list l.head (l.items.map (·.addFlags flags))) := by
        refine Course.list.mpr ⟨range, fun n mem => ?_⟩
        obtain ⟨n, inside, rfl⟩ := List.mem_map.mp mem
        have stop : (n.addFlags flags).stop = n.stop := by
          cases n
          rfl
        exact ⟨Course.addFlags flags (items n inside).1, stop ▸ (items n inside).2⟩
      exact ⟨(Built.of_slot marked).holds⟩

end

omit [AtMost W lo (Course.offset w)] in
instance (led : Lead) (kind : Kind) (form : Form) [AtMost W lo led.pos] [AtMost W led.pos (Course.offset w)]
    [Built led.pos w form.slots] [kind.Suits form.shape.kind?] [Shape.Nameless form.shape.name?]
    [Form.Untagged form.shape.isTagged] : Makes lo w (finishLed led kind form) := by
  unfold finishLed
  infer_instance

instance (priority := 1250) Makes.bind_lead [Parted α] {f : Lead → Parse α}
    [rest : ∀ (x : Spot w) (hasDoc : Bool), Makes x.pos x.stage (f ⟨x.pos, hasDoc, none⟩)] :
    Makes lo w (lead >>= f) := by
  change Makes lo w (nodePos >>= fun pos => tokenFlags >>= fun flags =>
    f ⟨pos, flags.has TokenFlags.precedingDoc, none⟩)
  infer_instance

theorem Makes.spanning {kind : Kind} {p : Parse Form}
    (r : ∀ x : Spot w, Makes x.pos x.stage (p >>= fun form => finish kind x.pos form)) :
    Makes lo w (Parse.spanning kind p) :=
  .seq_from r

instance (kind : Kind) (p : Parse Form)
    [r : ∀ x : Spot w, Makes x.pos x.stage (p >>= fun form => finish kind x.pos form)] :
    Makes lo w (spanning kind p) :=
  .spanning r

theorem MakesWhen.spanning {T : ParserState → Prop} {kind : Kind} {p : Parse Form}
    (r : ∀ x : Spot w, MakesWhen T x.pos x.stage (p >>= fun form => finish kind x.pos form)) :
    MakesWhen T lo w (Parse.spanning kind p) :=
  .seq_here fun x => (r x).lower inferInstance

instance (kind : Kind) (p : Parse Form)
    [r : ∀ (x : Spot w) (hasDoc : Bool),
      Makes x.pos x.stage (p >>= fun form => finishLed ⟨x.pos, hasDoc, none⟩ kind form)] :
    Makes lo w (documented kind p) := by
  unfold documented
  infer_instance

end ScriptFrontend
