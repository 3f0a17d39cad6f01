import ScriptFrontend.Proofs.Motion.Grammar
import ScriptFrontend.Proofs.Reading.Context

/-!
# Readings that keep the context

A reading finds a context set up around it: flags, open lists, whether it is at the top level, and how deep
it is nested. It may read parts of the text in another context, but it leaves the one that it found,
whatever it read and whatever it could not read. There is a rule for each way to put readings together; who
changes the context is one of those ways, and puts it right.
-/

namespace ScriptFrontend

open Diagnostic (Fault)
open Parse

set_option synthInstance.maxSize 4096

variable {α β : Type}

def SameContext (s t : ParserState) : Prop := t.context = s.context

instance : Motion SameContext where
  refl _ := rfl
  trans h h' := h'.trans h
  notes h := h.context
  goes _ := rfl
  returns h := h
  asks _ _ := rfl

def Productions.KeepContext (g : Productions) : Prop := ∀ n s, SameContext s (g.read n s).2

/-- A reading leaves the context that it found if the nonterminals that it calls do. -/
class KeepsContext (p : Parse α) : Prop where
  holds : ∀ {g : Productions}, g.KeepContext → ∀ s, SameContext s (p g s).2

namespace KeepsContext

variable {p : Parse α} {f : α → Parse β}

instance (priority := low) of_still [still : Goes SameContext p] : KeepsContext p := ⟨fun _ s => still.leads _ s⟩

theorem seq (first : KeepsContext p) (rest : ∀ x, KeepsContext (f x)) : KeepsContext (p >>= f) where
  holds keep s := ((rest _).holds keep _).trans (first.holds keep s)

instance bind [first : KeepsContext p] [rest : ∀ x, KeepsContext (f x)] : KeepsContext (p >>= f) := .seq first rest

instance (priority := 900) bind_option {p : Parse (Option α)} {f : Option α → Parse β} [first : KeepsContext p]
    [nothing : KeepsContext (f none)] [something : ∀ x, KeepsContext (f (some x))] : KeepsContext (p >>= f) :=
  .seq first fun
    | none => nothing
    | some x => something x

theorem choose {c : Prop} {_ : Decidable c} {p q : Parse α} (yes : c → KeepsContext p) (no : ¬ c → KeepsContext q) :
    KeepsContext (if c then p else q) := by
  split
  · exact yes ‹_›
  · exact no ‹_›

instance ite (c : Prop) {_ : Decidable c} (p q : Parse α) [yes : KeepsContext p] [no : KeepsContext q] :
    KeepsContext (if c then p else q) :=
  .choose (fun _ => yes) fun _ => no

instance map (h : α → β) [r : KeepsContext p] : KeepsContext (h <$> p) := ⟨r.holds⟩

instance or (p q : Parse Bool) [first : KeepsContext p] [rest : KeepsContext q] : KeepsContext (p <||> q) := by
  refine .seq first fun x => ?_
  cases x with
  | true => exact inferInstanceAs (KeepsContext (pure true : Parse Bool))
  | false => exact rest

instance and (p q : Parse Bool) [first : KeepsContext p] [rest : KeepsContext q] : KeepsContext (p <&&> q) := by
  refine .seq first fun x => ?_
  cases x with
  | true => exact rest
  | false => exact inferInstanceAs (KeepsContext (pure false : Parse Bool))

instance scanner (f : Scanner → Scanner) : KeepsContext (modifyScanner f) := ⟨fun _ _ => rfl⟩

instance finishAt (kind : Kind) (pos stop : Nat) (form : Form) : KeepsContext (Parse.finishAt kind pos stop form) :=
  ⟨fun _ _ => rfl⟩

instance call? (n : Nonterminal) : KeepsContext (Parse.call? n) := ⟨fun keep s => keep n s⟩

/-! ## Loops -/

/-- Rounds that leave the context leave it for the next one. -/
theorem run {f : α → Parse (ForInStep α)} (body : ∀ x, KeepsContext (f x)) (left : Nat) (x : α) :
    KeepsContext (Parse.Rounds.run f left x) := by
  induction left generalizing x with
  | zero =>
    unfold Parse.Rounds.run
    infer_instance
  | succ left ih =>
    unfold Parse.Rounds.run
    refine .seq inferInstance fun start => .seq (body x) fun step => ?_
    cases step with
    | done y => infer_instance
    | yield y => exact .seq inferInstance fun stop => .choose (fun _ => inferInstance) fun _ => ih y

theorem loop {f : Unit → α → Parse (ForInStep α)} {x : α} (body : ∀ x, KeepsContext (f () x)) :
    KeepsContext (forIn Parse.Rounds.rounds x f) where
  holds keep s := (run body _ x).holds keep s

instance rounds (f : Unit → α → Parse (ForInStep α)) (x : α) [body : ∀ x, KeepsContext (f () x)] :
    KeepsContext (forIn Parse.Rounds.rounds x f) :=
  .loop body

/-! ## Going back -/

instance lookAhead (p : Parse α) [r : KeepsContext p] : KeepsContext (Parse.lookAhead p) where
  holds keep s := r.holds keep s

instance attempt (p : Parse (Option α)) [r : KeepsContext p] : KeepsContext (Parse.attempt p) where
  holds {g} keep s := by
    cases found : (p g s).1 with
    | none =>
      rw [Parse.attempt_none found]
      exact r.holds keep s
    | some x =>
      rw [Parse.attempt_some found]
      exact r.holds keep s

instance (p : Parse Bool) [KeepsContext p] : KeepsContext (attemptTest p) := by
  unfold attemptTest
  infer_instance

/-! ## Changed contexts -/

/-- A reading in a context that is entered before and left afterwards. -/
theorem around {p q : Parse α} (r : KeepsContext p) (enter : ParserState → ParserState)
    (leave : ParserState → ParserState → ParserState)
    (run : ∀ g s, (q g s).2 = leave s (p g (enter s)).2)
    (back : ∀ {s t}, SameContext (enter s) t → SameContext s (leave s t)) : KeepsContext q where
  holds keep s := by
    rw [run]
    exact back (r.holds keep (enter s))

theorem withFlags {p q : Parse α} (r : KeepsContext p) (enter : NodeFlags → NodeFlags)
    (leave : NodeFlags → NodeFlags → NodeFlags) (back : ∀ c, leave c (enter c) = c)
    (run : ∀ g s, (q g s).2 =
      let t := (p g { s with contextFlags := enter s.contextFlags }).2
      { t with contextFlags := leave s.contextFlags t.contextFlags }) : KeepsContext q := by
  refine r.around (fun s => { s with contextFlags := enter s.contextFlags })
    (fun s t => { t with contextFlags := leave s.contextFlags t.contextFlags }) run fun {s t} same => ?_
  have flags : t.contextFlags = enter s.contextFlags := congrArg ParserState.Context.flags same
  change { t.context with flags := leave s.contextFlags t.contextFlags } = s.context
  rw [same, flags, back]
  rfl

instance inside (flags : NodeFlags) (p : Parse α) [r : KeepsContext p] : KeepsContext (Parse.inside flags p) :=
  r.withFlags (fun c => c.set (flags.without c) true) (fun c d => d.set (flags.without c) false)
    (fun c => c.set_added flags) fun _ _ => rfl

instance outside (flags : NodeFlags) (p : Parse α) [r : KeepsContext p] : KeepsContext (Parse.outside flags p) :=
  r.withFlags (fun c => c.set (flags &&& c) false) (fun c d => d.set (flags &&& c) true)
    (fun c => c.set_removed flags) fun _ _ => rfl

instance inSignature (isGenerator isAsync : Bool) (p : Parse α) [r : KeepsContext p] :
    KeepsContext (Parse.inSignature isGenerator isAsync p) :=
  r.withFlags
    (fun c => (c.set NodeFlags.yieldContext isGenerator).set NodeFlags.awaitContext isAsync)
    (fun c d => (d.set NodeFlags.yieldContext (c.meets NodeFlags.yieldContext)).set
      NodeFlags.awaitContext (c.meets NodeFlags.awaitContext))
    (fun c => c.set_signature isGenerator isAsync) fun _ _ => rfl

instance beneathTop (p : Parse α) [r : KeepsContext p] : KeepsContext (Parse.beneathTop p) := by
  refine r.around (fun s => { s with topLevel := false }) (fun s t => { t with topLevel := s.topLevel })
    (fun _ _ => rfl) fun {s t} same => ?_
  change { t.context with topLevel := s.topLevel } = s.context
  rw [same]
  rfl

instance withOpenList (context : ListContext) (p : Parse α) [r : KeepsContext p] :
    KeepsContext (Parse.withOpenList context p) := by
  refine r.around (fun s => { s with openLists := context :: s.openLists })
    (fun s t => { t with openLists := s.openLists }) (fun _ _ => rfl) fun {s t} same => ?_
  change { t.context with openLists := s.openLists } = s.context
  rw [same]
  rfl

theorem nested (p : Parse α) [r : KeepsContext p] : KeepsContext (do
    modify fun s => { s with depth := s.depth + 1 }
    let result ← p
    modify fun s => { s with depth := s.depth - 1 }
    return result) := by
  refine r.around (fun s => { s with depth := s.depth + 1 }) (fun _ t => { t with depth := t.depth - 1 })
    (fun _ _ => rfl) fun {s t} same => ?_
  have depth : t.depth = s.depth + 1 := congrArg ParserState.Context.depth same
  change { t.context with depth := t.depth - 1 } = s.context
  rw [same, depth]
  rfl

instance deeper (tooDeep p : Parse α) [KeepsContext tooDeep] [KeepsContext p] :
    KeepsContext (Parse.deeper tooDeep p) := by
  unfold Parse.deeper
  exact .seq inferInstance fun s => .choose (fun _ => inferInstance) fun _ => nested p

end KeepsContext

/-! ## Names, lists and modifiers -/

instance (n : Nonterminal) : KeepsContext (call n) := by
  unfold call
  infer_instance

instance (isTagged : Bool) : KeepsContext (rescanTemplate isTagged) := by
  unfold rescanTemplate
  infer_instance

instance (kind : Kind) (pos : Nat) (form : Form) : KeepsContext (finish kind pos form) := by
  unfold finish
  infer_instance

instance (items : Array Node) (pos : Nat) : KeepsContext (listFrom items pos) := by
  unfold listFrom
  infer_instance

instance : KeepsContext missingList := by
  unfold missingList
  infer_instance

instance (kind : Kind) (atNodePos : Bool) (fault : Fault) (args : List String) :
    KeepsContext (missingNode kind atNodePos fault args) := by
  unfold missingNode
  infer_instance

instance : KeepsContext tokenNode := by
  unfold tokenNode
  infer_instance

instance (kind : Kind) : KeepsContext (optionalToken? kind) := by
  unfold optionalToken?
  infer_instance

instance (kind : Kind) (fault : Option Fault) : KeepsContext (expectedToken kind fault) := by
  unfold expectedToken
  cases fault <;> infer_instance

instance : KeepsContext takeIdentifier := by
  unfold takeIdentifier
  infer_instance

instance (mayBe : Bool) (fault : Option Fault) : KeepsContext (identifierIf mayBe fault) := by
  unfold identifierIf
  cases fault <;> infer_instance

instance : KeepsContext identifier := by
  unfold identifier
  infer_instance

instance (fault : Fault) : KeepsContext (identifierOr fault) := by
  unfold identifierOr
  infer_instance

instance : KeepsContext identifierName := by
  unfold identifierName
  infer_instance

instance : KeepsContext privateName := by
  unfold privateName
  infer_instance

instance (allowWords allowPrivate : Bool) : KeepsContext (nameAfterDot allowWords allowPrivate) := by
  unfold nameAfterDot
  infer_instance

instance (allowWords : Bool) (fault : Option Fault) : KeepsContext (entityName allowWords fault) := by
  unfold entityName
  infer_instance

instance (n : Node) : KeepsContext (takeOver n) := by
  unfold takeOver
  have counts : KeepsContext (modify fun s => { s with
      counts := { s.counts with reused := s.counts.reused + 1 } } : Parse Unit) := ⟨fun _ _ => rfl⟩
  infer_instance

instance (context : ListContext) (read : Parse (Option Node)) [KeepsContext read] :
    KeepsContext (readElement context read) := by
  unfold readElement
  have counts : KeepsContext (modify fun s => { s with
      counts := { s.counts with reparsed := s.counts.reparsed + 1 } } : Parse Unit) := ⟨fun _ _ => rfl⟩
  infer_instance

instance (context : ListContext) (read : Parse (Option Node)) [KeepsContext read] :
    KeepsContext (element? context read) := by
  unfold element?
  infer_instance

instance (context : ListContext) (read : Parse Node) [KeepsContext read] : KeepsContext (listOf context read) := by
  unfold listOf
  infer_instance

instance (context : ListContext) (read : Parse (Option Node)) (allowSemicolons : Bool) [KeepsContext read] :
    KeepsContext (commaItems context read allowSemicolons) := by
  unfold commaItems
  infer_instance

instance (context : ListContext) (read : Parse (Option Node)) (allowSemicolons : Bool) [KeepsContext read] :
    KeepsContext (commaListOf? context read allowSemicolons) := by
  unfold commaListOf?
  infer_instance

instance (context : ListContext) (read : Parse Node) (allowSemicolons : Bool) [KeepsContext read] :
    KeepsContext (commaListOf context read allowSemicolons) := by
  unfold commaListOf
  infer_instance

instance (context : ListContext) (read : Parse Node) (opening closing : Kind) [KeepsContext read] :
    KeepsContext (bracketedList context read opening closing) := by
  unfold bracketedList
  infer_instance

/-- A documentation comment is read in a context of its own, from which the reading goes back. -/
instance (c : Comment) : KeepsContext (docComment c) where
  holds {g} keep s := by
    let entered := { s with contextFlags := s.contextFlags ||| NodeFlags.doc, cursor := none }
    have same := keep (.docComment c.pos c.stop) entered
    change { (g.read (.docComment c.pos c.stop) entered).2.context with flags := s.contextFlags } = s.context
    rw [same]
    rfl

instance (comments : List Comment) : KeepsContext (docComments comments) := by
  induction comments with
  | nil =>
    unfold docComments
    infer_instance
  | cons c rest ih =>
    unfold docComments
    infer_instance

instance (hasDoc : Bool) (n : Node) : KeepsContext (withDocs hasDoc n) := by
  unfold withDocs
  refine .choose (fun _ => inferInstance) fun _ => .seq inferInstance fun _ => ?_
  refine .choose (fun _ => .seq inferInstance fun source => ?_) fun _ => inferInstance
  split <;> infer_instance

instance : KeepsContext lead := by
  unfold lead
  infer_instance

instance (l : Lead) (kind : Kind) (form : Form) : KeepsContext (finishLed l kind form) := by
  unfold finishLed
  infer_instance

instance (kind : Kind) (p : Parse Form) [KeepsContext p] : KeepsContext (spanning kind p) := by
  unfold spanning
  infer_instance

instance (kind : Kind) (p : Parse Form) [KeepsContext p] : KeepsContext (documented kind p) := by
  unfold documented
  infer_instance

instance (mode : ModifierMode) (seenStatic : Bool) : KeepsContext (modifier? mode seenStatic) := by
  unfold modifier?
  infer_instance

instance : KeepsContext decorator? := by
  unfold decorator?
  infer_instance

instance (mode : ModifierMode) (before : Array Node) : KeepsContext (modifiersAfter mode before) := by
  unfold modifiersAfter
  infer_instance

instance (before : Array Node) : KeepsContext (decoratorsAfter before) := by
  unfold decoratorsAfter
  infer_instance

instance (mode : ModifierMode) (decorators : Nat) (items : Array Node) :
    KeepsContext (moreModifiers mode decorators items) := by
  unfold moreModifiers
  infer_instance

instance (mode : ModifierMode) : KeepsContext (modifiers mode) := by
  unfold modifiers
  infer_instance

instance (kind : Kind) : KeepsContext (literalOf kind) := by
  unfold literalOf
  infer_instance

instance : KeepsContext literal := by
  unfold literal
  infer_instance

instance : KeepsContext nameLiteral := by
  unfold nameLiteral
  refine .seq inferInstance fun n => ?_
  dsimp only
  split <;> infer_instance

instance : KeepsContext assignment := by
  unfold assignment
  infer_instance

instance : KeepsContext expressionSequence := by
  unfold expressionSequence
  infer_instance

instance : KeepsContext freeExpression := by
  unfold freeExpression
  infer_instance

instance : KeepsContext initializer? := by
  unfold initializer?
  infer_instance

instance : KeepsContext computedName := by
  unfold computedName
  infer_instance

instance : KeepsContext propertyName := by
  unfold propertyName
  refine .seq inferInstance fun k => ?_
  split <;> infer_instance

instance : KeepsContext bindingIdentifier? := by
  unfold bindingIdentifier?
  infer_instance

instance : KeepsContext importAttribute := by
  unfold importAttribute
  infer_instance

instance (word : Option Kind) : KeepsContext (importAttributes word) := by
  unfold importAttributes
  cases word <;> infer_instance

instance : KeepsContext importAttributes? := by
  unfold importAttributes?
  infer_instance

end ScriptFrontend
