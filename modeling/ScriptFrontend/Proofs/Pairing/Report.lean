import ScriptFrontend.Grammar.Access
import ScriptFrontend.Proofs.Making.DocTag
import ScriptFrontend.Proofs.Reading.Lead
import ScriptFrontend.Proofs.Tree.Contains
import ScriptFrontend.Proofs.Tree.Names

/-!
# The course of the reports

What was reported stays reported while a text is read: going back takes away no more than was reported on
the way, and what is reported in documentation is kept with that. So the stages of a course tell where
something was reported, and when an element or a fragment is finished that has no pair of tags, one of its
tags is among those places. Nothing is said of where nodes stand.

What is known of each element and each fragment in a tree when it is finished stays known when nodes above
it get more flags, documentation, or the mark of an optional chain.
-/

namespace ScriptFrontend

namespace Node

/-! ## Elements and fragments in a tree -/

/-- A node with tags is of the kind that its shape is for, and its form is such as a property tells. -/
structure HasTags (P : Form → Prop) (n : Node) : Prop where
  kind : ∀ k ∈ n.shape.kind?, n.kind = k
  form : n.shape.isTagged = true → P n.form

theorem form_untagged {n : Node} (other : n.shape.isTagged = false) : n.form.shape.isTagged = false := by
  rcases Form.shape_ofLayout n.shape n.slots with same | token
  · exact (congrArg Shape.isTagged same).trans other
  · exact congrArg (fun form : Form => form.shape.isTagged) token

/-- A property that holds of all forms without tags holds of the form of the node. -/
theorem HasTags.holds {P : Form → Prop} {n : Node} (h : n.HasTags P)
    (others : ∀ form : Form, form.shape.isTagged = false → P form) : P n.form := by
  cases tagged : n.shape.isTagged with
  | false => exact others _ (form_untagged tagged)
  | true => exact h.form tagged

def inner (docs : Bool) (n : Node) : List Node := n.children ++ if docs then n.docs else []

/-- A property holds of the form of each element and each fragment in a tree. -/
inductive EachTagged (docs : Bool) (P : Form → Prop) : Node → Prop
  | intro {n : Node} (here : n.HasTags P) (inner : ∀ m ∈ n.inner docs, EachTagged docs P m) : EachTagged docs P n

namespace EachTagged

variable {docs : Bool} {P Q : Form → Prop} {n m : Node}

theorem here (h : n.EachTagged docs P) : n.HasTags P := by
  cases h
  assumption

theorem mem_inner (h : n.EachTagged docs P) (mem : m ∈ n.inner docs) : m.EachTagged docs P := by
  cases h with
  | intro _ inner => exact inner m mem

theorem child (h : n.EachTagged docs P) (mem : m ∈ n.children) : m.EachTagged docs P :=
  h.mem_inner (List.mem_append_left _ mem)

theorem contains (h : n.EachTagged docs P) (inside : n.Contains m) : m.EachTagged docs P :=
  inside.closed (fun _ _ each mem => each.child mem) h

theorem mono (h : n.EachTagged docs P) (le : ∀ form, P form → Q form) : n.EachTagged docs Q := by
  induction h with
  | intro here _ ih => exact .intro ⟨here.kind, fun tagged => le _ (here.form tagged)⟩ ih

/-- It is known of all nodes in the tree, documentation included, if that counts. -/
theorem mem_preorderWithDocs (h : n.EachTagged true P) : ∀ m ∈ n.preorderWithDocs, m.EachTagged true P := by
  induction h with
  | @intro n here inner ih =>
    cases n with
    | mk head shape slots docs origin =>
      intro m mem
      rw [preorderWithDocs, preorderWithDocsSlots_eq, preorderWithDocsItems_eq, ← List.flatMap_append] at mem
      rcases List.mem_cons.mp mem with rfl | mem
      · exact .intro here inner
      · obtain ⟨k, held, inside⟩ := List.mem_flatMap.mp mem
        exact ih k held m inside

/-! ## Nodes that are finished, and changed later -/

theorem ofForm {head : Head} {form : Form} (kind : ∀ k ∈ form.shape.kind?, head.kind = k)
    (such : form.shape.isTagged = true → P form)
    (slots : ∀ slot ∈ form.slots, ∀ m ∈ slot.nodes, m.EachTagged docs P) :
    (Node.ofForm head form).EachTagged docs P := by
  refine .intro ⟨kind, fun tagged => ?_⟩ fun m mem => ?_
  · have same : (Node.ofForm head form).form = form := by
      cases form
      case jsxElement => rfl
      case jsxFragment => rfl
      all_goals cases tagged
    rw [same]
    exact such tagged
  · have : (Node.ofForm head form).inner docs = form.slots.flatMap Slot.nodes := by
      cases docs <;> exact List.append_nil _
    obtain ⟨slot, held, inside⟩ := List.mem_flatMap.mp (this ▸ mem)
    exact slots slot held m inside

theorem addFlags (h : n.EachTagged docs P) (flags : NodeFlags) : (n.addFlags flags).EachTagged docs P := by
  cases n
  exact .intro ⟨h.here.kind, h.here.form⟩ fun _ => h.mem_inner

theorem withDocs {news : List Node} (h : n.EachTagged docs P)
    (held : docs = true → ∀ doc ∈ news, doc.EachTagged docs P) : (n.withDocs news).EachTagged docs P := by
  cases n with
  | mk head shape slots olds origin =>
    refine .intro ⟨h.here.kind, h.here.form⟩ fun m mem => ?_
    rcases List.mem_append.mp mem with mem | mem
    · exact h.child mem
    · split at mem
      · exact held ‹_› m mem
      · cases mem

mutual

theorem joinChain : ∀ {n : Node}, n.EachTagged docs P → n.joinChain.1.EachTagged docs P
  | .mk head shape slots olds origin, h => by
    rw [Node.joinChain]
    dsimp only
    split
    · exact h
    split
    · exact h
    split
    · rename_i chain _
      refine .intro ⟨h.here.kind, fun tagged => ?_⟩ fun m mem => ?_
      · have kind := h.here.kind
        have chain : head.kind = .nonNullExpression := by simpa using chain
        change shape.isTagged = true at tagged
        change ∀ k ∈ shape.kind?, head.kind = k at kind
        cases shape
        case jsxElement => exact nomatch chain.symm.trans (kind _ rfl)
        case jsxFragment => exact nomatch chain.symm.trans (kind _ rfl)
        all_goals cases tagged
      · rcases List.mem_append.mp mem with mem | mem
        · exact joinChainSlots (fun m mem => h.child mem) m mem
        · exact h.mem_inner (List.mem_append_right _ mem)
    · exact h

theorem joinChainSlots : ∀ {slots : List Slot}, (∀ m ∈ slots.flatMap Slot.nodes, m.EachTagged docs P) →
    ∀ m ∈ (Node.joinChainSlots slots).1.flatMap Slot.nodes, m.EachTagged docs P
  | .node n :: rest, h, m, mem => by
    rw [Node.joinChainSlots, List.flatMap_cons] at mem
    rcases List.mem_append.mp mem with first | behind
    · cases List.mem_singleton.mp first
      exact joinChain (h n (List.mem_append_left _ (List.mem_singleton_self n)))
    · exact h m (List.mem_append_right _ behind)
  | [], h, m, mem => h m mem
  | .absent :: rest, h, m, mem => h m mem
  | .list head items :: rest, h, m, mem => h m mem

end

end EachTagged

end Node

/-! ## Reports -/

open Diagnostic (start?)
open Parse

structure Report where
  frame : Scanner.Frame
  places : List (Option Nat)
  docPlaces : List (Option Nat)
  stalled : Bool

namespace Report

variable {w b : Report} {s t : ParserState} {form : Form} {g : Productions}

def Has (w : Report) (offset : Nat) : Prop := some offset ∈ w.places ∨ some offset ∈ w.docPlaces

/-- The tags in a form are a pair, or it was reported that they are none. This may be missing where the
reading was cut short. -/
def Tells (w : Report) (form : Form) : Prop := w.stalled = true ∨ form.IsPaired w.frame w.Has

structure Before (w b : Report) : Prop where
  frame : b.frame = w.frame
  places : w.places <+: b.places
  docPlaces : w.docPlaces ⊆ b.docPlaces
  stalled : w.stalled = true → b.stalled = true

theorem Before.refl (w : Report) : w.Before w := ⟨rfl, List.prefix_refl _, fun _ => id, id⟩

theorem Before.trans {c : Report} (h : w.Before b) (h' : b.Before c) : w.Before c where
  frame := h'.frame.trans h.frame
  places := h.places.trans h'.places
  docPlaces := List.Subset.trans h.docPlaces h'.docPlaces
  stalled := h'.stalled ∘ h.stalled

theorem Tells.mono (h : w.Tells form) (frame : b.frame = w.frame) (has : ∀ offset, w.Has offset → b.Has offset)
    (stalled : w.stalled = true → b.stalled = true) : b.Tells form := by
  refine h.imp stalled fun paired => ?_
  rw [frame]
  exact paired.mono has

theorem Before.tells (h : w.Before b) (tells : w.Tells form) : b.Tells form :=
  tells.mono h.frame (fun _ => Or.imp (h.places.subset ·) (h.docPlaces ·)) h.stalled

/-! ## States -/

structure At (w : Report) (s : ParserState) : Prop where
  frame : s.scanner.frame = w.frame
  fresh : s.cursor = none
  distinct : s.diagnostics.IsDistinct
  places : w.places <+: s.diagnostics.places
  docPlaces : w.docPlaces ⊆ s.docDiagnostics.map start?
  stalled : w.stalled = true → s.stalled = true

def ofState (s : ParserState) : Report :=
  ⟨s.scanner.frame, s.diagnostics.places, s.docDiagnostics.map start?, s.stalled⟩

theorem at_ofState (fresh : s.cursor = none) (distinct : s.diagnostics.IsDistinct) : (ofState s).At s :=
  ⟨rfl, fresh, distinct, List.prefix_refl _, fun _ => id, id⟩

theorem At.before_ofState (h : w.At s) : w.Before (ofState s) := ⟨h.frame, h.places, h.docPlaces, h.stalled⟩

theorem has_ofState (distinct : s.diagnostics.IsDistinct) (offset : Nat) (reports : s.Reports offset) :
    (ofState s).Has offset :=
  .inl (Diagnostic.Collection.mem_places.mpr (distinct.hasStart_iff_mem.mp reports))

/-- Nothing of what was reported is lost, and no old tree is found. -/
structure Moves (s t : ParserState) : Prop where
  frame : t.scanner.frame = s.scanner.frame
  fresh : s.cursor = none → t.cursor = none
  names : s.identifiers ⊆ t.identifiers
  diagnostics : s.diagnostics.Grows t.diagnostics
  docDiagnostics : t.docDiagnostics = s.docDiagnostics
  stalled : s.stalled = true → t.stalled = true

instance : FreeMotion Moves where
  refl _ := ⟨rfl, id, fun _ => id, .refl _, rfl, id⟩
  trans h h' := ⟨h'.frame.trans h.frame, h'.fresh ∘ h.fresh, List.Subset.trans h.names h'.names,
    h.diagnostics.trans h'.diagnostics, h'.docDiagnostics.trans h.docDiagnostics, h'.stalled ∘ h.stalled⟩
  notes h := ⟨congrArg Scanner.frame h.scanner, fun fresh => h.cursor.trans fresh, h.names, h.diagnostics,
    h.docDiagnostics, h.stalled⟩
  goes h := ⟨h.frame, id, fun _ => id, .refl _, rfl, id⟩
  returns h := ⟨h.frame, h.fresh, h.names, h.diagnostics.truncate, h.docDiagnostics, h.stalled⟩
  asks _ held := ⟨rfl, fun fresh => (nomatch held.symm.trans fresh), fun _ => id, .refl _, rfl, id⟩
  turns _ _ := ⟨rfl, id, fun _ => id, .refl _, rfl, id⟩

theorem At.moves (h : w.At s) (moves : Moves s t) : w.At t where
  frame := moves.frame.trans h.frame
  fresh := moves.fresh h.fresh
  distinct := moves.diagnostics.distinct h.distinct
  places := h.places.trans moves.diagnostics.places
  docPlaces := moves.docDiagnostics ▸ h.docPlaces
  stalled := moves.stalled ∘ h.stalled

/-- What a report begins with is left when the diagnostics are cut back to those of an earlier state. -/
theorem At.prefix_truncate (h : w.At s) (before : w.Before b) (h' : b.At t) :
    w.places <+: (t.diagnostics.truncate s.diagnostics.size).places :=
  Diagnostic.Collection.prefix_truncate (before.places.trans h'.places)
    (Diagnostic.Collection.length_places s.diagnostics ▸ h.places.length_le)

/-! ## Documentation -/

theorem noteDocDiagnostic_keeps (kept : List Diagnostic) (d : Diagnostic) :
    kept ⊆ noteDocDiagnostic kept d ∧ d.start? ∈ (noteDocDiagnostic kept d).map start? := by
  unfold noteDocDiagnostic
  split
  · rename_i found
    obtain ⟨e, mem, same⟩ := List.any_eq_true.mp found
    have same := eq_of_beq (Bool.and_eq_true_iff.mp same).1
    exact ⟨fun _ => id, List.mem_map.mpr ⟨e, mem, same⟩⟩
  · refine ⟨List.subset_append_left _ _, List.mem_map_of_mem ?_⟩
    exact List.mem_append_right _ (List.mem_singleton_self d)

theorem docDiagnostics_keep (reported kept : List Diagnostic) :
    kept ⊆ reported.foldl noteDocDiagnostic kept ∧
      reported.map start? ⊆ (reported.foldl noteDocDiagnostic kept).map start? := by
  induction reported generalizing kept with
  | nil => exact ⟨fun _ => id, List.nil_subset _⟩
  | cons d reported ih =>
    obtain ⟨stays, noted⟩ := noteDocDiagnostic_keeps kept d
    obtain ⟨stays', noted'⟩ := ih (noteDocDiagnostic kept d)
    refine ⟨List.Subset.trans stays stays', ?_⟩
    rw [List.map_cons]
    exact List.cons_subset.mpr ⟨List.map_subset _ stays' noted, noted'⟩

/-- What is behind the names of the nonterminals tells of the tags in documentation. -/
def Documents (g : Productions) : Prop :=
  ∀ n : Nonterminal, n.isDoc = true → ∀ ⦃w : Report⦄ ⦃s : ParserState⦄, w.At s →
    ∃ b, w.Before b ∧ (∀ doc ∈ (Parse.call? n g s).1, doc.EachTagged true b.Tells) ∧ b.At (Parse.call? n g s).2

theorem At.docComment (h : w.At s) (c : Comment) (documents : Documents g) :
    ∃ b, w.Before b ∧ (∀ doc ∈ (Parse.docComment c g s).1, doc.EachTagged true b.Tells) ∧
      b.At (Parse.docComment c g s).2 := by
  obtain ⟨b, before, each, after⟩ := documents (.docComment c.pos c.stop) rfl
    (s := { s with contextFlags := s.contextFlags ||| NodeFlags.doc, cursor := none })
    ⟨h.frame, rfl, h.distinct, h.places, h.docPlaces, h.stalled⟩
  have value : (Parse.docComment c g s).1 = (Parse.call? (.docComment c.pos c.stop) g
    { s with contextFlags := s.contextFlags ||| NodeFlags.doc, cursor := none }).1 := rfl
  have state := docComment_state c g s
  rw [value, state]
  generalize (Parse.call? (.docComment c.pos c.stop) g
    { s with contextFlags := s.contextFlags ||| NodeFlags.doc, cursor := none }).2 = t at after
  obtain ⟨kept, noted⟩ := docDiagnostics_keep (t.diagnostics.splitOff s.diagnostics.size).1 t.docDiagnostics
  refine ⟨_, ⟨?_, h.prefix_truncate before after, ?_, ?_⟩, fun doc held => ?_, at_ofState h.fresh ?_⟩
  · exact after.frame.trans before.frame
  · exact List.Subset.trans before.docPlaces (List.Subset.trans after.docPlaces (List.map_subset _ kept))
  · exact after.stalled ∘ before.stalled
  · refine (each doc held).mono fun form tells => tells.mono after.frame (fun offset has => ?_) after.stalled
    rcases has with place | place
    · -- A place is among those that are left, or its diagnostic was taken to the documentation.
      have place : some offset ∈ t.diagnostics.places := after.places.subset place
      have split := Diagnostic.Collection.places_splitOff t.diagnostics s.diagnostics.size
      rw [← split] at place
      exact (List.mem_append.mp place).imp id (noted ·)
    · exact .inr (List.map_subset _ kept (after.docPlaces place))
  · exact after.distinct.truncate _

/-! ## The course -/

theorem At.finish (h : w.At s) {kind : Kind} (pos stop : Nat)
    (slots : ∀ slot ∈ form.slots, ∀ n ∈ slot.nodes, n.EachTagged true w.Tells) (suits : form.Suits kind s) :
    (Parse.finishAt kind pos stop form g s).1.EachTagged true (ofState s).Tells := by
  refine .ofForm suits.kind (fun _ => ?_) fun slot mem n held => ?_
  · exact suits.paired.imp id fun paired => paired.mono (has_ofState h.distinct)
  · exact (slots slot mem n held).mono fun _ => h.before_ofState.tells

instance : Course Report where
  Moves := Moves
  motion := inferInstance
  names := Moves.names
  Places := False
  Unmoved := False
  offset _ := 0
  Before := Before
  refl := .refl
  trans := .trans
  offset_le _ := nofun
  At := At
  Holds _ w slot := ∀ n ∈ slot.nodes, n.EachTagged true w.Tells
  HoldsDoc w doc := doc.EachTagged true w.Tells
  Documents := Documents
  moves := At.moves
  here {w _} stands := ⟨w, .refl w, stands, nofun⟩
  returns {w _ _ t} stands before stands' := ⟨w, .refl w, stands'.frame.trans before.frame, stands'.fresh,
    stands'.distinct.truncate _, stands.prefix_truncate before stands',
    List.Subset.trans before.docPlaces stands'.docPlaces, stands'.stalled ∘ before.stalled⟩
  rescans report stands _ :=
    stands.moves ⟨Scanner.frame_land _ _, id, fun _ => id, .refl _, rfl, id⟩
  later held before n mem := (held n mem).mono fun _ => before.tells
  lower held _ := held
  absent _ _ := nofun
  empty _ := List.forall_mem_singleton.mpr (.intro ⟨nofun, nofun⟩ nofun)
  list := ⟨fun held => ⟨nofun, fun n mem => ⟨List.forall_mem_singleton.mpr (held n mem), nofun⟩⟩,
    fun held n mem => (held.2 n mem).1 n (List.mem_singleton_self n)⟩
  start held := held
  range _ := nofun
  part {_ _ n slot} held mem := by
    refine ⟨fun m inside => ?_, nofun⟩
    exact (held n (List.mem_singleton_self n)).child (List.mem_flatMap.mpr ⟨slot, mem, inside⟩)
  opens _ := nofun
  lines _ := nofun
  addFlags flags held := List.forall_mem_singleton.mpr ((List.forall_mem_singleton.mp held).addFlags flags)
  joinChain held := List.forall_mem_singleton.mpr (List.forall_mem_singleton.mp held).joinChain
  withDocs held docs :=
    List.forall_mem_singleton.mpr ((List.forall_mem_singleton.mp held).withDocs fun _ => docs)
  docLater held before := held.mono fun _ => before.tells
  finish {w s g kind pos stop form} stands _ parts suits _ _ := by
    refine ⟨ofState s, stands.before_ofState, List.forall_mem_singleton.mpr ?_, ?_⟩
    · exact stands.finish pos stop (fun slot mem => (parts slot mem).1) suits
    · exact ⟨rfl, stands.fresh, stands.distinct, List.prefix_refl _, fun _ => id, id⟩
  document c stands documents := stands.docComment c documents
  take {w s t g context n} stands found := by
    rcases Parse.oldElement?_run context g s with same | ⟨c, held, -⟩
    · cases same.symm.trans found
    · cases stands.fresh.symm.trans held

theorem built_of_option {lo : Nat} {x : Option Node} (each : ∀ n ∈ x, n.EachTagged true w.Tells) : Built lo w x := by
  cases x with
  | none => infer_instance
  | some n =>
    have : Built lo w n := .of_node (List.forall_mem_singleton.mpr (each n rfl))
    infer_instance

theorem each_of_option {lo : Nat} {x : Option Node} (built : Built lo w x) : ∀ n ∈ x, n.EachTagged true w.Tells := by
  rintro n held
  exact (built.of_some held).node n (List.mem_singleton_self n)

instance : Course.Placeless Report where
  nowhere := id
  documents {g} := by
    refine ⟨fun documents n doc w s stands => ?_, fun documents n doc w s stands => ?_⟩
    · obtain ⟨b, before, each, stands⟩ := documents n doc stands
      exact ⟨⟨b, before, _, built_of_option each⟩, rfl, stands⟩
    · obtain ⟨x, value, stands⟩ := documents n doc w stands
      exact ⟨x.stage, x.before, value ▸ each_of_option x.built, stands⟩
  restricts _ _ stands := stands.moves ⟨rfl, id, fun _ => id, .refl _, rfl, id⟩

end Report

end ScriptFrontend
