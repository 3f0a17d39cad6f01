import ScriptFrontend.Grammar.Lead
import ScriptFrontend.Proofs.Reading.Context
import ScriptFrontend.Proofs.Reading.Finish
import ScriptFrontend.Proofs.Token.Comment

/-!
# Documentation comments before nodes

The comments before a node are read aside: the reading goes on where it stood. They stand where the
node begins or after that, so that reading them is a call that may be made.
-/

namespace ScriptFrontend

open Parse

variable {D : Discipline} {α : Type} {m : World D} {Q : World D → α → Prop}

class Discipline.Leads (D : Discipline) (l : Lead) : Prop where
  covers : D.Covers l.pos 0

namespace Parse

/-- Behind a documentation comment the reading stands where it stood, with what was reported in the comment
kept aside. -/
theorem docComment_state (c : Comment) (g : Productions) (s : ParserState) : (docComment c g s).2 =
    let t := (call? (.docComment c.pos c.stop) g { s with
      contextFlags := s.contextFlags ||| NodeFlags.doc, cursor := none }).2
    { t with
      contextFlags := s.contextFlags
      diagnostics := t.diagnostics.truncate s.diagnostics.size
      docDiagnostics := ((t.diagnostics.splitOff s.diagnostics.size).1.foldl noteDocDiagnostic
        t.docDiagnostics)
      cursor := s.cursor
      errorPending := s.errorPending
      scanner := (t.scanner.restrict 0 t.scanner.text.utf8ByteSize).restore s.scanner.save } := rfl

theorem docComment_peeks {c : Comment} {pos : Nat} (isFrom : c.IsFrom D.text pos)
    (above : D.Covers pos 0) : Peeks D m (docComment c) where
  holds {g} link s stands := by
    have entered : D.Stands { s with
        contextFlags := s.contextFlags ||| NodeFlags.doc, cursor := none } :=
      ⟨stands.placed, stands.text, fun _ mem => (nomatch mem), stands.going⟩
    obtain ⟨left, keeps⟩ :=
      link.docComment isFrom.order isFrom.inside (above.mono isFrom.start) entered
    have run := docComment_state c g s
    dsimp only at run
    generalize (call? (.docComment c.pos c.stop) g { s with
        contextFlags := s.contextFlags ||| NodeFlags.doc, cursor := none }).2 = t at left keeps run
    have text : t.scanner.text = s.scanner.text := left.text.trans stands.text.symm
    have size : s.scanner.stop ≤ t.scanner.text.utf8ByteSize := by
      rw [text]
      exact stands.placed.fits
    rw [run]
    refine ⟨⟨⟨?_, left.text, stands.cursor, left.going⟩, stands.offset, stands.token⟩,
      { keeps with
        contextFlags := rfl
        diagnostics := (Diagnostic.Collection.truncate_items keeps.diagnostics).symm ▸
          List.prefix_rfl
        distinct := fun distinct => (keeps.distinct distinct).truncate _
        stop := size
        whole := fun whole => whole.restore
          (t := t.scanner.restrict 0 t.scanner.text.utf8ByteSize) text (Nat.le_refl _) _ }⟩
    exact Scanner.restore_placed
      (t := t.scanner.restrict 0 t.scanner.text.utf8ByteSize) stands.placed (Nat.le_refl _) left.placed.skips text size _

theorem docComments_peeks {pos : Nat} (above : D.Covers pos 0) :
    ∀ {comments : List Comment}, (∀ c ∈ comments, c.IsFrom D.text pos) →
      Peeks D m (docComments comments)
  | [], _ => .pure []
  | c :: rest, isFrom => by
    have first : Peeks D m (docComment c) := docComment_peeks (isFrom c (List.mem_cons_self ..)) above
    have others : Peeks D m (docComments rest) :=
      docComments_peeks above fun c mem => isFrom c (List.mem_cons_of_mem _ mem)
    unfold docComments
    infer_instance

end Parse

theorem Node.docComments_isFrom (n : Node) (text : String) :
    ∀ c ∈ n.docComments text, c.IsFrom text n.pos := by
  intro c mem
  have found := List.mem_of_mem_filter mem
  split at found
  · exact (List.mem_append.mp found).elim Comment.trailing_isFrom Comment.leading_isFrom
  all_goals first
    | exact (List.mem_append.mp found).elim Comment.trailing_isFrom Comment.leading_isFrom
    | exact Comment.leading_isFrom found

namespace Parse

theorem withDocs_peeks {hasDoc : Bool} {n : Node} (above : D.Covers n.pos 0) :
    Peeks D m (withDocs hasDoc n) := by
  have read : Peeks D m (docComments (n.docComments D.text)) :=
    docComments_peeks above (n.docComments_isFrom D.text)
  unfold withDocs
  split
  · infer_instance
  · refine @Peeks.bind _ _ _ _ isJavaScript _ _ fun script => ?_
    split
    · refine .seq_sourceText ?_
      split <;> infer_instance
    · infer_instance

end Parse

/-! ## Leads -/

/-- A lead that is known to begin where the production did or after that. -/
structure LeadIn (D : Discipline) where
  lead : Lead
  leads : D.Leads lead

instance (l : LeadIn D) : D.Leads l.lead := l.leads

instance (w : World D) (hasDoc : Bool) (modifiers : Option NodeList) :
    D.Leads ⟨w.offset, hasDoc, modifiers⟩ :=
  ⟨w.above⟩

instance (l : Lead) (hasDoc : Bool) (modifiers : Option NodeList) [leads : D.Leads l] :
    D.Leads ⟨l.pos, hasDoc, modifiers⟩ :=
  ⟨leads.covers⟩

instance (l : Lead) (flags : NodeFlags) [leads : D.Leads l] : D.Leads (l.addFlags flags) :=
  ⟨leads.covers⟩

instance (priority := 1500) Reads.bind_lead (f : Lead → Parse α)
    [rest : ∀ l : LeadIn D, Reads D Q m (f l.lead)] : Reads D Q m (lead >>= f) := by
  have first : Reads D (fun w l => w = m ∧ l.pos = m.offset) m lead :=
    ⟨fun _ _ stands => ⟨m, .refl m, stands, .refl _, rfl, stands.offset⟩⟩
  refine .seq first fun w l ⟨same, pos⟩ => ?_
  rw [same]
  exact rest ⟨l, ⟨pos ▸ m.above⟩⟩

theorem Parse.finishAt_pos (kind : Kind) (pos stop : Nat) (form : Form) (g : Productions)
    (s : ParserState) : (finishAt kind pos stop form g s).1.pos = pos := rfl

theorem Parse.finishedLed_peeks {l : Lead} [leads : D.Leads l] (kind : Kind) (stop : Nat)
    (form : Form) (hasDoc : Bool) (change : Node → Node) (kept : ∀ n, (change n).pos = n.pos) :
    Peeks D m (do withDocs hasDoc (change (← finishAt kind l.pos stop form))) where
  holds {g} link s stands := by
    have finished : Peeks D m (finishAt kind l.pos stop form) := inferInstance
    obtain ⟨stands, follows⟩ := finished.holds link stands
    have above : D.Covers (change (finishAt kind l.pos stop form g s).1).pos 0 := by
      rw [kept, finishAt_pos]
      exact leads.covers
    obtain ⟨stands, follows'⟩ := (withDocs_peeks above).holds link stands
    exact ⟨stands, follows.trans follows'⟩

theorem Parse.finishedHere_peeks {l : Lead} [D.Leads l] (kind : Kind) (form : Form) (hasDoc : Bool)
    (change : Node → Node) (kept : ∀ n, (change n).pos = n.pos) :
    Peeks D m (do withDocs hasDoc (change (← finish kind l.pos form))) := by
  have (stop : Nat) : Peeks D m (do withDocs hasDoc (change (← finishAt kind l.pos stop form))) :=
    finishedLed_peeks kind stop form hasDoc change kept
  change Peeks D m (nodePos >>= fun stop => finishAt kind l.pos stop form >>= fun n =>
    withDocs hasDoc (change n))
  infer_instance

instance (l : Lead) (kind : Kind) (form : Form) [D.Leads l] : Peeks D m (finishLed l kind form) :=
  finishedHere_peeks kind form l.hasDoc id fun _ => rfl

theorem Node.addFlags_pos (n : Node) (flags : NodeFlags) : (n.addFlags flags).pos = n.pos := by
  cases n
  rfl

/-! ## Spans -/

instance (kind : Kind) (p : Parse Form) [Runs D m p] : Runs D m (spanning kind p) := by
  unfold spanning
  infer_instance

instance (kind : Kind) (p : Parse Form) [past : Reads D (Behind m.offset) m p] :
    Steps D m (spanning kind p) := by
  unfold spanning
  refine ⟨.seq_nodePos (.seq past fun w form past => ?_)⟩
  have : w.world.After m.offset := ⟨past⟩
  infer_instance

instance (kind : Kind) (p : Parse Form) [Runs D m p] : Runs D m (documented kind p) := by
  unfold documented
  infer_instance

end ScriptFrontend
