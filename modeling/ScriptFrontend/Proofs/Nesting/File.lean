import ScriptFrontend.Proofs.Making.Production
import ScriptFrontend.Proofs.Reading.File
import ScriptFrontend.Proofs.Tree.Cursor
import ScriptFrontend.Proofs.Tree.Nested

/-!
# Nested files

The tree that is read from a text is nested and as long as the text, whether elements of an old tree are
taken over or not.

The text of a scanner is that of the whole reading; only the window on it changes. So documentation, which
is read in a window of its own, leaves the text as it is.

While a text is read, all nodes that were made lie before the token that is read next, each with its
parts in its range. An element of an old tree is taken over with its range, which lies behind what was
read before, because it begins with the next token.
-/

namespace ScriptFrontend

open Parse

namespace Scanner.Frame

/-- The frame of the scanner stays, and no names are lost. -/
structure Stays (s t : ParserState) : Prop where
  frame : t.scanner.frame = s.scanner.frame
  names : s.identifiers ⊆ t.identifiers

instance : FreeMotion Stays where
  refl _ := ⟨rfl, fun _ => id⟩
  trans h h' := ⟨h'.frame.trans h.frame, List.Subset.trans h.names h'.names⟩
  notes h := ⟨congrArg Scanner.frame h.scanner, h.names⟩
  goes h := ⟨h.frame, fun _ => id⟩
  returns h := ⟨h.frame, h.names⟩
  asks _ _ := ⟨rfl, fun _ => id⟩
  turns _ _ := ⟨rfl, fun _ => id⟩

/-- What is behind the names of the nonterminals keeps the frame where it reads documentation. -/
def Documents (g : Productions) : Prop :=
  ∀ n : Nonterminal, n.isDoc = true → ∀ s, (call? n g s).2.scanner.frame = s.scanner.frame

/-- A reading stays in the frame of its scanner. Nothing is said of the nodes that it makes. -/
instance : Course Frame where
  Moves := Stays
  motion := inferInstance
  names := Stays.names
  Places := False
  Unmoved := False
  offset _ := 0
  Before := Eq
  refl := Eq.refl
  trans := Eq.trans
  offset_le _ := nofun
  At w s := s.scanner.frame = w
  Holds _ _ _ := True
  HoldsDoc _ _ := True
  Documents := Documents
  moves at_s stays := stays.frame.trans at_s
  here {w _} at_s := ⟨w, rfl, at_s, nofun⟩
  returns {w _ _ _} _ before at_t := ⟨w, rfl, at_t.trans before.symm⟩
  rescans _ at_s _ := (frame_land _ _).trans at_s
  later _ _ := trivial
  lower _ _ := trivial
  absent _ _ := trivial
  empty _ := trivial
  list := by
    refine ⟨fun _ => ⟨nofun, fun _ _ => ⟨trivial, nofun⟩⟩, fun _ => trivial⟩
  start _ := trivial
  range _ := nofun
  part _ _ := ⟨trivial, nofun⟩
  opens _ := nofun
  lines _ := nofun
  addFlags _ _ := trivial
  joinChain _ := trivial
  withDocs _ _ := trivial
  docLater _ _ := trivial
  finish {w _ _ _ _ _ _} at_s _ _ _ _ _ := ⟨w, rfl, trivial, at_s⟩
  document {w _ _} c at_s documents :=
    ⟨w, rfl, fun _ _ => trivial, (documents (.docComment c.pos c.stop) rfl _).trans at_s⟩
  take {w s t g context n} at_s found := by
    have look : Goes Stays (oldElement? context) := inferInstance
    have looked := (look.leads g s).frame
    rw [found] at looked
    have skip : Goes Stays skipToken := inferInstance
    have skipped := (skip.leads g { t with scanner := t.scanner.moveTo n.stop }).frame
    exact ⟨w, rfl, trivial, skipped.trans (looked.trans at_s)⟩

instance : Course.Placeless Frame where
  nowhere := id
  documents {g} := by
    refine ⟨fun documents n doc w s at_s => ?_, fun documents n doc s => ?_⟩
    · exact ⟨⟨w, rfl, _, ⟨fun _ _ => trivial⟩⟩, rfl, (documents n doc s).trans at_s⟩
    · obtain ⟨x, -, at_t⟩ := documents n doc s.scanner.frame rfl
      exact at_t.trans x.before.symm
  restricts _ _ at_s := at_s

/-- Documentation keeps the frame, however deep it is read. -/
theorem documents_upTo (depth : Nat) : Documents (.upTo depth) := (Laid.of_placeless (W := Frame) depth).documents

end Scanner.Frame

/-! ## Cursors -/

namespace ElementCursor

/-- The tree of a cursor is nested and as large as a text; what the cursor stands on is in it, where it was
asked for. -/
structure Finds (size : Nat) (c : ElementCursor) : Prop where
  tree : c.root.LiesIn 0 size
  current : ∀ n ∈ c.current, c.root.Contains n
  ahead : ∀ n ∈ c.ahead, c.root.Contains n
  starts : ∀ p ∈ c.lastPosition, ∀ n ∈ c.current, n.pos = p

variable {size position : Nat} {c : ElementCursor} {n : Node}

theorem Finds.of_nothing (tree : c.root.LiesIn 0 size) (current : c.current = none) (ahead : c.ahead = []) :
    c.Finds size := by
  refine ⟨tree, ?_, ?_, ?_⟩
  · simp [current]
  · simp [ahead]
  · simp [current]

theorem Finds.ofRoot {root : Node} (tree : root.LiesIn 0 size) : (ofRoot root).Finds size := by
  rw [ElementCursor.ofRoot]
  split
  · exact .of_nothing tree rfl rfl
  · rename_i n rest items
    obtain ⟨head, list⟩ := Node.exists_list_of_firstStatement items
    have inside (m : Node) (mem : m ∈ n :: rest) : root.Contains m :=
      .ofChild (Node.mem_children_of_list list mem) (.refl m)
    exact ⟨tree, fun m same => inside m (by cases same; exact List.mem_cons_self ..),
      fun m mem => inside m (List.mem_cons_of_mem _ mem), fun p held => absurd held (Option.not_mem_none p)⟩

/-- A cursor that was asked stands on what begins where it was asked for. -/
theorem Finds.nodeAt (finds : c.Finds size) (position : Nat) : (c.nodeAt position).2.Finds size ∧
    (c.nodeAt position).1 = (c.nodeAt position).2.current ∧
      ∀ n ∈ (c.nodeAt position).1, n.pos = position := by
  rw [ElementCursor.nodeAt]
  split
  · rename_i same
    have same : c.lastPosition = some position := by simpa using same
    exact ⟨finds, rfl, finds.starts position same⟩
  · have next : (c.advance position).root.LiesIn 0 size ∧
        (∀ n ∈ (c.advance position).current, (c.advance position).root.Contains n) ∧
        ∀ n ∈ (c.advance position).ahead, (c.advance position).root.Contains n := by
      rcases c.advance_cases position with stays | ⟨n, next, rest, same, ahead, ends, moves⟩
      · rw [stays]
        exact ⟨finds.tree, finds.current, finds.ahead⟩
      · rw [moves]
        have inside := ahead ▸ finds.ahead
        exact ⟨finds.tree, fun m same => by cases same; exact inside _ (List.mem_cons_self ..),
          fun m mem => inside m (List.mem_cons_of_mem _ mem)⟩
    obtain ⟨tree, current, ahead⟩ := next
    dsimp only
    split
    · rename_i stands
      have starts : ∀ n ∈ (c.advance position).current, n.pos = position := by
        intro n same
        rw [Option.mem_def.mp same] at stands
        exact eq_of_beq stands
      exact ⟨⟨tree, current, ahead, fun p same => by cases same; exact starts⟩, rfl, starts⟩
    · rw [ElementCursor.search]
      split
      · rename_i n rest found
        obtain ⟨starts, reaches⟩ := Node.reaches_of_elementAt? _ found
        have inside (m : Node) (mem : m ∈ n :: rest) : (c.advance position).root.Contains m := by
          obtain ⟨owner, head, items, contains, list, held⟩ := reaches.hasElement mem
          exact contains.trans (.ofChild (Node.mem_children_of_list list held) (.refl m))
        have starts : ∀ m ∈ some n, m.pos = position := by
          intro m same
          cases same
          exact starts
        refine ⟨⟨tree, fun m same => ?_, fun m mem => inside m (List.mem_cons_of_mem _ mem),
          fun p same => ?_⟩, rfl, starts⟩
        · cases same
          exact inside n (List.mem_cons_self ..)
        · cases same
          exact starts
      · exact ⟨.of_nothing tree rfl rfl, rfl, fun n held => absurd held (Option.not_mem_none n)⟩

theorem Finds.answer (finds : c.Finds size) (found : (c.nodeAt position).1 = some n) :
    n.pos = position ∧ n.LiesIn n.pos n.stop ∧ n.stop ≤ size := by
  obtain ⟨finds', same, starts⟩ := finds.nodeAt position
  have contains := finds'.current n (same ▸ found)
  have lies := finds'.tree.inside contains
  have high := finds'.tree.high
  exact ⟨starts n found, ⟨Nat.le_refl _, lies.forward, Nat.le_refl _, lies.nested⟩, Nat.le_trans lies.high high⟩

end ElementCursor

/-! ## How far a text was read -/

/-- To go on is to scan the next token, and to report what is wrong with it and with the last one. -/
theorem Parse.skipToken_scans {R : ParserState → ParserState → Prop} [Motion R] (g : Productions)
    (s : ParserState) :
    ∃ t, s.Notes t ∧ R { t with scanner := s.scanner.scan } (skipToken g s).2 := by
  have rest : Goes R (do drainErrors; token) := inferInstance
  have run : (skipToken g s).2 = (nextToken g s).2 := rfl
  have run' : (nextToken g s).2 = ((if s.scanner.token.isWord && s.scanner.flags.meets
        (TokenFlags.unicodeEscape ||| TokenFlags.extendedUnicodeEscape) then
      errorAt s.scanner.tokenStart s.scanner.pos .escapedKeyword [] >>= fun _ => nextTokenUnchecked
    else nextTokenUnchecked : Parse Kind) g s).2 := rfl
  rw [run, run']
  split
  · exact ⟨(errorAt s.scanner.tokenStart s.scanner.pos .escapedKeyword [] g s).2,
      ⟨rfl, rfl, rfl, rfl, fun _ => id, .addUniqueStart _ _, rfl, id⟩, rest.leads g _⟩
  · exact ⟨s, ⟨rfl, rfl, rfl, rfl, fun _ => id, .refl _, rfl, id⟩, rest.leads g _⟩

/-- The text that is read, and how far it was read. -/
structure Front where
  frame : Scanner.Frame
  offset : Nat

namespace Front

def size (w : Front) : Nat := w.frame.text.utf8ByteSize

structure Before (w b : Front) : Prop where
  frame : b.frame = w.frame
  offset : w.offset ≤ b.offset

theorem Before.refl (w : Front) : w.Before w := ⟨rfl, Nat.le_refl _⟩

theorem Before.trans {w b d : Front} (h : w.Before b) (h' : b.Before d) : w.Before d :=
  ⟨h'.frame.trans h.frame, Nat.le_trans h.offset h'.offset⟩

/-- All of the text is read, and the next token is behind the front. -/
structure At (w : Front) (s : ParserState) : Prop where
  placed : s.scanner.Placed
  frame : s.scanner.frame = w.frame
  stop : s.scanner.stop = w.size
  offset : w.offset ≤ s.scanner.fullStart
  cursor : ∀ c ∈ s.cursor, c.Finds w.size

/-- The reading goes on in its text, and cursors find their elements. -/
structure Moves (s t : ParserState) : Prop where
  scanner : s.scanner.GoesTo t.scanner
  cursor : ∀ size, (∀ c ∈ s.cursor, c.Finds size) → ∀ c ∈ t.cursor, c.Finds size
  names : s.identifiers ⊆ t.identifiers

instance : FreeMotion Moves where
  refl s := ⟨.of_same rfl rfl rfl, fun _ => id, fun _ => id⟩
  trans h h' := ⟨h.scanner.trans h'.scanner, fun size => h'.cursor size ∘ h.cursor size,
    List.Subset.trans h.names h'.names⟩
  notes {s t} h := ⟨h.scanner ▸ .of_same rfl rfl rfl, fun _ => h.cursor ▸ id, h.names⟩
  goes h := ⟨h, fun _ => id, fun _ => id⟩
  returns {s t} h := by
    refine ⟨⟨h.scanner.frame, fun placed => ?_⟩, h.cursor, h.names⟩
    exact ((Scanner.GoesTo.of_same (s := s.scanner) (t := t.scanner.restore s.scanner.save) rfl h.scanner.frame
      (h.scanner.moves placed).stop).moves placed)
  asks pos held := by
    refine ⟨.of_same rfl rfl rfl, fun size finds c same => ?_, fun _ => id⟩
    cases same
    exact ((finds _ held).nodeAt pos).1
  turns _ _ := ⟨.of_same rfl rfl rfl, fun _ => id, fun _ => id⟩

theorem At.text {w : Front} {s : ParserState} (h : w.At s) : s.scanner.text.utf8ByteSize = w.size :=
  congrArg (fun frame : Scanner.Frame => frame.text.utf8ByteSize) h.frame

theorem At.moves {w : Front} {s t : ParserState} (h : w.At s) (moves : Moves s t) : w.At t :=
  have on := moves.scanner.moves h.placed
  ⟨on.placed, moves.scanner.frame.trans h.frame, on.stop.trans h.stop, Nat.le_trans h.offset on.forward,
    moves.cursor _ h.cursor⟩

/-- Where a scanner rests in its text, the reading stands behind that when it has gone on. -/
theorem at_skipToken {w : Front} {s : ParserState} (g : Productions) (rests : s.scanner.Rests)
    (frame : s.scanner.frame = w.frame) (stop : s.scanner.stop = w.size) (offset : w.offset ≤ s.scanner.pos)
    (cursor : ∀ c ∈ s.cursor, c.Finds w.size) : w.At (skipToken g s).2 := by
  obtain ⟨t, notes, moves⟩ := skipToken_scans (R := Moves) g s
  obtain ⟨placed, -, stop', start, -⟩ := rests.scan
  refine At.moves ⟨placed, Scanner.frame_scan.trans frame, stop'.trans stop, ?_, notes.cursor ▸ cursor⟩ moves
  exact start ▸ offset

/-- A part of a node lies behind an offset, before the front. -/
def Holds (lo : Nat) (w : Front) (slot : Slot) : Prop := slot.LiesIn lo w.offset

variable {lo : Nat} {w b : Front} {slot : Slot} {n : Node} {s t : ParserState}

theorem holds_part (h : n.LiesIn lo w.offset) (mem : slot ∈ n.slots) :
    Holds n.pos w slot ∧ slot.EndsBy n.stop := by
  have part := h.slot mem
  refine ⟨part.widen (Nat.le_refl _) h.high, ?_⟩
  cases slot with
  | absent => trivial
  | node m => exact Node.LiesIn.high part
  | list head items => exact part.1.2.2

/-- A node over parts that lie in its range is nested. -/
theorem liesIn_ofForm (head : Head) {form : Form} {hi : Nat} (range : head.pos ≤ head.stop)
    (high : head.stop ≤ hi)
    (parts : ∀ slot ∈ form.slots, Holds head.pos w slot ∧ slot.EndsBy head.stop) (opens : form.Opens) :
    (Node.ofForm head form).LiesIn head.pos hi := by
  have inside (slot : Slot) (mem : slot ∈ form.slots) : slot.LiesIn head.pos head.stop := by
    obtain ⟨holds, ends⟩ := parts slot mem
    cases slot with
    | absent => trivial
    | node m => exact ⟨Node.LiesIn.low holds, Node.LiesIn.forward holds, ends, Node.LiesIn.nested holds⟩
    | list h items => exact ⟨⟨holds.1.1, holds.1.2.1, ends⟩, holds.2⟩
  refine ⟨Nat.le_refl _, range, high,
    .intro ⟨fun slot mem => (inside slot mem).isBetween, fun tag l closing is => ?_⟩ fun m mem => ?_⟩
  · obtain ⟨shape, slots⟩ := Node.form_eq_jsxElement.mp is
    cases form
    case jsxElement tag' l' closing' =>
      have slots : [Slot.node tag', .list l'.head l'.items, .node closing'] =
        [.node tag, .list l.head l.items, .node closing] := slots
      cases l
      cases l'
      cases slots
      exact opens _ _ _ rfl
    all_goals cases shape
  · obtain ⟨slot, held, among⟩ := List.mem_flatMap.mp mem
    exact (inside slot held).isNested among

/-- Documentation is read in a window of its own, behind which the reading stands where it stood before. -/
theorem At.docComment (h : w.At s) (c : Comment) {g : Productions} (documents : Scanner.Frame.Documents g) :
    w.At (Parse.docComment c g s).2 := by
  let t := (Parse.call? (.docComment c.pos c.stop) g
    { s with contextFlags := s.contextFlags ||| NodeFlags.doc, cursor := none }).2
  have frame : t.scanner.frame = s.scanner.frame := documents (.docComment c.pos c.stop) rfl _
  obtain ⟨text, skips⟩ := Scanner.Frame.mk.inj frame
  have same : t.scanner.text.utf8ByteSize = w.size :=
    congrArg (fun frame : Scanner.Frame => frame.text.utf8ByteSize) (frame.trans h.frame)
  let back := t.scanner.restrict 0 t.scanner.text.utf8ByteSize
  have placed : (back.restore s.scanner.save).Placed :=
    Scanner.restore_placed (t := back) h.placed (Nat.le_refl _) (skips.trans h.placed.skips) text
      (h.stop.trans same.symm).le _
  exact ⟨placed, frame.trans h.frame, same, h.offset, h.cursor⟩

/-- An element is taken over where the reading stands. -/
theorem At.take {g : Productions} {context : ListContext} (h : w.At s)
    (found : oldElement? context g s = (some n, t)) :
    ∃ b, w.Before b ∧ Holds w.offset b (.node n) ∧ b.At (takeOver n g t).2 := by
  rcases oldElement?_run context g s with same | ⟨c, held, state, answers⟩
  · cases same.symm.trans found
  · rw [found] at state answers
    obtain ⟨o, answer, -, -, rfl⟩ := answers n rfl
    obtain ⟨starts, lies, inside⟩ := (h.cursor c held).answer answer
    have lies := (Node.alike_checkErrors o).liesIn lies
    have asked : w.At t := by
      rw [show t = _ from state]
      exact h.moves (Motion.asks _ held)
    have stop : o.checkErrors.2.stop = o.stop := (Node.alike_checkErrors o).2.1
    have here : w.offset ≤ o.pos := starts ▸ h.offset
    have text : t.scanner.text.utf8ByteSize = w.size := asked.text
    have rests : (t.scanner.moveTo o.checkErrors.2.stop).Rests :=
      Scanner.moveTo_rests asked.placed (by omega)
    have pos : o.checkErrors.2.pos = o.pos := (Node.alike_checkErrors o).1
    have forward := lies.forward
    have ends : w.offset ≤ o.stop := by omega
    refine ⟨{ w with offset := o.stop }, ⟨rfl, ends⟩, lies.widen here (Nat.le_refl _), ?_⟩
    have passed : At { w with offset := o.stop }
        (skipToken g { t with scanner := t.scanner.moveTo o.checkErrors.2.stop }).2 :=
      at_skipToken g rests asked.frame asked.stop (stop.symm.le) asked.cursor
    exact ⟨passed.placed, passed.frame, passed.stop, passed.offset, passed.cursor⟩

instance : Course Front where
  Moves := Moves
  motion := inferInstance
  names := Moves.names
  Places := True
  Unmoved := False
  offset := Front.offset
  Before := Before
  refl := .refl
  trans := .trans
  offset_le before _ := before.offset
  At := At
  Holds := Holds
  HoldsDoc _ _ := True
  Documents := Scanner.Frame.Documents
  moves := At.moves
  here {w s} h := ⟨{ w with offset := s.scanner.fullStart }, ⟨rfl, h.offset⟩,
    ⟨h.placed, h.frame, h.stop, Nat.le_refl _, h.cursor⟩, fun _ => rfl⟩
  returns := by
    intro w b s t h before h'
    have frame := h'.frame.trans (before.frame.trans h.frame.symm)
    have same : (t.takenBack s).scanner.frame = s.scanner.frame := frame
    have size : b.size = w.size := congrArg (fun frame : Scanner.Frame => frame.text.utf8ByteSize) before.frame
    have goes : s.scanner.GoesTo (t.takenBack s).scanner :=
      .of_same rfl frame (h'.stop.trans (size.trans h.stop.symm))
    refine ⟨w, .refl w, (goes.moves h.placed).placed, frame.trans h.frame, h'.stop.trans size, h.offset, ?_⟩
    exact size ▸ h'.cursor
  rescans := by
    intro w s report h live
    have on := Scanner.rescanTemplate_moves h.placed (h.placed.live live) report
    exact ⟨on.placed, (Scanner.frame_land _ _).trans h.frame, on.stop.trans h.stop,
      Nat.le_trans h.offset on.forward, h.cursor⟩
  later h before := Slot.LiesIn.widen h (Nat.le_refl _) before.offset
  lower h low := Slot.LiesIn.widen h (low trivial) (Nat.le_refl _)
  absent _ _ := trivial
  empty {lo pos w} range := by
    obtain ⟨low, high⟩ := range trivial
    exact ⟨low, Nat.le_refl _, high, .intro ⟨nofun, nofun⟩ nofun⟩
  list := by
    intro lo w head items
    refine ⟨fun ⟨range, inside⟩ => ⟨fun _ => range, fun n mem => ?_⟩,
      fun ⟨range, inside⟩ => ⟨range trivial, fun n mem => ?_⟩⟩
    · have lies := inside n mem
      exact ⟨lies.widen (Nat.le_refl _) range.2.2, fun _ => lies.high⟩
    · obtain ⟨lies, ends⟩ := inside n mem
      exact ⟨lies.low, lies.forward, ends trivial, lies.nested⟩
  start h := ⟨Nat.le_refl _, h.forward, h.high, h.nested⟩
  range h _ := ⟨h.low, h.forward, h.high⟩
  part h mem := (holds_part h mem).imp_right fun ends _ => ends
  opens h _ := (h.nested _ (.refl _)).opens
  lines _ _ := nofun
  addFlags flags h := (Node.alike_addFlags _ flags).liesIn h
  joinChain h := (Node.alike_joinChain _).liesIn h
  withDocs h _ := (Node.alike_withDocs _ _).liesIn h
  docLater _ _ := trivial
  finish {w s g kind pos stop form} h range parts suits opens _ := by
    obtain ⟨forward, high⟩ := range trivial
    have parts (slot : Slot) (mem : slot ∈ form.slots) := (parts slot mem).imp_right (· trivial)
    have lies (flags : NodeFlags) : (Node.ofForm ⟨kind, s.nextId, pos, stop, flags, false⟩ form).LiesIn pos w.offset :=
      liesIn_ofForm ⟨kind, s.nextId, pos, stop, flags, false⟩ forward high parts (opens trivial)
    exact ⟨w, .refl w, lies _, ⟨h.placed, h.frame, h.stop, h.offset, h.cursor⟩⟩
  document {w s g} c h documents := ⟨w, .refl w, fun _ _ => trivial, h.docComment c documents⟩
  take := At.take

/-! ## Files -/

def ofText (text : String) : Front := ⟨⟨text, true⟩, 0⟩

/-- What is read comes from a text, and an old tree that is at hand has its length. -/
structure Begins (text : String) (s : ParserState) : Prop where
  frame : s.scanner.frame = ⟨text, true⟩
  whole : s.scanner.stop = text.utf8ByteSize
  start : s.scanner.pos = 0
  cursor : ∀ c ∈ s.cursor, c.Finds text.utf8ByteSize

variable {text : String} {s : ParserState} {w : Front} {p : Parse Node} {g : Productions}

theorem begins_initial (fileName text : String) (target : ScriptTarget) (kind : ScriptKind)
    (cursor : Option ElementCursor) (firstId : Nat)
    (finds : ∀ c ∈ cursor, c.Finds text.utf8ByteSize) :
    Begins text (.initial fileName text target kind cursor firstId) :=
  ⟨rfl, rfl, rfl, finds⟩

theorem Begins.inContext (h : Begins text s) (flags : NodeFlags) : Begins text { s with contextFlags := flags } :=
  ⟨h.frame, h.whole, h.start, h.cursor⟩

theorem Begins.at_skipToken (h : Begins text s) (g : Productions) : (ofText text).At (skipToken g s).2 := by
  obtain ⟨same, skips⟩ := Scanner.Frame.mk.inj h.frame
  refine Front.at_skipToken g ⟨?_, skips, ?_⟩ h.frame h.whole (Nat.zero_le _) h.cursor
  · rw [same]
    exact h.whole.le
  · rw [h.start]
    exact Nat.zero_le _

theorem laid (depth : Nat) : Laid Front (.upTo depth) := .upTo Scanner.Frame.documents_upTo depth

theorem liesIn_of_roots (roots : RootsAt (ofText text) p g s) : (p g s).1.pos = 0 ∧
    (p g s).1.LiesIn 0 text.utf8ByteSize ∧ (p g s).2.text = text := by
  obtain ⟨⟨b, before, ⟨statements, endOfFile⟩, built⟩, t, flags, stands, root⟩ := roots
  have same : t.scanner.text = text := by
    have frame := stands.frame.trans before.frame
    exact congrArg Scanner.Frame.text frame
  have inside : b.offset ≤ text.utf8ByteSize :=
    same ▸ Nat.le_trans stands.offset stands.placed.fullStart_le
  have := built.fst
  have := built.snd
  have slots : Built 0 b (Form.sourceFile statements endOfFile).slots :=
    inferInstanceAs (Built 0 b [Slot.ofList statements, .ofNode endOfFile])
  have parts : ∀ slot ∈ (Form.sourceFile statements endOfFile).slots,
      Holds 0 b slot ∧ slot.EndsBy text.utf8ByteSize := fun slot mem =>
    have part := (slots.ends_here ⟨fun _ => inside⟩ slot mem)
    ⟨part.1.holds slot (List.mem_singleton_self slot), part.2 trivial⟩
  have lies (flags : NodeFlags) := liesIn_ofForm ⟨.sourceFile, t.nextId, 0, text.utf8ByteSize, flags, false⟩
    (Nat.zero_le _) (Nat.le_refl _) parts nofun
  have size : t.text.utf8ByteSize = text.utf8ByteSize := congrArg String.utf8ByteSize same
  have made : (rootNode statements endOfFile g t).1 = Node.ofForm ⟨.sourceFile, t.nextId, 0, text.utf8ByteSize,
      if t.errorPending then t.contextFlags ||| NodeFlags.thisNodeHasError else t.contextFlags, false⟩
      (.sourceFile statements endOfFile) := by
    rw [← size]
    rfl
  rw [root, made]
  exact ⟨rfl, (Node.alike_addFlags _ _).liesIn (lies _), same⟩

end Front

namespace SourceFile

variable {s : ParserState} {text : String}

structure IsNested (f : SourceFile) : Prop where
  start : f.root.pos = 0
  lies : f.root.LiesIn 0 f.text.utf8ByteSize

theorem IsNested.of_same {f f' : SourceFile} (h : f.IsNested) (root : f'.root = f.root) (same : f'.text = f.text) :
    f'.IsNested :=
  ⟨root ▸ h.start, root ▸ same ▸ h.lies⟩

theorem withPragmas_text (f : SourceFile) : f.withPragmas.text = f.text := by
  unfold withPragmas
  dsimp only

theorem withPragmas_isNested {f : SourceFile} (h : f.IsNested) : f.withPragmas.IsNested :=
  h.of_same (withPragmas_root f) (withPragmas_text f)

theorem isNested_of_roots {p : Parse Node} (roots : ∀ {g}, Laid Front g → RootsAt (Front.ofText text) p g s) :
    (ofState (p.run s).2 (p.run s).1).IsNested ∧ (ofState (p.run s).2 (p.run s).1).text = text := by
  obtain ⟨start, lies, same⟩ := Front.liesIn_of_roots (roots (Front.laid (Productions.depthFor s.text)))
  have same : (ofState (p.run s).2 (p.run s).1).text = text := same
  exact ⟨⟨start, same.symm ▸ lies⟩, same⟩

/-- A script that is read from a text is nested, whatever of an old tree is taken over. -/
theorem ofScript_isNested (begins : Front.Begins text s) (setParents : Bool) :
    (ofScript s setParents).IsNested ∧ (ofScript s setParents).text = text := by
  have read := isNested_of_roots (p := Parse.script) fun link => Parse.script_roots link ((begins.inContext
    (s.contextFlags ||| if isDeclarationName s.fileName then NodeFlags.ambient else .empty)).at_skipToken _)
  unfold ofScript
  dsimp only
  revert read
  generalize Parse.script.run _ = r
  intro ⟨nested, same⟩
  exact ⟨withPragmas_isNested (nested.of_same rfl rfl), (withPragmas_text _).trans same⟩

theorem parse_isNested (fileName text : String) (target : ScriptTarget) (kind : ScriptKind) (setParents : Bool) :
    (parse fileName text target kind setParents).IsNested ∧
    (parse fileName text target kind setParents).text = text := by
  have begins := Front.begins_initial fileName text target (kind.resolve fileName) none 0 nofun
  unfold parse
  dsimp only
  split
  · have read := isNested_of_roots fun link => Parse.json_roots link (begins.at_skipToken _)
    revert read
    generalize Parse.json.run _ = r
    exact id
  · exact ofScript_isNested begins setParents

theorem parseJson_isNested (fileName text : String) :
    (parseJson fileName text).IsNested ∧ (parseJson fileName text).text = text := by
  have begins := Front.begins_initial fileName text .es2015 .json none 0 nofun
  have read := isNested_of_roots fun link => Parse.json_roots link (begins.at_skipToken _)
  unfold parseJson
  dsimp only
  revert read
  generalize Parse.json.run _ = r
  exact id

end SourceFile

end ScriptFrontend
