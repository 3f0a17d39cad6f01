import ScriptFrontend.Proofs.Nesting.File
import ScriptFrontend.Proofs.Pairing.Report

/-!
# Pairs of tags in a file

In the tree of a file the tags of each element and each fragment are a pair, or the file has a diagnostic
that tells where they are none. While a text is read without an old tree, the tags of each element and
fragment and its children stand one after the other. A closing tag that an element took from the one around
it is given back, and no child is lost by that.
-/

namespace ScriptFrontend

open Diagnostic (start?)
open Parse

variable {s : ParserState} {p : Parse Node} {g : Productions}

/-! ## Closing tags that are given back -/

/-- What an element took from the one around it, that one gets back. The child keeps its own children, under
an empty closing tag, and those before it stay as they are. -/
theorem Parse.elementRest_takes_back {pos : Nat} {opening tag closing : Node}
    {inner : NodeList} {place : ElementPlace}
    (taken : takenTag? opening (children opening g s).1 = some (tag, inner, closing)) :
    ∃ others last l repaired ending,
      (children opening g s).1.items = others ++ [last] ∧ last.form = .jsxElement tag inner closing ∧
      (elementRest pos opening place g s).1.form = .jsxElement opening l closing ∧
      l.items = others ++ [repaired] ∧ repaired.form = .jsxElement tag inner ending := by
  obtain ⟨last, found, form, -⟩ := takenTag?_eq taken
  unfold elementRest
  rw [bind_run, taken]
  generalize children opening g s = r at found
  dsimp only
  rw [bind_run]
  have split := (List.dropLast_append_getLast? last found).symm
  refine ⟨_, last, .ofItems (r.1.items.dropLast ++ [(withoutTakenTag tag inner g r.2).1]) r.1.pos inner.stop, _, _,
    split, form, rfl, rfl, rfl⟩

/-! ## Whole texts -/

def Parse.IsWhole (p : Parse Node) : Prop := p = script ∨ p = json

/-- Whole texts are read from their first token on, up to the root over what was made. -/
theorem Parse.IsWhole.roots {W : Type} [Course W] {w : W} (whole : p.IsWhole) (link : Laid W g)
    (stands : Course.At w (skipToken g s).2) : RootsAt w p g s := by
  rcases whole with rfl | rfl
  · exact script_roots link stands
  · exact json_roots link stands

structure SourceFile.Holds (f : SourceFile) (r : Node × ParserState) : Prop where
  root : f.root = r.1
  diagnostics : r.2.diagnostics.items.toList ⊆ f.diagnostics
  docDiagnostics : f.docDiagnostics = r.2.docDiagnostics
  stalled : f.stalled = r.2.stalled

theorem SourceFile.withPragmas_docDiagnostics (f : SourceFile) : f.withPragmas.docDiagnostics = f.docDiagnostics := by
  unfold withPragmas
  dsimp only

theorem SourceFile.parse_holds (fileName text : String) (target : ScriptTarget) (kind : ScriptKind)
    (setParents : Bool) : ∃ (p : Parse Node) (flags : NodeFlags), p.IsWhole ∧
    (parse fileName text target kind setParents).Holds (p.run
      { ParserState.initial fileName text target (kind.resolve fileName) none 0 with contextFlags := flags }) := by
  unfold parse
  dsimp only
  generalize ParserState.initial fileName text target (kind.resolve fileName) none 0 = s
  split
  · refine ⟨json, s.contextFlags, .inr rfl, ?_⟩
    change SourceFile.Holds _ (json.run s)
    generalize json.run s = r
    exact ⟨rfl, fun _ => id, rfl, rfl⟩
  · refine ⟨script, s.contextFlags ||| if isDeclarationName s.fileName then NodeFlags.ambient else .empty,
      .inl rfl, ?_⟩
    unfold ofScript
    dsimp only
    generalize script.run _ = r
    refine ⟨withPragmas_root _, ?_, withPragmas_docDiagnostics _, withPragmas_stalled _⟩
    rw [withPragmas_diagnostics]
    exact List.subset_append_left _ _

/-! ## Rows -/

/-- A front in a text that is read without an old tree. -/
def FreshFront : Type := Front

namespace FreshFront

variable {w : Front} {s t : ParserState} {lo : Nat} {slot : Slot}

/-- The reading goes on, and no old tree is found. -/
structure Moves (s t : ParserState) : Prop where
  front : Front.Moves s t
  fresh : s.cursor = none → t.cursor = none

instance : FreeMotion Moves where
  refl s := ⟨Motion.refl s, id⟩
  trans h h' := ⟨Motion.trans h.front h'.front, h'.fresh ∘ h.fresh⟩
  notes h := ⟨Motion.notes h, fun fresh => h.cursor.trans fresh⟩
  goes h := ⟨Motion.goes h, id⟩
  returns h := ⟨Motion.returns h.front, h.fresh⟩
  asks pos held := ⟨Motion.asks pos held, fun fresh => (nomatch held.symm.trans fresh)⟩
  turns s c := ⟨FreeMotion.turns s c, id⟩

/-- The next token is behind the front, and no old tree is at hand. -/
structure At (w : Front) (s : ParserState) : Prop where
  front : w.At s
  fresh : s.cursor = none

/-- A part of a node lies behind an offset, before the front, and all elements in it are rows. -/
structure Holds (lo : Nat) (w : Front) (slot : Slot) : Prop where
  front : Front.Holds lo w slot
  rows : ∀ n ∈ slot.nodes, n.EachTagged false Form.Lines

theorem Holds.node {n : Node} (front : Front.Holds lo w (.node n)) (rows : n.EachTagged false Form.Lines) :
    Holds lo w (.node n) :=
  ⟨front, List.forall_mem_singleton.mpr rows⟩

theorem Holds.row {n : Node} (h : Holds lo w (.node n)) : n.EachTagged false Form.Lines :=
  h.rows n (List.mem_singleton_self n)

instance : Course FreshFront where
  Moves := Moves
  motion := inferInstance
  names h := h.front.names
  Places := True
  Unmoved := True
  offset := Front.offset
  Before := Front.Before
  refl := .refl
  trans := .trans
  offset_le before _ := before.offset
  At := At
  Holds := Holds
  HoldsDoc _ _ := True
  Documents := Scanner.Frame.Documents
  moves h moves := ⟨h.front.moves moves.front, moves.fresh h.fresh⟩
  here h :=
    have ⟨b, before, front, eq⟩ := Course.here (W := Front) h.front
    ⟨b, before, ⟨front, h.fresh⟩, eq⟩
  returns h before h' :=
    have ⟨c, before, front⟩ := Course.returns (W := Front) h.front before h'.front
    ⟨c, before, front, h'.fresh⟩
  rescans report h live := ⟨Course.rescans (W := Front) report h.front live, h.fresh⟩
  later h before := ⟨Course.later (W := Front) h.front before, h.rows⟩
  lower h low := ⟨Course.lower (W := Front) h.front low, h.rows⟩
  absent lo w := ⟨Course.absent (W := Front) lo w, nofun⟩
  empty range := .node (Course.empty (W := Front) range) (.intro ⟨nofun, nofun⟩ nofun)
  list := by
    refine ⟨fun h => ?_, fun ⟨range, items⟩ => ?_⟩
    · obtain ⟨range, items⟩ := (Course.list (W := Front)).mp h.front
      exact ⟨range, fun n mem => ⟨.node (items n mem).1 (h.rows n mem), (items n mem).2⟩⟩
    · refine ⟨(Course.list (W := Front)).mpr ⟨range, fun n mem => ?_⟩, fun n mem => (items n mem).1.row⟩
      exact ⟨(items n mem).1.front, (items n mem).2⟩
  start h := ⟨Course.start (W := Front) h.front, h.rows⟩
  range h := Course.range (W := Front) h.front
  part {_ _ n slot} h mem := by
    obtain ⟨front, ends⟩ := Course.part (W := Front) h.front mem
    exact ⟨⟨front, fun m inside => h.row.child (List.mem_flatMap.mpr ⟨slot, mem, inside⟩)⟩, ends⟩
  opens h := Course.opens (W := Front) h.front
  lines h _ _ := by
    intro opening l closing is
    refine h.row.here.form ?_ opening l closing is
    rcases is with is | is
    all_goals rw [Node.shape_of_form is rfl]
  addFlags flags h := .node (Course.addFlags (W := Front) flags h.front) (h.row.addFlags flags)
  joinChain h := .node (Course.joinChain (W := Front) h.front) h.row.joinChain
  withDocs {_ _ _ docs} h held := .node (Course.withDocs (W := Front) h.front held) (h.row.withDocs nofun)
  docLater _ _ := trivial
  finish {w s g kind pos stop form} h range parts suits opens lines := by
    obtain ⟨b, before, holds, front⟩ := Course.finish (W := Front) (g := g) h.front range
      (fun slot mem => ⟨(parts slot mem).1.front, (parts slot mem).2⟩) suits opens fun _ => nofun
    refine ⟨b, before, .node holds (.ofForm suits.kind (fun _ => lines trivial trivial) ?_), front, h.fresh⟩
    exact fun slot mem => (parts slot mem).1.rows
  document {w s g} c h documents := by
    obtain ⟨b, before, docs, front⟩ := Course.document (W := Front) c h.front documents
    exact ⟨b, before, docs, front, h.fresh⟩
  take {w s t g context n} h found := by
    rcases Parse.oldElement?_run context g s with same | ⟨c, held, -⟩
    · cases same.symm.trans found
    · cases h.fresh.symm.trans held

end FreshFront

theorem Parse.rootNode_eq (statements : NodeList) (endOfFile : Node) (g : Productions) (s : ParserState) :
    ∃ head, (rootNode statements endOfFile g s).1 = .ofForm head (.sourceFile statements endOfFile) :=
  ⟨_, rfl⟩

theorem FreshFront.laid (depth : Nat) : Laid FreshFront (.upTo depth) := .upTo Scanner.Frame.documents_upTo depth

/-- In the tree of a text the tags and children of elements stand in rows. -/
theorem FreshFront.rows_of_roots {w : FreshFront} (roots : RootsAt w p g s) :
    (p g s).1.EachTagged false Form.Lines := by
  obtain ⟨⟨b, _, ⟨statements, endOfFile⟩, built⟩, t, flags, -, root⟩ := roots
  have items := built.fst
  have ending := built.snd
  obtain ⟨head, made⟩ := rootNode_eq statements endOfFile g t
  rw [root]
  dsimp only
  refine Node.EachTagged.addFlags ?_ flags
  rw [made]
  refine .ofForm nofun nofun ?_
  rintro slot (_ | ⟨_, _ | ⟨_, ⟨⟩⟩⟩)
  · exact items.list.rows
  · exact ending.node.rows

/-! ## Reports -/

def SourceFile.Reports (f : SourceFile) (offset : Nat) : Prop :=
  ∃ d ∈ f.diagnostics ++ f.docDiagnostics, d.start? = some offset

theorem Report.isPaired {w : Report} {f : SourceFile} {form : Form} {r : Node × ParserState} (holds : f.Holds r)
    (stands : w.At r.2) (going : r.2.stalled = false) (tells : w.Tells form) : form.IsPaired w.frame f.Reports := by
  rcases tells with stalled | paired
  · cases going.symm.trans (stands.stalled stalled)
  refine paired.mono fun offset has => ?_
  rcases has with place | place
  · obtain ⟨d, mem, start⟩ := List.mem_map.mp (stands.places.subset place)
    exact ⟨d, List.mem_append_left _ (holds.diagnostics mem), start⟩
  · obtain ⟨d, mem, start⟩ := List.mem_map.mp (stands.docPlaces place)
    exact ⟨d, List.mem_append_right _ (holds.docDiagnostics.symm ▸ mem), start⟩

namespace SourceFile

/-- Each element and fragment in the tree of a file, documentation included, has a pair of tags, or a
diagnostic tells that it has none. -/
theorem parse_isPaired (fileName text : String) (target : ScriptTarget) (kind : ScriptKind) (setParents : Bool) :
    ∀ n ∈ (parse fileName text target kind setParents).root.preorderWithDocs,
      n.form.IsPaired ⟨text, true⟩ (parse fileName text target kind setParents).Reports := by
  obtain ⟨p, flags, whole, holds⟩ := parse_holds fileName text target kind setParents
  have going := (parse_goes_on_and_spans_text fileName text target kind setParents).1
  generalize start : { ParserState.initial fileName text target (kind.resolve fileName) none 0 with
    contextFlags := flags } = s at holds
  let g : Productions := .upTo (Productions.depthFor s.text)
  have link : Laid Report g := .of_placeless _
  have skip : Goes Report.Moves skipToken := inferInstance
  have begins : (Report.ofState s).At (skipToken g s).2 := by
    refine (Report.at_ofState ?_ ?_).moves (skip.leads g s)
    · exact start ▸ rfl
    · exact start ▸ Diagnostic.Collection.empty_isDistinct
  obtain ⟨x, value, stands⟩ := (whole.roots link begins).makes link
  have frame : x.stage.frame = ⟨text, true⟩ := x.before.frame.trans (start ▸ rfl)
  have root : (parse fileName text target kind setParents).root = x.value := holds.root.trans value
  intro n mem
  have each := (x.built.node x.value (List.mem_singleton_self _)).mem_preorderWithDocs n (root ▸ mem)
  have tells := each.here.holds fun _ other => .inr (Form.isPaired_of_untagged other)
  exact frame ▸ Report.isPaired holds stands (holds.stalled.symm.trans going) tells

/-- In the tree of a file the tags and the children of each element and each fragment stand in a row. -/
theorem parse_lines (fileName text : String) (target : ScriptTarget) (kind : ScriptKind) (setParents : Bool) :
    (parse fileName text target kind setParents).root.EachTagged false Form.Lines := by
  obtain ⟨p, flags, whole, holds⟩ := parse_holds fileName text target kind setParents
  rw [holds.root]
  have begins := Front.begins_initial fileName text target (kind.resolve fileName) none 0 nofun
  have skip : Goes FreshFront.Moves skipToken := inferInstance
  refine FreshFront.rows_of_roots (w := Front.ofText text) (whole.roots (FreshFront.laid _) ⟨?_, ?_⟩)
  · exact (begins.inContext flags).at_skipToken _
  · exact (skip.leads _ _).fresh rfl

/-- The tags of each element have one name, or a diagnostic starts at the name of one of them; each fragment
has a whole closing tag, or a diagnostic starts where that is missing or, behind `</`, where it breaks off. The
parts of all elements and fragments lie in their ranges, one after the other. An element that gets back the
closing tag that its last child took keeps all its children, and the child keeps its own. -/
theorem parse_pairs_tags (fileName text : String) (target : ScriptTarget) (kind : ScriptKind) (setParents : Bool) :
    let f := parse fileName text target kind setParents
    (∀ n ∈ f.root.preorderWithDocs, n.form.IsPaired ⟨text, true⟩ f.Reports) ∧
    (∀ n, f.root.Contains n → n.Nests ∧ n.form.Lines) ∧
    ∀ (g : Productions) (s : ParserState) (pos : Nat) (opening tag closing : Node) (inner : NodeList)
      (place : ElementPlace), takenTag? opening (children opening g s).1 = some (tag, inner, closing) →
      ∃ others last l repaired ending,
        (children opening g s).1.items = others ++ [last] ∧ last.form = .jsxElement tag inner closing ∧
        (elementRest pos opening place g s).1.form = .jsxElement opening l closing ∧
        l.items = others ++ [repaired] ∧ repaired.form = .jsxElement tag inner ending := by
  intro f
  refine ⟨parse_isPaired fileName text target kind setParents, fun n inside => ⟨?_, ?_⟩, ?_⟩
  · exact (parse_isNested fileName text target kind setParents).1.lies.nested n inside
  · have rows := (parse_lines fileName text target kind setParents).contains inside
    exact rows.here.holds fun _ => Form.lines_of_untagged
  · intro g s pos opening tag closing inner place taken
    exact elementRest_takes_back taken

def elementTags (f : SourceFile) : List (String × String) :=
  f.root.preorder.filterMap fun n => n.elementNames?.map fun (name, closing) =>
    let written (tag : Option Node) := (tag.map (·.textIn f.text)).getD ""
    (written name, written closing)

/-- What stands between the opening tags of both is in the tree, and the inner one has no closing tag. -/
example : (parse "a.tsx" "x = <a>1<b>2</a>" .esNext .tsx false).elementTags = [("a", "a"), ("b", "")] := by
  decide +kernel

def fragmentTags (f : SourceFile) : List (Text.Range × Text.Range) :=
  f.root.preorderWithDocs.filterMap fun n =>
    match n.form with
    | .jsxFragment opening _ closing => some (opening.range, closing.range)
    | _ => none

/-- A closing tag that breaks off ends behind `</`. The diagnostic starts at the next token, and that may lie
behind trivia and so outside of both tags. -/
theorem fragment_is_reported_behind_tags :
    let f := parse "a.tsx" "x=<></ a>" .esNext .tsx false
    ¬ ∀ tags ∈ f.fragmentTags, Text.startsAt f.text tags.2.pos "</>" = true ∨
      ∃ start ∈ (f.diagnostics ++ f.docDiagnostics).filterMap start?,
        (tags.1.pos ≤ start ∧ start ≤ tags.1.stop) ∨ (tags.2.pos ≤ start ∧ start ≤ tags.2.stop) := by
  decide +kernel

end SourceFile

end ScriptFrontend
