import ScriptFrontend.Grammar.Element
import ScriptFrontend.Proofs.Making.DocTag
import ScriptFrontend.Proofs.Making.Expression
import ScriptFrontend.Proofs.Making.Statement
import ScriptFrontend.Proofs.Making.Type
import ScriptFrontend.Proofs.Reading.File

/-!
# Nodes of a file

Elements and their tags make their nodes; a closing tag that is given back stays the node that it was. With
them each nonterminal makes the nodes that it reads, at all depths. So do the readings of whole texts, up to
the root that they end with.
-/

namespace ScriptFrontend

open Diagnostic (Fault)
open Parse

set_option synthInstance.maxSize 4096

variable {W : Type} [Course W] {lo : Nat} {w : W}

/-! ## Elements -/

section

variable [AtMost W lo (Course.offset w)]

instance : Makes lo w hyphenatedName := by
  unfold hyphenatedName
  infer_instance

instance : Makes lo w simpleTagName := by
  unfold simpleTagName
  infer_instance

instance : Makes lo w tagName := by
  unfold tagName
  infer_instance

instance (isValue : Bool) : Makes lo w (bracedExpression? isValue) := by
  unfold bracedExpression?
  infer_instance

instance : Makes lo w attributeValue? := by
  unfold attributeValue?
  refine .seq_still inferInstance fun equals => .choose (fun _ => ?_) fun _ => inferInstance
  refine .seq_still inferInstance fun _ => .seq_still inferInstance fun _ =>
    .seq_still inferInstance fun k => ?_
  split <;> infer_instance

instance : Makes lo w tagAttribute := by
  unfold tagAttribute
  infer_instance

instance : Makes lo w tagAttributes := by
  unfold tagAttributes
  infer_instance

instance (inExpression : Bool) : Makes lo w (openingTag inExpression) := by
  unfold openingTag
  infer_instance

instance (opening : Node) (inExpression : Bool) : Makes lo w (closingTag opening inExpression) := by
  unfold closingTag
  infer_instance

instance (inExpression : Bool) : Makes lo w (closingFragment inExpression) := by
  unfold closingFragment
  infer_instance

instance : Makes lo w elementText := by
  unfold elementText
  infer_instance

instance (opening : Node) (kind : Kind) : Makes lo w (child? opening kind) := by
  unfold child?
  split <;> infer_instance

/-! ## Children -/

theorem Parse.children_makes (opening : Node) {g : Productions} (link : Laid W g) :
    MakesSuch Anywhere (fun l s => (Course.Places W → l.items.Pairwise (·.stop ≤ ·.pos)) ∧
      ChildrenEnd opening l.items s) g (Course.offset w) w (children opening) := by
  refine .and ?_ (children_end link.tell opening)
  let Q (items : Array Node) (_ : ParserState) : Prop :=
    Course.Places W → items.toList.Pairwise (·.stop ≤ ·.pos)
  have opens (lists : List ListContext) : Still W (modify fun s => { s with openLists := lists } : Parse Unit) :=
    .turns (c := fun s => { s.context with openLists := lists })
  unfold children withOpenList listFrom
  refine .seq_here fun pos => .seq (i := pos.pos) (Q := Q) ?_ fun items =>
    .seq_here fun stop => .pure inferInstance fun _ => id
  refine .seq_still (J := fun _ => Anywhere) inferInstance (fun _ => id) fun s =>
    .seq_still (J := fun _ => Anywhere) (opens _) (fun _ => id) fun _ => ?_
  refine .seq (i := pos.pos) (Q := Q) (.seq (i := pos.pos) (Q := Q)
    (.when (.loop (I := Q) inferInstance (fun items => ?_) fun _ _ => id) fun _ _ _ => .nil)
    fun items => .pure inferInstance fun _ => id) fun items =>
      .seq_still (J := fun _ => Q items.value) (opens _) (fun _ => id) fun _ => .pure inferInstance fun _ => id
  -- A child is read where those before it have ended.
  refine .seq_still (J := fun _ => Q items.value) inferInstance (fun _ => id) fun k => ?_
  have reads : Makes (Course.offset items.stage) items.stage (child? opening k) := inferInstance
  refine .seq (Q := fun _ => Q items.value) ((reads.holds link).such fun _ => id) fun child => ?_
  obtain ⟨stage, before, child, built⟩ := child
  have held : Built pos.pos stage items.value := items.built.later before
  cases child with
  | none => exact .pure ⟨held.holds⟩ fun _ => id
  | some n =>
    have here : Built (Course.offset items.stage) stage n := built.of_some rfl
    have low : AtMost W pos.pos (Course.offset items.stage) := inferInstance
    have := here.lower low
    have next (s : ParserState) (lined : Q items.value s) : Q (items.value.push n) s := by
      intro places
      rw [Array.toList_push]
      refine List.pairwise_append.mpr ⟨lined places, List.pairwise_singleton .., fun m held => ?_⟩
      refine List.forall_mem_singleton.mpr ?_
      have listed : Built pos.pos items.stage items.value.toList := ⟨items.built.holds⟩
      exact Nat.le_trans (Course.range (listed.of_mem held).node places).2.2 (Course.range here.node places).1
    exact .choose (fun _ => .pure inferInstance next) fun _ => .pure inferInstance next

/-! ## Closing tags that are given back -/

structure Course.Element (w : W) (last tag : Node) (inner : NodeList) (closing : Node) : Prop where
  opening : Built last.pos w tag
  children : Built tag.pos w inner
  ending : Built last.pos w closing
  range : Course.Places W → last.pos ≤ tag.pos ∧ tag.pos ≤ inner.pos ∧ tag.stop ≤ inner.stop ∧
    inner.pos ≤ inner.stop ∧ inner.stop ≤ Course.offset w
  lines : Course.Places W → Course.Unmoved W → tag.stop ≤ inner.pos ∧ inner.items.Pairwise (·.stop ≤ ·.pos) ∧
    inner.stop ≤ closing.pos

omit [AtMost W lo (Course.offset w)] in
theorem Built.element {last tag closing : Node} {inner : NodeList} (h : Built lo w last)
    (form : last.form = .jsxElement tag inner closing) : Course.Element w last tag inner closing := by
  have slots := h.slots form
  have tagged := slots.head.of_ofNode
  have listed := Course.list.mp slots.tail.head.of_ofList.list
  have opens (places : Course.Places W) := Course.opens h.node places tag inner closing form
  refine ⟨tagged, .of_list (Course.list.mpr ⟨fun places => ?_, listed.2⟩), slots.tail.tail.head.of_ofNode,
    fun places => ?_, fun places unmoved => Course.lines h.node places unmoved tag inner closing (.inl form)⟩
  · exact ⟨(opens places).1, (listed.1 places).2⟩
  · exact ⟨(Course.range tagged.node places).1, (opens places).1, (opens places).2, (listed.1 places).2⟩

/-- The element without the closing tag that it took ends where its children do. It has been reported at
its opening tag that none is left for it. -/
theorem Parse.withoutTakenTag_makes {last tag closing : Node} {inner : NodeList}
    (element : Course.Element w last tag inner closing) {g : Productions} (link : Laid W g) :
    MakesSuch (fun s => tag.IsReported s.scanner.frame s.Reports) (fun n _ => n.pos = tag.pos ∧ n.stop = inner.stop)
      g tag.pos w (withoutTakenTag tag inner) := by
  let Told (s : ParserState) : Prop := tag.IsReported s.scanner.frame s.Reports
  have range := element.range
  have past (places : Course.Places W) : tag.pos ≤ inner.stop ∧ inner.stop ≤ Course.offset w := by
    have := range places
    omega
  have reached {b : W} (before : Course.Before w b) (places : Course.Places W) : inner.stop ≤ Course.offset b :=
    Nat.le_trans (past places).2 (Course.offset_le before places)
  unfold withoutTakenTag
  have blank : Makes inner.stop w (finishAt .identifier inner.stop inner.stop (.identifier "" none)) :=
    .finishAt (fun places => ⟨Nat.le_refl _, (past places).2⟩) (List.forall_mem_nil _) (.refl _)
  refine .seq (Q := fun n s => Told s ∧ n.stop = inner.stop) ((blank.holds link).such fun _ told => ⟨told, rfl⟩)
    fun name => .given (fun _ => And.right) fun here => ?_
  have empty : Makes inner.stop name.stage (finishAt .jsxClosingElement inner.stop inner.stop (.named name.value)) :=
    .finishAt (fun places => ⟨Nat.le_refl _, reached name.before places⟩)
      (List.forall_mem_singleton.mpr ⟨inferInstance, fun _ => Nat.le_of_eq here⟩) (.refl _)
  refine .seq (Q := fun n s => Told s ∧ n.pos = inner.stop ∧ n.stop = inner.stop)
    ((empty.holds link).such fun _ ⟨told, _⟩ => ⟨told, rfl, rfl⟩)
    fun ending => .given (fun _ => And.right) fun ⟨starts, there⟩ => ?_
  have before := Course.trans name.before ending.before
  have opening : Built tag.pos ending.stage tag := element.opening.itself.later before
  have children : Built tag.pos ending.stage inner := element.children.later before
  have closing : Built tag.pos ending.stage ending.value := ending.built.lower ⟨fun places => (past places).1⟩
  refine .finishAt (fun places => ⟨(past places).1, reached before places⟩) ?_ (.refl _)
    (fun s ⟨told, _⟩ => ⟨fun _ => Option.some.inj, nofun, .inr (.inr (.inl told))⟩) (fun places => ?_) fun places unmoved => ?_
  · rintro slot (_ | ⟨_, _ | ⟨_, _ | ⟨_, ⟨⟩⟩⟩⟩)
    · exact ⟨inferInstance, fun places => (range places).2.2.1⟩
    · exact ⟨inferInstance, fun _ => Nat.le_refl _⟩
    · exact ⟨inferInstance, fun _ => Nat.le_of_eq there⟩
  · rintro _ _ _ ⟨⟩
    exact ⟨(range places).2.1, (range places).2.2.1⟩
  · rintro _ _ _ (⟨⟨⟩⟩ | ⟨⟨⟩⟩)
    have lines := element.lines places unmoved
    exact ⟨lines.1, lines.2.1, Nat.le_of_eq starts.symm⟩

omit [AtMost W lo (Course.offset w)] in
/-- The children of an element whose last child gave a closing tag back. -/
theorem Built.repaired {b : W} {l inner : NodeList} {last tag closing repaired : Node}
    (lined : Course.Places W → l.items.Pairwise (·.stop ≤ ·.pos))
    (listed : Built lo w l) (found : l.items.getLast? = some last)
    (element : Course.Element w last tag inner closing)
    (before : Course.Before w b) (made : Built tag.pos b repaired)
    (starts : repaired.pos = tag.pos) (ends : repaired.stop = inner.stop) :
    Built lo b (NodeList.ofItems (l.items.dropLast ++ [repaired]) l.pos inner.stop) ∧
      (Course.Places W → (l.items.dropLast ++ [repaired]).Pairwise (·.stop ≤ ·.pos)) := by
  have range := listed.range
  have items := (Course.list.mp listed.list).2
  have mem : last ∈ l.items := List.mem_of_getLast? found
  have starting (places : Course.Places W) : l.pos ≤ last.pos := (Course.range (items last mem).1 places).1
  have inside := element.range
  have row (places : Course.Places W) : l.items.dropLast.Pairwise (·.stop ≤ ·.pos) ∧
      ∀ n ∈ l.items.dropLast, n.stop ≤ last.pos := by
    have split := lined places
    rw [← List.dropLast_append_getLast? last found] at split
    obtain ⟨row, -, behind⟩ := List.pairwise_append.mp split
    exact ⟨row, fun n held => behind n held last (List.mem_singleton_self _)⟩
  refine ⟨.of_list (Course.list.mpr ⟨fun places => ?_, fun n held => ?_⟩), fun places => ?_⟩
  · have := range places
    have := starting places
    have := inside places
    have := Course.offset_le before places
    change lo ≤ l.pos ∧ l.pos ≤ inner.stop ∧ inner.stop ≤ Course.offset b
    omega
  · rcases List.mem_append.mp held with held | held
    · refine ⟨Course.later (items n (List.dropLast_subset l.items held)).1 before, fun places => ?_⟩
      have := (row places).2 n held
      have := inside places
      change n.stop ≤ inner.stop
      omega
    · obtain rfl := List.mem_singleton.mp held
      refine ⟨Course.lower made.node fun places => Nat.le_trans (starting places) (inside places).1, fun _ => ?_⟩
      exact Nat.le_of_eq ends
  · refine List.pairwise_append.mpr ⟨(row places).1, List.pairwise_singleton .., fun n held => ?_⟩
    refine List.forall_mem_singleton.mpr ?_
    have := (row places).2 n held
    have := inside places
    omega

/-! ## Elements and fragments -/

omit [AtMost W lo (Course.offset w)] in
theorem Parse.elementRest_makes {pos : Nat} {opening : Node} {place : ElementPlace} [low : AtMost W lo pos]
    [past : AtMost W pos (Course.offset w)] [made : Built pos w opening]
    (element : opening.kind = .jsxOpeningElement) (named : opening.tagName?.isSome = true)
    {g : Productions} (link : Laid W g) : MakesIn g lo w (elementRest pos opening place) := by
  unfold elementRest
  refine MakesSuch.makes (Q := fun n _ => n.pos = pos) (.seq (children_makes opening link) fun l =>
    .given (fun _ => And.left) fun lined => ?_)
  have := made.later l.before
  have behind (places : Course.Places W) : opening.pos ≤ l.value.pos ∧ opening.stop ≤ l.value.pos := by
    have := Course.range made.node places
    have := l.built.range places
    omega
  have ordered (l' : NodeList) (closing : Node) (start : l'.pos = l.value.pos)
      (forward : Course.Places W → l'.pos ≤ l'.stop) (places : Course.Places W) :
      (Form.jsxElement opening l' closing).Opens := by
    rintro _ _ _ ⟨⟩
    have := behind places
    have := forward places
    omega
  split
  · rename_i tag inner closing taken
    obtain ⟨last, found, form, took⟩ := takenTag?_eq taken
    have child : Built (Course.offset w) l.stage last := l.built.items.of_mem (List.mem_of_getLast? found)
    have parts := child.element form
    refine .seq (.when (withoutTakenTag_makes parts link)
      fun s holds => holds.2.tells element last found took tag inner closing form)
      fun repaired => .given (fun _ => id) fun both => ?_
    obtain ⟨starts, stops⟩ := both
    obtain ⟨children, row⟩ := l.built.repaired lined found parts repaired.before repaired.built starts stops
    have := children.lower past
    have := (parts.ending.later repaired.before).lower (past.trans child.starts)
    refine .finish (fun s _ =>
        ⟨fun _ => Option.some.inj, by intros; contradiction, .inr (.inl (sameTag?_of_takenTag? taken))⟩)
      (ordered _ closing rfl fun places => (children.range places).2.1) fun places unmoved => ?_
    refine (Form.Lines.of_row ?_ ?_ ?_).1
    · exact (behind places).2
    · exact row places
    · exact (parts.lines places unmoved).2.2
  · have reads : Makes (Course.offset l.stage) l.stage (closingTag opening place.inExpression) := inferInstance
    refine .when (.seq ((reads.holds link).such (closingTag_named opening place.inExpression)) fun closing =>
      .given (fun _ => id) fun closed => ?_) fun _ _ => trivial
    refine .when (.seq_still inferInstance (errorClosingMismatch_tells place.parentTag named closed) fun _ => ?_)
      fun _ _ => trivial
    refine .finish (fun s told =>
        ⟨fun _ => Option.some.inj, by intros; contradiction, .inr (told.imp_right (.imp_right And.left))⟩)
      (ordered l.value closing.value rfl fun places => (l.built.range places).2.1) fun places _ => ?_
    refine (Form.Lines.of_row (behind places).2 (lined places) ?_).1
    exact Nat.le_trans (l.built.range places).2.2 (Course.range closing.built.node places).1

omit [AtMost W lo (Course.offset w)] in
theorem Parse.fragmentRest_makes {pos : Nat} {opening : Node} {inExpression : Bool} [low : AtMost W lo pos]
    [past : AtMost W pos (Course.offset w)] [made : Built pos w opening]
    (fragment : opening.kind ≠ .jsxOpeningElement) {g : Productions} (link : Laid W g) : MakesIn g lo w (do
      let l ← children opening
      let closing ← closingFragment inExpression
      finish .jsxFragment pos (.jsxFragment opening l closing)) := by
  refine MakesSuch.makes (Q := fun n _ => n.pos = pos) (.seq (children_makes opening link) fun l =>
    .given (fun _ => And.left) fun lined => ?_)
  have := made.later l.before
  have reads : Makes (Course.offset l.stage) l.stage (closingFragment inExpression) := inferInstance
  refine .when (.seq ((reads.holds link).such (closingFragment_tells inExpression)) fun closing => ?_)
    fun s holds => holds.2.ends fragment
  refine .finish (fun s told => ⟨fun _ => Option.some.inj, by intros; contradiction, told⟩)
    (fun _ => by intros _ _ _ other; cases other) fun places _ => ?_
  refine (Form.Lines.of_row ?_ (lined places) ?_).2
  · exact Nat.le_trans (Course.range made.node places).2.2 (l.built.range places).1
  · exact Nat.le_trans (l.built.range places).2.2 (Course.range closing.built.node places).1

instance (place : ElementPlace) : Makes lo w (oneElement place) := by
  unfold oneElement
  refine .seq_from fun pos => ⟨fun {g} link => ?_⟩
  have reads : Makes pos.pos pos.stage (openingTag place.inExpression) := inferInstance
  refine MakesSuch.makes (Q := fun _ _ => True) (.seq ((reads.holds link).such (openingTag_isTag place.inExpression))
    fun opening => .given (fun _ => id) fun isTag => ?_)
  split
  · rename_i element
    exact (elementRest_makes element (isTag.named element) link).such fun _ _ => trivial
  · rename_i fragment
    exact (fragmentRest_makes (by simp [fragment]) link).such fun _ _ => trivial
  · exact .pure inferInstance fun _ _ => trivial

instance (place : ElementPlace) : Makes lo w (element place) := by
  unfold element
  infer_instance

end

/-! ## Nonterminals -/

/-- What is behind the name of a nonterminal makes its nodes, unless it is documentation. -/
theorem Makes.production {n : Nonterminal} (other : n.isDoc = false) : Makes
    (Course.offset w) w n.production := by
  cases n
  case docComment => cases other
  case docTag => cases other
  case docChild => cases other
  all_goals
    unfold Nonterminal.production
    dsimp only
    infer_instance

/-- Nonterminals that are called where no calls are left read nothing. -/
theorem MakesIn.exhausted (n : Nonterminal) : MakesIn (.upTo 0) (Course.offset w) w (call? n) := fun _ stands =>
  ⟨⟨w, Course.refl w, none, inferInstance⟩, rfl,
    Course.moves stands (Motion.notes ⟨rfl, rfl, rfl, rfl, fun _ => id, .refl _, rfl, fun _ => rfl⟩)⟩

/-- Where documentation is read as the course tells, at each depth, all nonterminals are. -/
theorem Laid.upTo (documents : ∀ depth, Course.Documents W (.upTo depth)) (depth : Nat) :
    Laid W (.upTo depth) := by
  induction depth with
  | zero => exact ⟨fun n _ w => .exhausted n, Productions.upTo_tellTaken 0, documents 0⟩
  | succ depth ih =>
    refine ⟨fun n other w => ?_, Productions.upTo_tellTaken _, documents (depth + 1)⟩
    exact (Makes.production other).holds ih

theorem Makes.doc_production [Course.Placeless W] {n : Nonterminal} (doc : n.isDoc = true) :
    Makes (Course.offset w) w n.production := by
  cases n
  case docComment start stop => exact inferInstanceAs (Makes _ w (commentAt start stop))
  case docTag earlier indent => exact inferInstanceAs (Makes _ w (some <$> docTag earlier indent))
  case docChild targets indent parent => exact inferInstanceAs (Makes _ w (docChild targets indent parent))
  all_goals cases doc

/-- Where nodes may lie anywhere, documentation is read like everything else. -/
theorem Laid.of_placeless [placeless : Course.Placeless W] (depth : Nat) : Laid W (.upTo depth) := by
  induction depth with
  | zero =>
    exact ⟨fun n _ w => .exhausted n, Productions.upTo_tellTaken 0,
      placeless.documents.mpr fun n _ w => .exhausted n⟩
  | succ depth ih =>
    exact ⟨fun n other w => (Makes.production other).holds ih, Productions.upTo_tellTaken _,
      placeless.documents.mpr fun n doc w => (Makes.doc_production doc).holds ih⟩

/-! ## Files -/

/-- From a state on a reading ends with the root over what it made. -/
def RootsAt (w : W) (p : Parse Node) (g : Productions) (s : ParserState) : Prop :=
  ∃ (x : Got 0 w (NodeList × Node)) (t : ParserState) (flags : NodeFlags), Course.At x.stage t ∧
    p g s = ((rootNode x.value.1 x.value.2 g t).1.addFlags flags, (rootNode x.value.1 x.value.2 g t).2)

class EndsInRoot (w : W) (p : Parse Node) : Prop where
  holds : ∀ {g}, Laid W g → ∀ {s}, Course.At w s → RootsAt w p g s

instance (i : Nat) : AtMost W 0 i := ⟨fun _ => Nat.zero_le i⟩

namespace EndsInRoot

theorem seq {α : Type} [Parted α] {p : Parse α} {f : α → Parse Node} {i : Nat} (first : Makes i w p)
    (rest : ∀ x : Got i w α, EndsInRoot x.stage (f x.value)) : EndsInRoot w (p >>= f) where
  holds {g} link s stands := by
    obtain ⟨x, value, stands⟩ := first.holds link stands
    obtain ⟨y, t, flags, stands', root⟩ := (rest x).holds link stands
    refine ⟨{ y with before := Course.trans x.before y.before }, t, flags, stands', ?_⟩
    rw [Parse.bind_run, value]
    exact root

theorem seq_still {α : Type} {p : Parse α} {f : α → Parse Node} (first : Still W p)
    (rest : ∀ x, EndsInRoot w (f x)) : EndsInRoot w (p >>= f) where
  holds {g} link s stands := (rest _).holds link (Course.moves stands (first.leads g s))

theorem choose {c : Prop} {_ : Decidable c} {p q : Parse Node} (yes : c → EndsInRoot w p)
    (no : ¬ c → EndsInRoot w q) : EndsInRoot w (if c then p else q) := by
  split
  · exact yes ‹_›
  · exact no ‹_›

theorem seq_here {f : Nat → Parse Node} (rest : ∀ x : Spot w, EndsInRoot x.stage (f x.pos)) :
    EndsInRoot w (nodePos >>= f) where
  holds {g} link s stands := by
    obtain ⟨b, before, stands, eq⟩ := Course.here stands
    obtain ⟨y, t, flags, stands, root⟩ := (rest ⟨b, before, s.scanner.fullStart, eq⟩).holds link stands
    exact ⟨{ y with before := Course.trans before y.before }, t, flags, stands, root⟩

end EndsInRoot

theorem Node.addFlags_empty (n : Node) : n.addFlags .empty = n := by
  obtain ⟨h, shape, slots, docs, origin⟩ := n
  have flags : h.flags ||| .empty = h.flags := FlagSet.ext_holds fun i => by simp
  rw [addFlags, withFlags, withHead]
  exact congrArg (fun flags => Node.mk { h with flags } shape slots docs origin) flags

section

variable (statements : NodeList) (endOfFile : Node) [Built 0 w statements] [Built 0 w endOfFile]

instance : EndsInRoot w (rootNode statements endOfFile) where
  holds _ s stands := ⟨⟨w, Course.refl w, (statements, endOfFile), inferInstance⟩, s, .empty, stands,
    (congrArg (·, _) (Node.addFlags_empty _)).symm⟩

instance : EndsInRoot w (do
    let root ← rootNode statements endOfFile
    return root.addFlags (← get).fileFlags) where
  holds _ s stands := ⟨⟨w, Course.refl w, (statements, endOfFile), inferInstance⟩, s, s.fileFlags, stands, rfl⟩

end

/-- Where nodes may lie anywhere, the root is made like any other node. -/
theorem RootsAt.makes [Course.Placeless W] {p : Parse Node} {g : Productions} {s : ParserState}
    (roots : RootsAt w p g s) (link : Laid W g) :
    ∃ x : Got 0 w Node, (p g s).1 = x.value ∧ Course.At x.stage (p g s).2 := by
  obtain ⟨x, t, flags, stands, root⟩ := roots
  have reads : Makes 0 x.stage (rootNode x.value.1 x.value.2) := by
    unfold rootNode
    infer_instance
  obtain ⟨y, value, stands⟩ := reads.holds link stands
  rw [root, value]
  exact ⟨⟨y.stage, Course.trans x.before y.before, y.value.addFlags flags, inferInstance⟩, rfl, stands⟩

theorem RootsAt.past_token {f : Unit → Parse Node} {g : Productions} (link : Laid W g) {s : ParserState}
    (stands : Course.At w (skipToken g s).2) (rest : ∀ x, EndsInRoot w (f x)) :
    RootsAt w (skipToken >>= f) g s :=
  (rest ()).holds link stands

theorem Parse.script_roots {g : Productions} (link : Laid W g) {s : ParserState}
    (stands : Course.At w (skipToken g s).2) :
    RootsAt w script g s := by
  unfold script
  refine .past_token link stands fun _ => ?_
  refine .seq (i := 0) inferInstance fun statements => .seq_still inferInstance fun s => ?_
  exact .seq (i := 0) inferInstance fun endToken => .seq (i := 0) inferInstance fun endOfFile => inferInstance

section

variable [AtMost W lo (Course.offset w)]

instance : Makes lo w jsonValue := by
  unfold jsonValue
  refine .seq_still inferInstance fun k => ?_
  split <;> infer_instance

instance : Makes lo w jsonValues := by
  unfold jsonValues
  dsimp only
  infer_instance

end

theorem Parse.json_roots {g : Productions} (link : Laid W g) {s : ParserState}
    (stands : Course.At w (skipToken g s).2) :
    RootsAt w json g s := by
  have statement (b : W) (pos : Nat) (value : Node) [AtMost W pos (Course.offset b)] [Built pos b value] :
      EndsInRoot b (do
        let statement ← finish .expressionStatement pos (.wrapped value)
        let statements ← listFrom #[statement] pos
        rootNode statements (← expectedToken .endOfFileToken (some .unexpectedToken))) := by
    refine .seq (i := pos) inferInstance fun statement => .seq (i := 0) inferInstance fun statements => ?_
    exact .seq (i := 0) inferInstance fun endOfFile => inferInstance
  unfold json
  refine .past_token link stands fun _ => .seq_here fun pos => .seq_still inferInstance fun atEnd => ?_
  refine .choose (fun _ => .seq (i := 0) inferInstance fun endOfFile => inferInstance) fun _ => ?_
  refine .seq (i := pos.pos) inferInstance fun values => ?_
  have listed : Built pos.pos values.stage values.value.toList := inferInstance
  dsimp only
  split
  · rename_i value found
    rw [found] at listed
    have := listed.head
    exact statement values.stage pos.pos value
  · refine .seq (i := pos.pos) inferInstance fun items => .seq (i := pos.pos) inferInstance fun value => ?_
    exact statement value.stage pos.pos value.value

end ScriptFrontend
