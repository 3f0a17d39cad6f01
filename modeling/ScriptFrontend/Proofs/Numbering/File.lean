import Mathlib.Data.List.SplitBy
import ScriptFrontend.Proofs.Making.Production
import ScriptFrontend.Proofs.Numbering.Ledger
import ScriptFrontend.Proofs.Reading.File

/-!
# Numbers of the nodes of a file

All nodes of a tree that was read from a text are in one ledger: those with the same number have the
same mark.

What is read later has greater numbers. So the statements of a file share no number: no node in one of
them has the number of a node in another one.
-/

namespace ScriptFrontend

open Parse

def Ledger.empty : Ledger where
  next := 0
  entry _ := Node.blank
  fits i lt := absurd lt (Nat.not_lt_zero i)

def IsNoted (noted : List String) (name : String) : Prop := name = "" ∨ name ∈ noted

/-- All nodes of a tree are in one ledger, and the names in the tree were noted. -/
structure WellRead (l : Ledger) (n : Node) (noted : List String) : Prop where
  within : Within l n
  named : ∀ i < l.next, ∀ name ∈ (l.entry i).shape.name?, IsNoted noted name

theorem WellRead.uses {n : Node} {noted : List String} (h : WellRead l n noted) : Uses (IsNoted noted) n := by
  refine ⟨fun name mem => ?_⟩
  obtain ⟨m, inside, own⟩ := List.mem_flatMap.mp mem
  rcases h.within.holds m.mark (List.mem_map_of_mem inside) with blank | has
  · have shape : m.shape = Node.blank.shape := congrArg Mark.shape blank
    rw [shape] at own
    cases own
  · refine h.named m.mark.id has.lt name ?_
    rw [has.entry]
    exact Option.mem_toList.mp own

theorem Parse.run_wellRead {p : Parse Node} {s : ParserState} (next : s.nextId = 0) (fresh : s.cursor = none)
    (roots : ∀ {l : Ledger} {g : Productions}, Laid Ledger g → l.At (skipToken g s).2 → RootsAt l p g s) :
    ∃ l : Ledger, WellRead l (p.run s).1 (p.run s).2.identifiers := by
  let g : Productions := .upTo (Productions.depthFor s.text)
  have link : Laid Ledger g := .of_placeless _
  have skip : Goes Ledger.Stays skipToken := inferInstance
  have stands : Ledger.empty.At (skipToken g s).2 :=
    Ledger.At.stays ⟨next, fresh, fun i lt => absurd lt (Nat.not_lt_zero i)⟩ (skip.leads g s)
  obtain ⟨x, value, stands⟩ := (roots link stands).makes link
  have within : Within x.stage x.value := Ledger.within_node.mp x.built.node
  exact ⟨x.stage, by rw [Parse.run, value]; exact within, stands.named⟩

namespace SourceFile

theorem ofScript_wellRead {s : ParserState} (next : s.nextId = 0) (fresh : s.cursor = none)
    (setParents : Bool) :
    ∃ l : Ledger, WellRead l (ofScript s setParents).root (ofScript s setParents).names := by
  have wellRead (flags : NodeFlags) :
      ∃ l : Ledger, WellRead l (Parse.script.run { s with contextFlags := flags }).1
      (Parse.script.run { s with contextFlags := flags }).2.identifiers :=
    Parse.run_wellRead next fresh fun link stands => Parse.script_roots link stands
  have read := wellRead (s.contextFlags |||
    if isDeclarationName s.fileName then NodeFlags.ambient else .empty)
  unfold ofScript
  dsimp only
  rw [withPragmas_root]
  revert read
  generalize Parse.script.run _ = r
  exact id

/-- The nodes of a file that was read without an old tree are in one ledger, and their names are among
those of the file. -/
theorem parse_wellRead (fileName text : String) (target : ScriptTarget) (kind : ScriptKind)
    (setParents : Bool) :
    ∃ l : Ledger, WellRead l (parse fileName text target kind setParents).root
      (parse fileName text target kind setParents).names := by
  unfold parse
  dsimp only
  split
  · have read := Parse.run_wellRead (p := Parse.json)
      (s := .initial fileName text target (kind.resolve fileName) none 0) rfl rfl
      fun link stands => Parse.json_roots link stands
    revert read
    generalize Parse.json.run _ = r
    exact id
  · exact ofScript_wellRead rfl rfl setParents

theorem parse_within (fileName text : String) (target : ScriptTarget) (kind : ScriptKind)
    (setParents : Bool) : ∃ l : Ledger, Within l (parse fileName text target kind setParents).root :=
  have ⟨l, wellRead⟩ := parse_wellRead fileName text target kind setParents
  ⟨l, wellRead.within⟩

theorem mem_identifiers {f : SourceFile} {name : String} (mem : name ∈ f.names) : name ∈ f.identifiers := by
  have sorted : name ∈ f.names.mergeSort fun a b => !(b < a) := List.mem_mergeSort.mpr mem
  rw [← List.flatten_splitBy (· == ·) (f.names.mergeSort _)] at sorted
  obtain ⟨group, held, inside⟩ := List.mem_flatten.mp sorted
  have chain : group.IsChain Eq := (List.isChain_of_mem_splitBy held).imp fun _ _ same => eq_of_beq same
  cases group with
  | nil => cases inside
  | cons first rest =>
    have same := (List.pairwise_cons.mp (List.isChain_iff_pairwise.mp chain)).1
    have found : first = name := (List.mem_cons.mp inside).elim Eq.symm (same name)
    exact List.mem_filterMap.mpr ⟨_, held, congrArg some found⟩

/-- Every name in the tree of a file that was read is blank or one of the names of the file. -/
theorem parse_uses (fileName text : String) (target : ScriptTarget) (kind : ScriptKind) (setParents : Bool) :
    Uses (IsNoted (parse fileName text target kind setParents).identifiers)
      (parse fileName text target kind setParents).root :=
  have ⟨_, wellRead⟩ := parse_wellRead fileName text target kind setParents
  wellRead.uses.mono fun _ noted => noted.imp_right mem_identifiers

end SourceFile

set_option synthInstance.maxSize 4096

variable {α β : Type}

/-! ## New numbers -/

/-- A ledger with no mark at all, though numbers up to the next one are given. -/
def Ledger.closed (next : Nat) : Ledger where
  next
  entry i := { Node.blank with id := i + 1 }
  fits _ _ := ⟨rfl, Node.blank_fits.kind, fun _ => Node.blank_fits.first rfl⟩

noncomputable def Ledger.without (l : Ledger) (n : Node) : Ledger where
  next := l.next
  entry i :=
    have := Classical.propDecidable
    if ∃ m ∈ n.marks, m ≠ Node.blank ∧ m.id = i then { Node.blank with id := i + 1 } else l.entry i
  fits i lt := by
    dsimp only
    split
    · exact ⟨rfl, Node.blank_fits.kind, fun _ => Node.blank_fits.first rfl⟩
    · exact l.fits i lt

theorem Ledger.has_without {l : Ledger} {n : Node} {m : Mark} : (l.without n).Has m ↔
    l.Has m ∧ ∀ m' ∈ n.marks, m' = Node.blank ∨ m'.id ≠ m.id := by
  have entry : (l.without n).entry m.id =
      have := Classical.propDecidable
      if ∃ m' ∈ n.marks, m' ≠ Node.blank ∧ m'.id = m.id then { Node.blank with id := m.id + 1 }
      else l.entry m.id := rfl
  constructor
  · intro has
    have held := entry.symm.trans has.entry
    dsimp only at held
    split at held
    · exact absurd (congrArg Mark.id held) (Nat.succ_ne_self _)
    · rename_i other
      refine ⟨⟨has.lt, held⟩, fun m' mem => ?_⟩
      by_contra same
      exact other ⟨m', mem, fun blank => same (.inl blank), by_contra fun apart => same (.inr apart)⟩
  · rintro ⟨has, apart⟩
    refine ⟨has.lt, entry.trans ?_⟩
    dsimp only
    rw [if_neg]
    · exact has.entry
    · rintro ⟨m', mem, numbered, same⟩
      exact (apart m' mem).elim numbered fun other => other same

/-- The mark of a node that has a number has one from the first bound up to the second one. -/
def Mark.IsNew (first next : Nat) (m : Mark) : Prop := m = Node.blank ∨ first ≤ m.id ∧ m.id < next

theorem Ledger.isNew_of_holds {first : Nat} {l : Ledger} {m : Mark} (before : (Ledger.closed first).Before l)
    (holds : l.Holds m) : m.IsNew first l.next := by
  refine holds.imp_right fun has => ⟨Nat.le_of_not_lt fun old => ?_, has.lt⟩
  have entry := congrArg Mark.id ((before.entry _ old).symm.trans has.entry)
  exact Nat.succ_ne_self _ entry

/-- Nothing is left of an old tree, and numbers below the bound are given already. -/
structure ParserState.Gave (s : ParserState) (next : Nat) : Prop where
  next : next ≤ s.nextId
  fresh : s.cursor = none

theorem Ledger.Stays.gave {s s' : ParserState} {next : Nat} (stays : Ledger.Stays s s')
    (gave : s.Gave next) : s'.Gave next :=
  ⟨stays.next ▸ gave.next, stays.fresh gave.fresh⟩

theorem Makes.gives_new [Parted α] {p : Parse α} (makes : ∀ l : Ledger, Makes 0 l p) {g : Productions}
    (link : Laid Ledger g) {s : ParserState} {next : Nat} (gave : s.Gave next) :
    (p g s).2.Gave s.nextId ∧ ∀ slot ∈ parts (p g s).1, ∀ m ∈ marks slot, m.IsNew s.nextId (p g s).2.nextId := by
  obtain ⟨⟨l, before, x, built⟩, value, stands⟩ := (makes (.closed s.nextId)).holds link
    (s := s) ⟨rfl, gave.fresh, fun _ _ _ mem => absurd mem (Option.not_mem_none _)⟩
  rw [value, stands.next]
  exact ⟨⟨stands.next ▸ before.next, stands.fresh⟩, fun slot held m mem =>
    Ledger.isNew_of_holds before ((built.holds slot held).holds m mem)⟩

/-! ## Rows -/

def Node.IsBefore (a b : Node) : Prop :=
  ∀ m ∈ a.marks, ∀ m' ∈ b.marks, m = blank ∨ m' = blank ∨ m.id < m'.id

/-- Nodes with numbers below a bound, each with greater ones than those before it. -/
structure IsRow (next : Nat) (ns : List Node) : Prop where
  below : ∀ n ∈ ns, ∀ m ∈ n.marks, m.IsNew 0 next
  sorted : ns.Pairwise Node.IsBefore

namespace IsRow

theorem nil (next : Nat) : IsRow next [] := ⟨List.forall_mem_nil _, .nil⟩

theorem later {next next' : Nat} {ns : List Node} (h : IsRow next ns) (le : next ≤ next') : IsRow next' ns :=
  ⟨fun n mem m inside => (h.below n mem m inside).imp_right fun lt =>
    ⟨lt.1, Nat.lt_of_lt_of_le lt.2 le⟩, h.sorted⟩

theorem append {next next' : Nat} {ns : List Node} {x : Option Node} (h : IsRow next ns)
    (le : next ≤ next') (new : ∀ slot ∈ parts x, ∀ m ∈ marks slot, m.IsNew next next') : IsRow next'
    (ns ++ x.toList) := by
  cases x with
  | none => exact (List.append_nil ns).symm ▸ h.later le
  | some n =>
    have new (m : Mark) (mem : m ∈ n.marks) : m.IsNew next next' :=
      new (.node n) (List.mem_singleton_self _) m (List.mem_flatMap.mpr ⟨n, List.mem_singleton_self n, mem⟩)
    refine ⟨fun a mem m inside => ?_, List.pairwise_append.mpr
      ⟨h.sorted, List.pairwise_singleton _ _, fun a mem b held m inside m' inside' => ?_⟩⟩
    · rcases List.mem_append.mp mem with old | last
      · exact (h.later le).below a old m inside
      · cases List.mem_singleton.mp last
        exact (new m inside).imp_right fun lt => ⟨Nat.zero_le _, lt.2⟩
    · cases List.mem_singleton.mp held
      rcases h.below a mem m inside with blank | old
      · exact .inl blank
      · exact .inr ((new m' inside').imp_right fun lt => Nat.lt_of_lt_of_le old.2 lt.1)

end IsRow

/-- A reading goes on from a row of nodes to the row in its value. -/
class GivesRow (ns : List Node) (row : α → List Node) (p : Parse α) : Prop where
  holds : ∀ {g}, Laid Ledger g → ∀ {s : ParserState}, s.Gave 0 → IsRow s.nextId ns →
    (p g s).2.Gave s.nextId ∧ IsRow (p g s).2.nextId (row (p g s).1)

namespace GivesRow

variable {ns : List Node} {row : α → List Node} {row' : β → List Node}

theorem ofPure {x : α} (same : row x = ns) : GivesRow ns row (Pure.pure x : Parse α) :=
  ⟨fun _ _ gave is => ⟨⟨Nat.le_refl _, gave.fresh⟩, same.symm ▸ is⟩⟩

theorem seq {p : Parse α} {f : α → Parse β} (row : α → List Node) (first : GivesRow ns row p)
    (rest : ∀ x, GivesRow (row x) row' (f x)) : GivesRow ns row' (p >>= f) where
  holds {g} link s gave is := by
    obtain ⟨gave', is'⟩ := first.holds link gave is
    obtain ⟨gave'', is''⟩ := (rest (p g s).1).holds link ⟨Nat.zero_le _, gave'.fresh⟩ is'
    exact ⟨⟨Nat.le_trans gave'.next gave''.next, gave''.fresh⟩, is''⟩

theorem seq_still {p : Parse α} {f : α → Parse β} (first : Still Ledger p) (rest : ∀ x, GivesRow ns row' (f x)) :
    GivesRow ns row' (p >>= f) where
  holds {g} link s gave is := by
    have stays := first.leads g s
    obtain ⟨gave', is'⟩ := (rest (p g s).1).holds link (stays.gave gave) (stays.next.symm ▸ is)
    exact ⟨⟨stays.next ▸ gave'.next, gave'.fresh⟩, is'⟩

theorem seq_read {p : Parse (Option Node)} {f : Option Node → Parse β} (first : ∀ l : Ledger, Makes 0 l p)
    (rest : ∀ x, GivesRow (ns ++ x.toList) row' (f x)) : GivesRow ns row' (p >>= f) where
  holds {g} link s gave is := by
    obtain ⟨gave', new⟩ := Makes.gives_new first link gave
    obtain ⟨gave'', is''⟩ := (rest (p g s).1).holds link ⟨Nat.zero_le _, gave'.fresh⟩
      (is.append gave'.next new)
    exact ⟨⟨Nat.le_trans gave'.next gave''.next, gave''.fresh⟩, is''⟩

theorem seq_aside [Parted α] {p : Parse α} {f : α → Parse β} (first : ∀ l : Ledger, Makes 0 l p)
    (rest : ∀ g s, GivesRow ns row' (f (p g s).1)) : GivesRow ns row' (p >>= f) where
  holds {g} link s gave is := by
    obtain ⟨gave', -⟩ := Makes.gives_new first link gave
    obtain ⟨gave'', is''⟩ := (rest g s).holds link ⟨Nat.zero_le _, gave'.fresh⟩ (is.later gave'.next)
    exact ⟨⟨Nat.le_trans gave'.next gave''.next, gave''.fresh⟩, is''⟩

theorem choose {c : Prop} {_ : Decidable c} {p q : Parse α} (yes : GivesRow ns row p)
    (no : GivesRow ns row q) : GivesRow ns row (if c then p else q) := by
  split <;> assumption

def rounded (row : α → List Node) : ForInStep α → List Node
  | .done x => row x
  | .yield x => row x

theorem run {f : α → Parse (ForInStep α)} (body : ∀ x, GivesRow (row x) (rounded row) (f x)) (left : Nat)
    (x : α) : GivesRow (row x) row (Rounds.run f left x) := by
  induction left generalizing x with
  | zero =>
    unfold Rounds.run
    exact .seq_still inferInstance fun _ => .ofPure rfl
  | succ left ih =>
    unfold Rounds.run
    refine .seq_still inferInstance fun start => .seq _ (body x) fun step => ?_
    cases step with
    | done y => exact .ofPure rfl
    | yield y =>
      refine .seq_still inferInstance fun stop => .choose ?_ (ih y)
      exact .seq_still inferInstance fun _ => .ofPure rfl

theorem rounds {f : Unit → α → Parse (ForInStep α)} (row : α → List Node)
    (body : ∀ x, GivesRow (row x) (rounded row) (f () x)) (x : α) : GivesRow (row x) row
    (forIn Rounds.rounds x f) where
  holds link _ gave is := (run body _ x).holds link gave is

end GivesRow

/-! ## Lists and files -/

theorem Parse.toList_pushSome (items : Array Node) (x : Option Node) :
    (pushSome items x).toList = items.toList ++ x.toList := by
  cases x with
  | none => exact (List.append_nil _).symm
  | some n => exact Array.toList_push ..

theorem Parse.listOf_givesRow (context : ListContext) (read : Parse Node) [∀ l : Ledger, Makes 0 l read] :
    GivesRow [] NodeList.items (listOf context read) := by
  unfold listOf withOpenList
  refine .seq_still inferInstance fun pos => .seq Array.toList ?_ fun items =>
    .seq_still inferInstance fun _ => .ofPure rfl
  refine .seq_still inferInstance fun s =>
    .seq_still (.turns (c := fun t => { t.context with openLists := context :: s.openLists })) fun _ => ?_
  refine .seq Array.toList (.seq Array.toList (.rounds Array.toList (fun items => ?_) #[])
    fun _ => .ofPure rfl) fun _ =>
      .seq_still (.turns (c := fun t => { t.context with openLists := s.openLists })) fun _ => .ofPure rfl
  refine .seq_still inferInstance fun ends => .choose (.ofPure rfl) ?_
  refine .seq_still inferInstance fun starts => .choose ?_ ?_
  · have pushed (x : Option Node) : GivesRow (items.toList ++ x.toList) (GivesRow.rounded Array.toList)
        (pure (.yield (pushSome items x))) := .ofPure (toList_pushSome items x)
    refine .seq_still inferInstance fun start => .seq_read inferInstance fun x => ?_
    refine .seq_still inferInstance fun pos => .seq_still inferInstance fun atEnd => .choose ?_ (pushed x)
    exact .seq_still inferInstance fun _ => pushed x
  · exact .seq_still inferInstance fun _ => .choose (.ofPure rfl) (.ofPure rfl)

def Node.listed (n : Node) : List Node := ((n.statements?).map (·.items)).getD []

theorem Node.listed_addFlags (n : Node) (flags : NodeFlags) : (n.addFlags flags).listed = n.listed := by
  cases n
  rfl

theorem Parse.rootNode_givesRow (statements : NodeList) (endOfFile : Node) :
    GivesRow statements.items Node.listed (rootNode statements endOfFile) where
  holds {g} _ s gave is := by
    have listed : ((rootNode statements endOfFile g s).1).listed = statements.items := rfl
    rw [listed]
    exact ⟨⟨Nat.le_succ _, gave.fresh⟩, is.later (Nat.le_succ _)⟩

theorem Parse.script_givesRow : GivesRow [] Node.listed script := by
  have ending (hasDoc : Bool) (l : Ledger) : Makes 0 l (tokenNode >>= fun n => withDocs hasDoc n) := inferInstance
  unfold script
  refine .seq_still inferInstance fun _ => .seq _ (listOf_givesRow _ _) fun statements =>
    .seq_still inferInstance fun s => ?_
  change GivesRow _ _ ((tokenNode >>= fun n => withDocs (s.scanner.hasFlag TokenFlags.precedingDoc) n) >>=
    fun endOfFile => rootNode statements endOfFile >>= fun root => get >>= fun s =>
      pure (root.addFlags s.fileFlags))
  refine .seq_aside (ending _) fun _ _ => .seq _ (rootNode_givesRow _ _) fun root => ?_
  exact .seq_still inferInstance fun _ => .ofPure (Node.listed_addFlags ..)

theorem Parse.json_root {P : Node → Prop}
    (root : ∀ (statements : NodeList) (endOfFile : Node) g s, statements.items.length ≤ 1 →
      P (rootNode statements endOfFile g s).1) (g : Productions) (s : ParserState) : P (json g s).1 := by
  have ends {α : Type} {p : Parse α} {f : α → Parse Node} (rest : ∀ x g s, P (f x g s).1) (g : Productions)
      (s : ParserState) : P ((p >>= f) g s).1 := rest _ g _
  have last (pos : Nat) (statement : Node) (g : Productions) (s : ParserState) :
      P ((listFrom #[statement] pos >>= fun statements =>
        expectedToken .endOfFileToken (some .unexpectedToken) >>= rootNode statements) g s).1 :=
    let listed := listFrom #[statement] pos g s
    let ended := expectedToken .endOfFileToken (some .unexpectedToken) g listed.2
    root listed.1 ended.1 g ended.2 (Nat.le_refl 1)
  unfold json
  refine ends (fun _ => ends fun pos => ends fun atEnd g s => ?_) g s
  split
  · exact ends (fun endOfFile g s => root (.ofItems [] pos pos) endOfFile g s (Nat.zero_le 1)) g s
  · refine ends (fun values g s => ?_) g s
    rcases values.toList with _ | ⟨value, _ | ⟨_, _⟩⟩
    case cons.nil => exact ends (fun e => ends fun statement => last pos statement) g s
    all_goals exact ends (fun items => ends fun e => ends fun statement => last pos statement) g s

theorem Parse.script_kind (g : Productions) (s : ParserState) : (script g s).1.kind = .sourceFile := by
  unfold script
  rfl

theorem Parse.script_sorted {s : ParserState} (fresh : s.cursor = none) :
    (script.run s).1.listed.Pairwise Node.IsBefore :=
  (script_givesRow.holds (Laid.of_placeless (Productions.depthFor s.text)) ⟨Nat.zero_le _, fresh⟩
    (.nil _)).2.sorted

namespace SourceFile

theorem ofScript_sorted {s : ParserState} (fresh : s.cursor = none) (setParents : Bool) :
    (ofScript s setParents).statements.Pairwise Node.IsBefore := by
  have sorted (flags : NodeFlags) :
      (Parse.script.run { s with contextFlags := flags }).1.listed.Pairwise Node.IsBefore :=
    Parse.script_sorted fresh
  have read := sorted (s.contextFlags ||| if isDeclarationName s.fileName then NodeFlags.ambient else .empty)
  unfold ofScript statements
  dsimp only
  rw [withPragmas_root]
  revert read
  generalize Parse.script.run _ = r
  exact id

/-- The statements of a file that was read without an old tree share no numbers. -/
theorem parse_sorted (fileName text : String) (target : ScriptTarget) (kind : ScriptKind) (setParents : Bool) :
    (parse fileName text target kind setParents).statements.Pairwise Node.IsBefore := by
  have sorted_of_few {ns : List Node} (few : ns.length ≤ 1) : ns.Pairwise Node.IsBefore := by
    rcases ns with _ | ⟨n, _ | ⟨_, _⟩⟩
    · exact .nil
    · exact List.pairwise_singleton ..
    · simp at few
  have few (s : ParserState) : (Parse.json.run s).1.listed.length ≤ 1 :=
    Parse.json_root (P := fun root => root.listed.length ≤ 1) (fun _ _ _ _ few => few) _ s
  unfold parse
  dsimp only
  split
  · have read := sorted_of_few (few (.initial fileName text target (kind.resolve fileName) none 0))
    revert read
    generalize Parse.json.run _ = r
    exact id
  · exact ofScript_sorted rfl setParents

theorem ofScript_kind (s : ParserState) (setParents : Bool) :
    (ofScript s setParents).root.kind = .sourceFile := by
  have kind (flags : NodeFlags) : (Parse.script.run { s with contextFlags := flags }).1.kind = .sourceFile :=
    Parse.script_kind _ _
  have read := kind (s.contextFlags ||| if isDeclarationName s.fileName then NodeFlags.ambient else .empty)
  unfold ofScript
  dsimp only
  rw [withPragmas_root]
  revert read
  generalize Parse.script.run _ = r
  exact id

theorem parse_kind (fileName text : String) (target : ScriptTarget) (kind : ScriptKind) (setParents : Bool) :
    (parse fileName text target kind setParents).root.kind = .sourceFile := by
  have json (s : ParserState) : (Parse.json.run s).1.kind = .sourceFile :=
    Parse.json_root (P := fun root => root.kind = .sourceFile) (fun _ _ _ _ _ => rfl) _ s
  unfold parse
  dsimp only
  split
  · have read := json (.initial fileName text target (kind.resolve fileName) none 0)
    revert read
    generalize Parse.json.run _ = r
    exact id
  · exact ofScript_kind _ setParents

end SourceFile

end ScriptFrontend
