import ScriptFrontend.Proofs.Tree.Contains
import ScriptFrontend.Tree.Cursor

/-!
# What a cursor answers

A cursor tries the element after its last answer before it searches the tree. Where the parts of a tree
lie apart and in their ranges this makes no difference, except that the element after the last answer
may have no width: a search then finds what stands behind the list. So a cursor over a tree whose list
elements all have a width answers whatever a search of the whole tree answers, in any order of questions.
-/

namespace ScriptFrontend

def Slot.Holds (position : Nat) : Slot → Prop
  | .absent => False
  | .node n => n.pos ≤ position ∧ position < n.stop
  | .list head _ => head.pos ≤ position ∧ position < head.stop

namespace Node

/-- The parts of the node lie apart and in its range, and the elements of its lists in order in theirs. -/
structure Places (n : Node) : Prop where
  apart : n.slots.Pairwise fun a b => ∀ p, a.Holds p → ¬ b.Holds p
  inside : ∀ slot ∈ n.slots, ∀ p, slot.Holds p → n.pos ≤ p ∧ p < n.stop
  ordered : ∀ head items, Slot.list head items ∈ n.slots → items.Pairwise fun a b => a.stop ≤ b.pos
  within : ∀ head items, Slot.list head items ∈ n.slots →
    ∀ m ∈ items, head.pos ≤ m.pos ∧ m.pos ≤ m.stop ∧ m.stop ≤ head.stop

def IsPlaced (root : Node) : Prop := ∀ n, root.Contains n → n.Places

def HasElement (root n : Node) : Prop :=
  ∃ m head items, root.Contains m ∧ Slot.list head items ∈ m.slots ∧ n ∈ items

/-- An element and those after it in its list, where the offset is in the range of the list and of all
that stands between the root and the list. No element before it starts at the offset. -/
inductive Reaches (position : Nat) : Node → Node → List Node → Prop
  | element {root n : Node} {rest front : List Node} {head : ListHead}
      (slot : Slot.list head (front ++ n :: rest) ∈ root.slots)
      (holds : head.pos ≤ position ∧ position < head.stop) (first : ∀ m ∈ front, m.pos ≠ position) :
      Reaches position root n rest
  | child {root m n : Node} {rest : List Node} (slot : Slot.node m ∈ root.slots)
      (holds : m.pos ≤ position ∧ position < m.stop) (below : Reaches position m n rest) :
      Reaches position root n rest
  | item {root m n : Node} {rest front after : List Node} {head : ListHead}
      (slot : Slot.list head (front ++ m :: after) ∈ root.slots)
      (holds : head.pos ≤ position ∧ position < head.stop) (inside : m.pos < position ∧ position < m.stop)
      (below : Reaches position m n rest) : Reaches position root n rest

variable {position : Nat} {root n m : Node} {rest front : List Node}

theorem IsPlaced.below (placed : root.IsPlaced) (mem : m ∈ root.children) : m.IsPlaced :=
  fun n contains => placed n (.ofChild mem contains)

theorem IsPlaced.intro (places : root.Places) (children : ∀ m ∈ root.children, m.IsPlaced) : root.IsPlaced := by
  intro n contains
  rcases Relation.ReflTransGen.cases_head contains with rfl | ⟨child, mem, below⟩
  · exact places
  · exact children child mem n below

theorem IsPlaced.places (placed : root.IsPlaced) : root.Places := placed root (.refl root)

theorem mem_children_of_node (slot : Slot.node m ∈ root.slots) : m ∈ root.children :=
  List.mem_flatMap.mpr ⟨_, slot, List.mem_singleton_self m⟩

theorem mem_children_of_list {head : ListHead} {items : List Node} (slot : Slot.list head items ∈ root.slots)
    (mem : m ∈ items) : m ∈ root.children :=
  List.mem_flatMap.mpr ⟨_, slot, mem⟩

/-! ## Searching -/

theorem elementInSlot?_eq_none {slot : Slot} (outside : ¬ slot.Holds position) :
    elementInSlot? position slot = none := by
  cases slot with
  | absent => rw [elementInSlot?]
  | node n => rw [elementInSlot?, if_neg (by simpa [Slot.Holds] using outside)]
  | list head items =>
    rw [elementInSlot?, if_pos]
    simpa [Slot.Holds, or_iff_not_imp_left] using outside

theorem elementInSlot?_list {head : ListHead} (holds : head.pos ≤ position ∧ position < head.stop)
    (items : List Node) :
    elementInSlot? position (.list head items) = some (elementInItems? position items) := by
  rw [elementInSlot?, if_neg]
  simpa using holds

/-- Of slots that lie apart, the one that holds the offset gives the answer. -/
theorem elementInSlots?_of_holds {slots : List Slot} {slot : Slot} {found : Option (Node × List Node)}
    (apart : slots.Pairwise fun a b => ∀ p, a.Holds p → ¬ b.Holds p) (mem : slot ∈ slots)
    (holds : slot.Holds position) (answer : elementInSlot? position slot = some found) :
    elementInSlots? position slots = found := by
  induction slots with
  | nil => cases mem
  | cons first slots ih =>
    obtain ⟨here, later⟩ := List.pairwise_cons.mp apart
    rw [elementInSlots?]
    rcases List.mem_cons.mp mem with rfl | inside
    · rw [answer]
    · have outside : ¬ first.Holds position := fun held => here slot inside position held holds
      rw [elementInSlot?_eq_none outside]
      exact ih later inside

/-- Elements that neither start at the offset nor hold it are passed over. -/
theorem elementInItems?_append {items : List Node}
    (passed : ∀ m ∈ front, m.pos ≠ position ∧ ¬ (m.pos < position ∧ position < m.stop)) :
    elementInItems? position (front ++ items) = elementInItems? position items := by
  induction front with
  | nil => rfl
  | cons m front ih =>
    have here := passed m (List.mem_cons_self ..)
    rw [List.cons_append, elementInItems?, if_neg (by simpa using here.1), if_neg (by simpa using here.2)]
    exact ih fun m mem => passed m (List.mem_cons_of_mem _ mem)

/-- Elements before one that starts at the offset or before it end there, too. -/
theorem Places.before {head : ListHead} (places : root.Places)
    (slot : Slot.list head (front ++ m :: rest) ∈ root.slots) {earlier : Node} (mem : earlier ∈ front) :
    earlier.pos ≤ earlier.stop ∧ earlier.stop ≤ m.pos :=
  ⟨(places.within head _ slot earlier (List.mem_append_left _ mem)).2.1,
    (List.pairwise_append.mp (places.ordered head _ slot)).2.2 earlier mem m (List.mem_cons_self ..)⟩

theorem Reaches.search (reaches : root.Reaches position n rest) (placed : root.IsPlaced)
    (starts : n.pos = position) : root.elementAt? position = some (n, rest) := by
  induction reaches with
  | @element root n rest front head slot holds first =>
    obtain ⟨h, s, slots, docs, origin⟩ := root
    rw [elementAt?]
    refine elementInSlots?_of_holds placed.places.apart slot holds ?_
    rw [elementInSlot?_list holds, elementInItems?_append, elementInItems?, if_pos (by simpa using starts)]
    intro earlier mem
    have := placed.places.before slot mem
    exact ⟨first earlier mem, by omega⟩
  | @child root m n rest slot holds below ih =>
    have found := ih (placed.below (mem_children_of_node slot)) starts
    obtain ⟨h, s, slots, docs, origin⟩ := root
    rw [elementAt?]
    refine elementInSlots?_of_holds placed.places.apart slot holds ?_
    rw [elementInSlot?, if_pos (by simpa using holds), found]
  | @item root m n rest front after head slot holds inside below ih =>
    have child := mem_children_of_list slot List.mem_append_cons_self
    have found := ih (placed.below child) starts
    obtain ⟨h, s, slots, docs, origin⟩ := root
    rw [elementAt?]
    refine elementInSlots?_of_holds placed.places.apart slot holds ?_
    rw [elementInSlot?_list holds, elementInItems?_append, elementInItems?, if_neg (by simp; omega),
      if_pos (by simpa using inside), found]
    intro earlier mem
    have := placed.places.before slot mem
    omega

mutual

theorem reaches_of_elementAt? : ∀ root : Node, root.elementAt? position = some (n, rest) →
    n.pos = position ∧ root.Reaches position n rest
  | .mk h s slots docs origin => fun found => by
    rw [elementAt?] at found
    exact reaches_of_elementInSlots? (.mk h s slots docs origin) slots (List.Subset.refl _) found
termination_by structural root => root

theorem reaches_of_elementInSlots? (root : Node) : ∀ slots : List Slot, slots ⊆ root.slots →
    elementInSlots? position slots = some (n, rest) → n.pos = position ∧ root.Reaches position n rest
  | [] => fun _ found => by
    rw [elementInSlots?] at found
    cases found
  | slot :: slots => fun among found => by
    rw [elementInSlots?] at found
    split at found
    · rename_i answer
      exact reaches_of_elementInSlot? root slot (among (List.mem_cons_self ..))
        (answer.trans (congrArg some found))
    · exact reaches_of_elementInSlots? root slots (fun _ mem => among (List.mem_cons_of_mem _ mem)) found
termination_by structural slots => slots

theorem reaches_of_elementInSlot? (root : Node) : ∀ slot : Slot, slot ∈ root.slots →
    elementInSlot? position slot = some (some (n, rest)) → n.pos = position ∧ root.Reaches position n rest
  | .absent => fun _ found => by
    rw [elementInSlot?] at found
    cases found
  | .node m => fun mem found => by
    rw [elementInSlot?] at found
    split at found
    · rename_i holds
      obtain ⟨starts, below⟩ := reaches_of_elementAt? m (Option.some.inj found)
      exact ⟨starts, .child mem (by simpa using holds) below⟩
    · cases found
  | .list head items => fun mem found => by
    rw [elementInSlot?] at found
    split at found
    · cases found
    · rename_i holds
      exact reaches_of_elementInItems? root head items [] mem (by simpa using holds) (List.forall_mem_nil _)
        (Option.some.inj found)
termination_by structural slot => slot

theorem reaches_of_elementInItems? (root : Node) (head : ListHead) : ∀ items front : List Node,
    Slot.list head (front ++ items) ∈ root.slots → head.pos ≤ position ∧ position < head.stop →
      (∀ m ∈ front, m.pos ≠ position) → elementInItems? position items = some (n, rest) →
        n.pos = position ∧ root.Reaches position n rest
  | [], _ => fun _ _ _ found => by
    rw [elementInItems?] at found
    cases found
  | m :: items, front => fun slot holds first found => by
    rw [elementInItems?] at found
    split at found
    · rename_i starts
      cases found
      exact ⟨eq_of_beq starts, .element slot holds first⟩
    split at found
    · rename_i inside
      obtain ⟨starts, below⟩ := reaches_of_elementAt? m found
      exact ⟨starts, .item slot holds (by simpa using inside) below⟩
    · rename_i other _
      refine reaches_of_elementInItems? root head items (front ++ [m]) (by simpa using slot) holds ?_ found
      intro earlier mem
      rcases List.mem_append.mp mem with before | last
      · exact first earlier before
      · rw [List.mem_singleton.mp last]
        simpa using other
termination_by structural items => items

end

/-! ## The next element -/

theorem Reaches.list (reaches : root.Reaches position n rest) :
    ∃ owner head front, root.Contains owner ∧ Slot.list head (front ++ n :: rest) ∈ owner.slots := by
  induction reaches with
  | element slot holds first => exact ⟨_, _, _, .refl _, slot⟩
  | child slot holds below ih =>
    obtain ⟨owner, head, front, contains, list⟩ := ih
    exact ⟨owner, head, front, .ofChild (mem_children_of_node slot) contains, list⟩
  | item slot holds inside below ih =>
    obtain ⟨owner, head, front, contains, list⟩ := ih
    have child := mem_children_of_list slot List.mem_append_cons_self
    exact ⟨owner, head, front, .ofChild child contains, list⟩

theorem Reaches.hasElement (reaches : root.Reaches position n rest) (mem : m ∈ n :: rest) :
    root.HasElement m := by
  obtain ⟨owner, head, front, contains, list⟩ := reaches.list
  exact ⟨owner, head, _, contains, list, List.mem_append_right _ mem⟩

theorem Reaches.stop_le (reaches : root.Reaches position n rest) (placed : root.IsPlaced) (mem : m ∈ rest) :
    n.stop ≤ m.pos := by
  obtain ⟨owner, head, front, contains, list⟩ := reaches.list
  have ordered := (List.pairwise_append.mp ((placed owner contains).ordered head _ list)).2.1
  exact (List.pairwise_cons.mp ordered).1 m mem

/-- What a slot holds from its start to its end is in the range of the node. -/
theorem Places.covers {slot : Slot} (places : root.Places) (mem : slot ∈ root.slots)
    (starts : slot.Holds m.pos) (ends : slot.Holds (m.stop - 1)) :
    root.pos ≤ m.pos ∧ m.stop ≤ root.stop := by
  have first := places.inside slot mem _ starts
  have last := places.inside slot mem _ ends
  omega

/-- The elements after a reached one are in the range of all nodes around their list. -/
theorem Reaches.bounds (reaches : root.Reaches position n rest) (placed : root.IsPlaced) (mem : m ∈ rest)
    (wide : m.pos < m.stop) : root.pos ≤ m.pos ∧ m.stop ≤ root.stop := by
  induction reaches with
  | element slot holds first =>
    have within := placed.places.within _ _ slot m (List.mem_append_right _ (List.mem_cons_of_mem _ mem))
    exact placed.places.covers slot ⟨by omega, by omega⟩ ⟨by omega, by omega⟩
  | child slot holds below ih =>
    have inner := ih (placed.below (mem_children_of_node slot)) mem
    exact placed.places.covers slot ⟨by omega, by omega⟩ ⟨by omega, by omega⟩
  | item slot holds inside below ih =>
    have inner := ih (placed.below (mem_children_of_list slot List.mem_append_cons_self)) mem
    have within := placed.places.within _ _ slot _ List.mem_append_cons_self
    exact placed.places.covers slot ⟨by omega, by omega⟩ ⟨by omega, by omega⟩

theorem Reaches.next (reaches : root.Reaches position n (m :: rest)) (placed : root.IsPlaced)
    (starts : n.pos = position) (wide : n.pos < n.stop) (nextWide : m.pos < m.stop) :
    root.Reaches m.pos m rest := by
  have later := reaches.stop_le placed (List.mem_cons_self ..)
  generalize after : m :: rest = items at reaches
  have mem : m ∈ items := after ▸ List.mem_cons_self ..
  induction reaches with
  | @element root n items front head slot holds first =>
    subst after
    have split : front ++ n :: m :: rest = (front ++ [n]) ++ m :: rest := by simp
    have within := placed.places.within _ _ slot m (by simp)
    refine .element (split ▸ slot) ⟨within.1, by omega⟩ ?_
    intro earlier inside
    rcases List.mem_append.mp inside with before | last
    · have := placed.places.before slot before
      have := first earlier before
      omega
    · rw [List.mem_singleton.mp last]
      omega
  | child slot holds below ih =>
    have inner := placed.below (mem_children_of_node slot)
    have bounds := below.bounds inner mem nextWide
    exact .child slot (by omega) (ih inner starts wide later after mem)
  | item slot holds inside below ih =>
    have inner := placed.below (mem_children_of_list slot List.mem_append_cons_self)
    have within := placed.places.within _ _ slot _ List.mem_append_cons_self
    have bounds := below.bounds inner mem nextWide
    exact .item slot (by omega) (by omega) (ih inner starts wide later after mem)

theorem HasElement.pos_le_stop (element : root.HasElement n) (placed : root.IsPlaced) : n.pos ≤ n.stop := by
  obtain ⟨owner, head, items, contains, list, mem⟩ := element
  exact ((placed owner contains).within head items list n mem).2.1

theorem list_mem_slots_of_statements {l : NodeList} (statements : root.statements? = some l) :
    Slot.list l.head l.items ∈ root.slots := by
  let lists (slot : Slot) : List Slot := if slot.list?.isSome then [slot] else []
  have kept : ∀ slot ∈ root.slots.flatMap lists, slot ∈ root.slots := by
    intro slot mem
    obtain ⟨source, inside, same⟩ := List.mem_flatMap.mp mem
    simp only [lists, List.mem_ite_nil_right, List.mem_singleton] at same
    exact same.2 ▸ inside
  refine kept _ ((slots_form rfl root).subset ?_)
  rw [statements?] at statements
  split at statements
  all_goals try cases statements
  all_goals
    rename_i form
    simp [form, Form.slots, Slot.ofList, lists, Slot.list?]

theorem exists_list_of_firstStatement (items : (root.statements?.map (·.items)).getD [] = n :: rest) :
    ∃ head, Slot.list head (n :: rest) ∈ root.slots := by
  cases statements : root.statements? with
  | none =>
    rw [statements] at items
    cases items
  | some l =>
    rw [statements] at items
    exact ⟨l.head, (show l.items = n :: rest from items) ▸ list_mem_slots_of_statements statements⟩

end Node

/-! ## The cursor -/

namespace ElementCursor

variable {root n : Node} {rest : List Node} {c : ElementCursor} {position : Nat}

/-- The answer is that of a search, or an element of the tree that starts and ends at the offset. -/
def Answers (root : Node) (position : Nat) (answer : Option Node) : Prop :=
  answer = (root.elementAt? position).map Prod.fst ∨
    ∃ n, answer = some n ∧ root.HasElement n ∧ n.pos = position ∧ n.stop = position

/-- A cursor over the tree: where it stands on an element with a width, a search for the start of the
element finds its place, and its last answer still answers. -/
structure Tracks (root : Node) (c : ElementCursor) : Prop where
  tree : c.root = root
  reached : ∀ n, c.current = some n → n.pos < n.stop → root.Reaches n.pos n c.ahead
  ordered : ∀ n, c.current = some n → n.pos ≤ n.stop
  answered : ∀ p, c.lastPosition = some p → Answers root p c.current ∧ ∀ n, c.current = some n → n.pos = p
  fresh : c.lastPosition = none → ∀ n, c.current = some n → n.pos < n.stop

theorem Tracks.ofElement (placed : root.IsPlaced) (tree : c.root = root) (current : c.current = some n)
    (element : root.HasElement n) (starts : n.pos = position)
    (reached : n.pos < n.stop → root.Reaches position n c.ahead) :
    Tracks root { c with lastPosition := some position } where
  tree := tree
  reached m same wide := by
    obtain rfl : n = m := Option.some.inj (current.symm.trans same)
    exact starts ▸ reached wide
  ordered m same := by
    obtain rfl : n = m := Option.some.inj (current.symm.trans same)
    exact element.pos_le_stop placed
  answered := by
    rintro _ ⟨⟩
    refine ⟨?_, fun m same => Option.some.inj (current.symm.trans same) ▸ starts⟩
    have ordered := element.pos_le_stop placed
    rcases Nat.lt_or_ge n.pos n.stop with wide | empty
    · exact .inl (by rw [(reached wide).search placed starts, Option.map_some]; exact current)
    · exact .inr ⟨n, current, element, starts, by omega⟩
  fresh := nofun

theorem Tracks.search (placed : root.IsPlaced) (tree : c.root = root) (position : Nat) :
    Tracks root { c.search position with lastPosition := some position } := by
  subst tree
  rw [ElementCursor.search]
  split
  · rename_i n rest found
    obtain ⟨starts, reaches⟩ := Node.reaches_of_elementAt? _ found
    exact .ofElement placed rfl rfl (reaches.hasElement (List.mem_cons_self ..)) starts fun _ => reaches
  · rename_i none
    exact ⟨rfl, nofun, nofun, by rintro _ ⟨⟩; exact ⟨.inl (by rw [none]; rfl), nofun⟩, nofun⟩

theorem advance_cases (c : ElementCursor) (position : Nat) : c.advance position = c ∨
    ∃ n next rest, c.current = some n ∧ c.ahead = next :: rest ∧ n.stop = position ∧
      c.advance position = { c with current := some next, ahead := rest } := by
  rw [advance]
  split
  · rename_i n next rest current ahead
    split
    · rename_i ends
      exact .inr ⟨n, next, rest, current, ahead, eq_of_beq ends, rfl⟩
    · exact .inl rfl
  · exact .inl rfl

@[simp] theorem root_advance (c : ElementCursor) (position : Nat) : (c.advance position).root = c.root := by
  rcases c.advance_cases position with stays | ⟨n, next, rest, -, -, -, moves⟩
  · rw [stays]
  · rw [moves]

/-- The next element of the list, or the last one where nothing was asked yet, at a new offset. -/
theorem Tracks.advance (tracks : Tracks root c) (placed : root.IsPlaced)
    (other : c.lastPosition ≠ some position) (current : (c.advance position).current = some n)
    (starts : n.pos = position) :
    Tracks root { c.advance position with lastPosition := some position } := by
  -- An answer of no width ends at the last offset, which is not the one that is asked for.
  have wide : ∀ m, c.current = some m → m.stop = position ∨ m.pos = position → m.pos < m.stop := by
    intro m same meets
    cases last : c.lastPosition with
    | none => exact tracks.fresh last m same
    | some p =>
      have here := (tracks.answered p last).2 m same
      have ordered := tracks.ordered m same
      have differs : p ≠ position := fun equal => other (equal ▸ last)
      omega
  have tree := (c.root_advance position).trans tracks.tree
  rcases c.advance_cases position with stays | ⟨m, next, rest, same, ahead, ends, moves⟩
  · rw [stays] at current tree ⊢
    have reaches := tracks.reached n current (wide n current (.inr starts))
    exact .ofElement placed tree current (reaches.hasElement (List.mem_cons_self ..)) starts
      fun _ => starts ▸ reaches
  · rw [moves] at current tree ⊢
    cases current
    have mWide := wide m same (.inl ends)
    have reaches := ahead ▸ tracks.reached m same mWide
    exact .ofElement placed tree rfl (reaches.hasElement (by simp)) starts
      fun nextWide => starts ▸ reaches.next placed rfl mWide nextWide

theorem Tracks.nodeAt (tracks : Tracks root c) (placed : root.IsPlaced) (position : Nat) :
    Tracks root (c.nodeAt position).2 := by
  rw [ElementCursor.nodeAt]
  split
  · exact tracks
  · rename_i other
    have other : c.lastPosition ≠ some position := by simpa using other
    dsimp only
    split
    · rename_i stands
      obtain ⟨isSome, starts⟩ := (Option.any_eq_true_iff_get ..).mp stands
      exact tracks.advance placed other (Option.eq_some_of_isSome isSome) (eq_of_beq starts)
    · exact .search placed ((c.root_advance position).trans tracks.tree) position

theorem nodeAt_answers (tracks : Tracks root c) (placed : root.IsPlaced) (position : Nat) :
    Answers root position (c.nodeAt position).1 := by
  have answered := ((tracks.nodeAt placed position).answered position)
  rw [ElementCursor.nodeAt] at answered ⊢
  split at answered
  · rename_i same
    rw [if_pos same]
    exact (answered (by simpa using same)).1
  · rename_i other
    rw [if_neg other]
    exact (answered rfl).1

theorem Tracks.run (placed : root.IsPlaced) (asked : List Nat) (tracks : Tracks root c) :
    Tracks root (asked.foldl (fun c p => (c.nodeAt p).2) c) := by
  induction asked generalizing c with
  | nil => exact tracks
  | cons p asked ih => exact ih (tracks.nodeAt placed p)

theorem tracks_ofRoot (placed : root.IsPlaced)
    (wide : ∀ n ∈ ((root.statements?.map (·.items)).getD []).head?, n.pos < n.stop) :
    Tracks root (ofRoot root) := by
  rw [ofRoot]
  split
  · exact ⟨rfl, nofun, nofun, nofun, nofun⟩
  · rename_i n rest items
    rw [items, List.head?_cons] at wide
    have wide := wide n rfl
    obtain ⟨head, list⟩ := Node.exists_list_of_firstStatement items
    have within := placed.places.within head _ list n (List.mem_cons_self ..)
    refine ⟨rfl, ?_, ?_, nofun, ?_⟩
    · rintro _ ⟨⟩ _
      exact .element (show Slot.list head ([] ++ n :: rest) ∈ root.slots from list) (by omega) nofun
    · rintro _ ⟨⟩
      omega
    · rintro _ _ ⟨⟩
      exact wide

/-- In any order of questions, a cursor answers what a search of the whole tree answers, or an element
of no width that stands at the offset. Where no element of a list is without a width, a cursor is a search
of the whole tree. -/
theorem asked_cursor_searches (placed : root.IsPlaced)
    (wide : ∀ n ∈ ((root.statements?.map (·.items)).getD []).head?, n.pos < n.stop)
    (asked : List Nat) (position : Nat) :
    let answer := ((asked.foldl (fun c p => (c.nodeAt p).2) (ofRoot root)).nodeAt position).1
    Answers root position answer ∧
      ((∀ n, root.HasElement n → n.pos < n.stop) → answer = (root.elementAt? position).map Prod.fst) := by
  intro answer
  have answers : Answers root position answer :=
    nodeAt_answers ((tracks_ofRoot placed wide).run placed asked) placed position
  refine ⟨answers, fun allWide => ?_⟩
  rcases answers with search | ⟨n, -, element, starts, ends⟩
  · exact search
  · have := allWide n element
    omega

theorem asked_cursor_searches_two_statements :
    let statement (pos : Nat) : Node := .mk ⟨.emptyStatement, pos + 1, pos, pos + 1, .empty, false⟩ .token [] [] none
    let last : Node := .mk ⟨.endOfFileToken, 3, 2, 2, .empty, false⟩ .token [] [] none
    let root : Node := .mk ⟨.sourceFile, 4, 0, 2, .empty, false⟩ .sourceFile
      [.list ⟨0, 2, false, false, false⟩ [statement 0, statement 1], .node last] [] none
    root.IsPlaced ∧ (∀ n ∈ ((root.statements?.map (·.items)).getD []).head?, n.pos < n.stop) ∧
      Answers root 1 (([1, 0].foldl (fun c p => (c.nodeAt p).2) (ofRoot root)).nodeAt 1).1 := by
  intro statement last root
  have leaf {n : Node} (slots : n.slots = []) : n.IsPlaced :=
    .intro ⟨by simp [slots], by simp [slots], by simp [slots], by simp [slots]⟩ (by simp [Node.children, slots])
  have places : root.Places := by
    refine ⟨?apart, ?inside, ?ordered, ?within⟩
    case apart =>
      refine List.pairwise_pair.mpr fun p inList inLast => ?_
      have : p < 2 := inList.2
      have : 2 ≤ p := inLast.1
      omega
    case inside =>
      intro slot mem p holds
      rcases List.mem_pair.mp mem with rfl | rfl
      · exact holds
      · have : p < 2 := holds.2
        exact ⟨Nat.zero_le p, this⟩
    case ordered =>
      intro head items mem
      cases (List.mem_pair.mp mem).resolve_right nofun
      exact List.pairwise_pair.mpr (Nat.le_refl 1)
    case within =>
      intro head items mem m inside
      cases (List.mem_pair.mp mem).resolve_right nofun
      rcases List.mem_pair.mp inside with rfl | rfl <;> decide
  have placed : root.IsPlaced := by
    refine .intro places fun m mem => leaf ?_
    have mem : m ∈ [statement 0, statement 1, last] := mem
    simp only [List.mem_cons, List.not_mem_nil, or_false] at mem
    rcases mem with rfl | rfl | rfl <;> rfl
  have wide : ∀ n ∈ ((root.statements?.map (·.items)).getD []).head?, n.pos < n.stop := by
    rintro n ⟨⟩
    exact Nat.zero_lt_one
  exact ⟨placed, wide, (asked_cursor_searches placed wide [1, 0] 1).1⟩

end ElementCursor

end ScriptFrontend
