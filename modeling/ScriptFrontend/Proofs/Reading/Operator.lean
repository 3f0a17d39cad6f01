import ScriptFrontend.Proofs.Reading.File
import ScriptFrontend.Proofs.Tree.Operator

/-!
# Operands joined by operators

What is read as a binary expression is a row of operands with operators between them. Which operator stands
behind an operand does not depend on the floor it is read above. Each operand on the right is read above the
level of its operator; so it ends at the first operator that the tree has further up, and the tree that is made
of the row is the ordered one.
-/

namespace ScriptFrontend

open OperatorTree (Link)

/-! ## The operator behind an operand -/

theorem Scanner.rescanGreater_rescanGreater (c : Scanner) : c.rescanGreater.rescanGreater = c.rescanGreater := by
  have joined : ∀ m ∈ Scanner.greaterMarks, (m.2 == .greaterThanToken) = false := by decide
  by_cases greater : c.token == .greaterThanToken
  · cases found : Scanner.greaterMarks.find? fun m => c.window.startsAt c.pos m.1 with
    | none =>
      have same : c.rescanGreater = c := by rw [rescanGreater, if_pos greater, found]
      rw [same, same]
    | some m =>
      have run : c.rescanGreater = c.become m.2 (c.pos + m.1.utf8ByteSize) := by
        rw [rescanGreater, if_pos greater, found]
      rw [run, rescanGreater, if_neg]
      exact Bool.eq_false_iff.mp (joined m (List.mem_of_find?_eq_some found))
  · have same : c.rescanGreater = c := by rw [rescanGreater, if_neg greater]
    rw [same, same]

namespace ParserState

def rescanned (s : ParserState) : ParserState := { s with scanner := s.scanner.rescanGreater }

/-- The level of the operator that stands behind an operand. `in` is none where the context leaves it to a
loop; `as` and `satisfies` are none behind a line break. -/
def operator? (s : ParserState) : Option Precedence :=
  let c := s.scanner.rescanGreater
  if c.token = .inKeyword ∧ s.contextFlags.meets NodeFlags.disallowIn = true then none
  else if (c.token = .asKeyword ∨ c.token = .satisfiesKeyword) ∧
      c.hasFlag TokenFlags.precedingLineBreak = true then none
  else Precedence.ofOperator? c.token

/-- Nothing is read from one state to the other: a look at the operator, and nodes that are made. -/
structure Idles (s t : ParserState) : Prop where
  scanner : t.scanner = s.scanner ∨ t.scanner = s.scanner.rescanGreater
  same : t = { s with scanner := t.scanner, nextId := t.nextId, nodeCount := t.nodeCount,
                      errorPending := t.errorPending }

theorem Idles.refl (s : ParserState) : s.Idles s := ⟨.inl rfl, rfl⟩

theorem Idles.rescanned (s : ParserState) : s.Idles s.rescanned := ⟨.inr rfl, rfl⟩

variable {s t u : ParserState}

/-- Both states look alike where the operator is looked for. -/
theorem Idles.rescan (h : s.Idles t) : t.scanner.rescanGreater = s.scanner.rescanGreater := by
  obtain same | rescanned := h.scanner
  · rw [same]
  · rw [rescanned, Scanner.rescanGreater_rescanGreater]

theorem Idles.trans (h : s.Idles t) (h' : t.Idles u) : s.Idles u where
  scanner := by
    obtain same | rescanned := h'.scanner
    · rw [same]
      exact h.scanner
    · rw [rescanned, h.rescan]
      exact .inr rfl
  same := by
    rw [h'.same, h.same]

theorem Idles.operator? (h : s.Idles t) : t.operator? = s.operator? := by
  have flags : t.contextFlags = s.contextFlags := by rw [h.same]
  unfold ParserState.operator?
  rw [h.rescan, flags]

end ParserState

namespace Kind

def typed? : Kind → Option Kind
  | .asKeyword => some .asExpression
  | .satisfiesKeyword => some .satisfiesExpression
  | _ => none

end Kind

namespace Parse

theorem refused_run {g : Productions} {s : ParserState} {test : Parse Bool} {b : Bool}
    (run : test g s = (b, s)) (p : Precedence) :
    (do if ← test then return none else return some p : Parse (Option Precedence)) g s =
      (if b then none else some p, s) := by
  rw [bind_run, run]
  cases b <;> rfl

/-- The level that is found above a floor is that of the operator that stands there, if it is above the floor. -/
theorem operatorLevel?_run (floor : Precedence) (g : Productions) (s : ParserState) :
    operatorLevel? floor g s = (s.operator?.filter (·.continues floor), s.rescanned) := by
  have first : rescanGreater g s = (s.scanner.rescanGreater.token, s.rescanned) := rfl
  unfold ParserState.operator?
  rw [operatorLevel?, bind_run, first]
  dsimp only
  generalize token : s.scanner.rescanGreater.token = k
  cases level : Precedence.ofOperator? k with
  | none => split_ifs <;> rfl
  | some p =>
    by_cases goes : p.continues floor = true
    · have look : Parse.token g s.rescanned = (k, s.rescanned) := by rw [← token]; rfl
      have inLoop : inContext NodeFlags.disallowIn g s.rescanned =
        (s.contextFlags.meets NodeFlags.disallowIn, s.rescanned) := rfl
      have broken : afterLineBreak g s.rescanned =
        (s.scanner.rescanGreater.hasFlag TokenFlags.precedingLineBreak, s.rescanned) := rfl
      have kept : Option.filter (·.continues floor) (some p) = some p := if_pos goes
      simp only [goes, if_true, bind_run, look]
      split
      · rw [refused_run inLoop]
        cases s.contextFlags.meets NodeFlags.disallowIn <;> simp [kept]
      · rw [refused_run broken]
        cases s.scanner.rescanGreater.hasFlag TokenFlags.precedingLineBreak <;> simp [kept]
      · rw [refused_run broken]
        cases s.scanner.rescanGreater.hasFlag TokenFlags.precedingLineBreak <;> simp [kept]
      · rename_i notIn notAs notSatisfies
        rw [if_neg (fun h => notIn h.1), if_neg (fun h => h.1.elim notAs notSatisfies), kept]
        rfl
    · have dropped : Option.filter (·.continues floor) (some p) = none := if_neg goes
      dsimp only
      rw [if_neg goes]
      split_ifs
      · rfl
      · rfl
      · rw [dropped]
        rfl

/-! ## Rows -/

def operand : Parse Node := do
  if ← isUpdateStart then return ← updateExpression
  let operator ← token
  let e ← call .simpleUnary
  if ← tokenIs .asteriskAsteriskToken then
    if e.kind == .typeAssertionExpression then errorAtNode e .assertionBeforePower []
    else errorAtNode e .unaryBeforePower [tokenName operator]
  return e

def binaryRound (floor : Precedence) (pos : Nat) (left : Node) : Parse (ForInStep Node) := do
  match ← operatorLevel? floor with
  | none => return .done left
  | some level =>
    let k ← token
    if k == .asKeyword || k == .satisfiesKeyword then
      skipToken
      let t ← type
      let kind : Kind := if k == .satisfiesKeyword then .satisfiesExpression else .asExpression
      return .yield (← finish kind left.pos (.typedExpression left t))
    else
      let operator ← tokenNode
      let right ← call (.binary level)
      return .yield (← finish .binaryExpression pos (.binary left operator right))

theorem binaryRest_eq (floor : Precedence) (left : Node) (pos : Nat) (g : Productions) (s : ParserState) :
    binaryRest floor left pos g s =
      (forIn rounds left fun _ left => binaryRound floor pos left : Parse Node) g s := rfl

theorem isUpdateStart_run (g : Productions) (s : ParserState) : (isUpdateStart g s).2 = s := by
  unfold isUpdateStart
  rw [bind_run]
  change (fun test : Parse Bool => (test g s).2 = s) _
  split <;> rfl

theorem unary_run (g : Productions) (s : ParserState) :
    unary g s = if (isUpdateStart g s).1 && (operand g s).2.scanner.token == .asteriskAsteriskToken then
      binaryRest .power (operand g s).1 s.scanner.fullStart g (operand g s).2 else operand g s := by
  have looked := isUpdateStart_run g s
  unfold unary operand
  simp only [bind_run, looked]
  cases (isUpdateStart g s).1 with
  | false => rfl
  | true =>
    change (if (updateExpression g s).2.scanner.token == .asteriskAsteriskToken then
      binaryRest .power (updateExpression g s).1 s.scanner.fullStart else pure (updateExpression g s).1 :
        Parse Node) g (updateExpression g s).2 = if (updateExpression g s).2.scanner.token == _ then _ else _
    split <;> rfl

/-- The reading leads to a value and to another state. No call in it is nested too deep, and no loop is cut
short. -/
def LeadsTo {α : Type} (p : Parse α) (s : ParserState) (x : α) (t : ParserState) : Prop :=
  ∃ depth, p (.upTo depth) s = (x, t) ∧ t.stalled = false

/-- A row of operators is read from one state to another, each with an operand or a type behind it. -/
inductive ReadsLinks : ParserState → List Link → ParserState → Prop
  | nothing {s t : ParserState} (idle : s.Idles t) : ReadsLinks s [] t
  | operator {s t u v w : ParserState} {mark right : Node} {rest : List Link} (idle : s.Idles t)
      (stands : s.operator?.isSome = true) (other : t.rescanned.scanner.token.typed? = none)
      (passed : tokenNode.LeadsTo t.rescanned mark u) (reads : operand.LeadsTo u right v)
      (next : ReadsLinks v rest w) : ReadsLinks s (.operator mark right :: rest) w
  | typed {s t u v w : ParserState} {kind : Kind} {right : Node} {rest : List Link} (idle : s.Idles t)
      (stands : s.operator?.isSome = true) (word : t.rescanned.scanner.token.typed? = some kind)
      (passed : skipToken.LeadsTo t.rescanned () u) (reads : type.LeadsTo u right v)
      (next : ReadsLinks v rest w) : ReadsLinks s (.typed kind right :: rest) w

def ReadsRow (s : ParserState) (first : Node) (links : List Link) (t : ParserState) : Prop :=
  ∃ u, operand.LeadsTo s first u ∧ ReadsLinks u links t

section

variable {s t u : ParserState} {l l' : List Link}

theorem ReadsLinks.behind_idle (idle : s.Idles t) (h : ReadsLinks t l u) : ReadsLinks s l u := by
  have same := idle.operator?
  cases h with
  | nothing idle' => exact .nothing (idle.trans idle')
  | operator idle' stands other passed reads next =>
    exact .operator (idle.trans idle') (same ▸ stands) other passed reads next
  | typed idle' stands word passed reads next =>
    exact .typed (idle.trans idle') (same ▸ stands) word passed reads next

theorem ReadsLinks.append (h : ReadsLinks s l t) (h' : ReadsLinks t l' u) : ReadsLinks s (l ++ l') u := by
  induction h with
  | nothing idle => exact h'.behind_idle idle
  | operator idle stands other passed reads _ ih => exact .operator idle stands other passed reads (ih h')
  | typed idle stands word passed reads _ ih => exact .typed idle stands word passed reads (ih h')

theorem ReadsRow.append {first : Node} (h : ReadsRow s first l t) (h' : ReadsLinks t l' u) :
    ReadsRow s first (l ++ l') u :=
  have ⟨v, operand, links⟩ := h
  ⟨v, operand, links.append h'⟩

end

/-! ## Trees made of rows -/

/-- What was made of a row that was read above a floor. -/
structure Joined (floor : Precedence) (s : ParserState) (n : Node) (t : ParserState) (tree : OperatorTree) :
    Prop where
  node : tree.IsNode n
  row : ReadsRow s tree.first tree.links t
  ordered : tree.IsOrdered
  follows : tree.MayFollow floor
  /-- What stands behind the row may take the tree for its left operand. -/
  precedes : ∀ p, t.operator? = some p → tree.MayPrecede p
  context : t.contextFlags = s.contextFlags
  inOperators : ∀ mark right, Link.operator mark right ∈ tree.links → mark.kind = .inKeyword →
    s.contextFlags.meets NodeFlags.disallowIn = false

/-- What was made of all of a row that stands above a floor. -/
structure Climbed (floor : Precedence) (s : ParserState) (n : Node) (t : ParserState) (tree : OperatorTree) :
    Prop extends Joined floor s n t tree where
  ends : ∀ p, t.operator? = some p → p.continues floor = false

/-- The calls of a reading for right operands give what is made of rows. -/
def CallsClimb (D : Discipline) (g : Productions) : Prop :=
  ∀ (floor : Precedence) {m : World D} {s : ParserState}, m.At s → m.Allows (.binary floor) →
    ∃ tree, Climbed floor s (call (.binary floor) g s).1 (call (.binary floor) g s).2 tree

variable {D : Discipline} {m : World D} {depth : Nat} {floor : Precedence} {s t : ParserState}
  {left : Node} {tree : OperatorTree}

theorem Joined.of_operand {n : Node} (reads : operand.LeadsTo s n t)
    (context : t.contextFlags = s.contextFlags) (floor : Precedence) : Joined floor s n t (.operand n) where
  node := rfl
  row := ⟨t, reads, .nothing (.refl t)⟩
  ordered := .operand n
  follows := trivial
  precedes _ _ _ found := nomatch found
  context := context
  inOperators _ _ mem := nomatch mem

theorem rescanned_at {g : Productions} (link : Linked D g) (stands : m.At s) (floor : Precedence) :
    ∃ w : Later m, w.world.At s.rescanned ∧ s.Follows s.rescanned ∧
      (∀ p, s.operator? = some p → p.continues floor = true → w.world.Live) := by
  obtain ⟨w, before, after, follows, live⟩ := (operatorLevel?_reads floor).holds link stands
  rw [operatorLevel?_run] at after follows live
  refine ⟨⟨w, before⟩, after, follows, fun p found goes => live ?_⟩
  rw [found, show Option.filter (·.continues floor) (some p) = some p from if_pos goes]
  rfl

/-- A round that finds no operator above the floor is the last one. -/
theorem Joined.done (h : Joined floor s left t tree)
    (ends : ∀ p, t.operator? = some p → p.continues floor = false) :
    Climbed floor s left t.rescanned tree := by
  have idle := ParserState.Idles.rescanned t
  have row := h.row.append (.nothing idle)
  rw [List.append_nil] at row
  rw [← idle.operator?] at ends
  exact { h with row, precedes := fun p found => h.precedes p (idle.operator? ▸ found), ends, context := h.context }

theorem operator?_level {p : Precedence} (found : t.operator? = some p) :
    Precedence.ofOperator? t.rescanned.scanner.token = some p := by
  unfold ParserState.operator? at found
  dsimp only at found
  split_ifs at found
  exact found

theorem operator?_in {p : Precedence} (found : t.operator? = some p)
    (token : t.rescanned.scanner.token = .inKeyword) :
    t.contextFlags.meets NodeFlags.disallowIn = false := by
  unfold ParserState.operator? at found
  dsimp only at found
  split_ifs at found with disallowed
  exact Bool.eq_false_iff.mpr fun meets => disallowed ⟨token, meets⟩

theorem typed?_level {k kind : Kind} (h : k.typed? = some kind) :
    Precedence.ofOperator? k = some .relational := by
  unfold Kind.typed? at h
  split at h
  · rfl
  · rfl
  · cases h

section

variable {n right : Node} {u v x : ParserState} {p : Precedence}

theorem Joined.typed {kind : Kind} (h : Joined floor s left t tree) (found : t.operator? = some p)
    (goes : p.continues floor = true) (word : t.rescanned.scanner.token.typed? = some kind)
    (passed : skipToken.LeadsTo t.rescanned () u) (reads : type.LeadsTo u right v) (idle : v.Idles x)
    (isKind : n.kind = kind) (form : n.form = .typedExpression left right)
    (context : x.contextFlags = s.contextFlags) : Joined floor s n x (.typed tree kind right) := by
  have level : p = .relational := by
    have found := operator?_level found
    rw [typed?_level word] at found
    exact (Option.some.inj found).symm
  subst level
  exact {
    node := ⟨isKind, left, form, h.node⟩
    row := h.row.append (.typed (.refl t) (by rw [found]; rfl) word passed reads (.nothing idle))
    ordered := .typed h.ordered (h.precedes _ found)
    follows := ⟨Precedence.fitsRight_iff.mpr goes, h.follows⟩
    precedes := fun _ _ _ level => nomatch level
    context
    inOperators := fun mark right mem => by
      obtain before | last := List.mem_append.mp mem
      · exact h.inOperators mark right before
      · cases List.mem_singleton.mp last }

/-- An operator behind what was made so far, and what was made of the row on its right. -/
theorem Joined.binary {mark : Node} {behind : OperatorTree} (h : Joined floor s left t tree)
    (found : t.operator? = some p) (goes : p.continues floor = true)
    (other : t.rescanned.scanner.token.typed? = none) (passed : tokenNode.LeadsTo t.rescanned mark u)
    (token : mark.kind = t.rescanned.scanner.token) (same : u.contextFlags = s.contextFlags)
    (reads : Climbed p u right v behind) (idle : v.Idles x) (kind : n.kind = .binaryExpression)
    (form : n.form = .binary left mark right) (context : x.contextFlags = s.contextFlags) :
    Joined floor s n x (.binary tree mark behind) := by
  have level : Precedence.ofOperator? mark.kind = some p := token ▸ operator?_level found
  obtain ⟨w, operand, links⟩ := reads.row
  have links : ReadsLinks w behind.links x := by
    have all := links.append (.nothing idle)
    rwa [List.append_nil] at all
  exact {
    node := ⟨kind, left, right, form, h.node, reads.node⟩
    row := h.row.append (.operator (.refl t) (by rw [found]; rfl) other passed operand links)
    ordered := .binary level h.ordered (h.precedes _ found) reads.ordered reads.follows
    follows := ⟨fun q level' => by
      cases level.symm.trans level'
      exact Precedence.fitsRight_iff.mpr goes, h.follows⟩
    precedes := fun q found q' level' => by
      rw [OperatorTree.binaryLevel?, level] at level'
      cases level'
      exact Precedence.fitsLeft_iff.mpr (reads.ends q (idle.operator? ▸ found))
    context
    inOperators := fun mark' right' mem isIn => by
      obtain before | last := List.mem_append.mp mem
      · exact h.inOperators mark' right' before isIn
      · obtain here | behind := List.mem_cons.mp last
        · cases here
          rw [← h.context]
          exact operator?_in found (token ▸ isIn)
        · rw [← same]
          exact reads.inOperators mark' right' behind isIn }

end

/-! ## Rounds -/

section

variable {g : Productions} {p : Precedence} {pos : Nat}

theorem binaryRound_done (ends : ∀ p, t.operator? = some p → p.continues floor = false) :
    binaryRound floor pos left g t = (.done left, t.rescanned) := by
  have nothing : t.operator?.filter (·.continues floor) = none := by
    cases found : t.operator? with
    | none => rfl
    | some p => exact if_neg (Bool.eq_false_iff.mp (ends p found))
  rw [binaryRound, bind_run, operatorLevel?_run, nothing]
  rfl

theorem binaryRound_typed {kind : Kind} (found : t.operator? = some p) (goes : p.continues floor = true)
    (word : t.rescanned.scanner.token.typed? = some kind) :
    binaryRound floor pos left g t = (do
      skipToken
      let right ← type
      return .yield (← finish kind left.pos (.typedExpression left right)) :
        Parse (ForInStep Node)) g t.rescanned := by
  rw [binaryRound, bind_run, operatorLevel?_run, found,
    show Option.filter (·.continues floor) (some p) = some p from if_pos goes]
  change (if t.rescanned.scanner.token == .asKeyword || t.rescanned.scanner.token == .satisfiesKeyword then _
    else _ : Parse (ForInStep Node)) g t.rescanned = _
  revert word
  generalize t.rescanned.scanner.token = k
  intro word
  unfold Kind.typed? at word
  split at word
  · cases word
    rfl
  · cases word
    rfl
  · cases word

theorem binaryRound_operator (found : t.operator? = some p) (goes : p.continues floor = true)
    (other : t.rescanned.scanner.token.typed? = none) :
    binaryRound floor pos left g t = (do
      let mark ← tokenNode
      let right ← call (.binary p)
      return .yield (← finish .binaryExpression pos (.binary left mark right)) :
        Parse (ForInStep Node)) g t.rescanned := by
  rw [binaryRound, bind_run, operatorLevel?_run, found,
    show Option.filter (·.continues floor) (some p) = some p from if_pos goes]
  change (if t.rescanned.scanner.token == .asKeyword || t.rescanned.scanner.token == .satisfiesKeyword then _
    else _ : Parse (ForInStep Node)) g t.rescanned = _
  have untyped : ¬ (t.rescanned.scanner.token == .asKeyword ||
      t.rescanned.scanner.token == .satisfiesKeyword) = true := by
    intro typed
    obtain same | same := Bool.or_eq_true_iff.mp typed
    all_goals
      rw [beq_iff_eq.mp same] at other
      cases other
  rw [if_neg untyped]

end

/-- A round ends the row, or it puts another operator behind what was made so far. -/
theorem binaryRound_joins (link : Linked D (.upTo depth)) (going : D.stalled = false)
    (calls : CallsClimb D (.upTo depth)) (stands : m.At t) (joined : Joined floor s left t tree) (pos : Nat) :
    match binaryRound floor pos left (.upTo depth) t with
    | (.done n, u) => ∃ tree, Climbed floor s n u tree
    | (.yield n, u) => (∃ w : Later m, w.world.At u) ∧ ∃ tree, Joined floor s n u tree := by
  obtain ⟨w, after, follows, live⟩ := rescanned_at link stands floor
  by_cases ends : ∀ p, t.operator? = some p → p.continues floor = false
  · rw [binaryRound_done ends]
    exact ⟨tree, joined.done ends⟩
  obtain ⟨p, found, goes⟩ : ∃ p, t.operator? = some p ∧ p.continues floor = true := by
    simpa using ends
  have alive : w.world.Live := live p found goes
  cases word : t.rescanned.scanner.token.typed? with
  | some kind =>
    rw [binaryRound_typed found goes word]
    have skips : Steps D w.world skipToken := inferInstance
    obtain ⟨w', before, after', follows', past⟩ := skips.reads.holds link after
    have free : w'.Free := Past.free ⟨⟨w', before⟩, past⟩
    have types : Runs D w' type := inferInstance
    obtain ⟨v, before', after'', follows'', -⟩ := types.holds link after'
    have context := (follows.trans (follows'.trans follows'')).contextFlags
    exact ⟨⟨⟨v, w.before.trans (before.trans before')⟩, after''.same rfl rfl rfl⟩, _,
      joined.typed found goes word ⟨depth, rfl, after'.going.trans going⟩
        ⟨depth, rfl, after''.going.trans going⟩ ⟨.inl rfl, rfl⟩ rfl rfl (context.trans joined.context)⟩
  | none =>
    rw [binaryRound_operator found goes word]
    have skips : Steps D w.world tokenNode := inferInstance
    obtain ⟨w', before, after', follows', past⟩ := skips.reads.holds link after
    have free : w'.Free := Past.free ⟨⟨w', before⟩, past⟩
    obtain ⟨behind, reads⟩ := calls p after' inferInstance
    have runs : Runs D w' (call (.binary p)) := inferInstance
    obtain ⟨v, before', after'', follows'', -⟩ := runs.holds link after'
    have context := follows.trans follows'
    exact ⟨⟨⟨v, w.before.trans (before.trans before')⟩, after''.same rfl rfl rfl⟩, _,
      joined.binary found goes word ⟨depth, rfl, after'.going.trans going⟩ rfl
        (context.contextFlags.trans joined.context) reads ⟨.inl rfl, rfl⟩ rfl rfl
        ((context.trans follows'').contextFlags.trans joined.context)⟩

/-- The operators behind an operand are read up to one that does not stand above the floor. -/
theorem binaryRest_climbs (link : Linked D (.upTo depth)) (going : D.stalled = false)
    (calls : CallsClimb D (.upTo depth)) (stands : m.At t) (joined : Joined floor s left t tree) (pos : Nat) :
    ∃ tree, Climbed floor s (binaryRest floor left pos (.upTo depth) t).1
      (binaryRest floor left pos (.upTo depth) t).2 tree := by
  have progress : Rounds.Progress (binaryRound floor pos) (.upTo depth) left t
      ((forIn rounds left fun _ left => binaryRound floor pos left : Parse Node) (.upTo depth) t) := by
    have runs : Runs D m (binaryRest floor left pos) := inferInstance
    have loop : Runs D m (forIn rounds left fun _ left => binaryRound floor pos left) :=
      ⟨fun link _ stands => runs.holds link stands⟩
    exact loop.progress going link stands
  rw [binaryRest_eq]
  revert progress
  generalize (forIn Rounds.rounds left fun _ left => binaryRound floor pos left : Parse Node) (.upTo depth) t = r
  intro progress
  induction progress generalizing m tree with
  | done last =>
    have round := binaryRound_joins link going calls stands joined pos
    rw [last] at round
    exact round
  | yield run _ _ ih =>
    have round := binaryRound_joins link going calls stands joined pos
    rw [run] at round
    obtain ⟨⟨w, after⟩, tree, joined⟩ := round
    exact ih after joined

/-! ## Operands -/

instance [m.Allows .simpleUnary] [m.Allows .leftHandSide] [m.Allows (.element { inExpression := true })] :
    Runs D m operand := by
  unfold operand
  dsimp only
  infer_instance

/-- Powers bind closer than any floor, and are read to the right. So the operand is one above every floor. -/
theorem Climbed.operand {n : Node} {floor : Precedence} (h : Climbed .power s n t tree) :
    Joined floor s n t tree := by
  have above {u : OperatorTree} (h : u.MayFollow .power) : u.MayFollow floor := by
    induction u with
    | operand n => trivial
    | binary left mark right ih _ =>
      refine ⟨fun q level => Precedence.fitsRight_iff.mpr ?_, ih h.2⟩
      exact Precedence.continues_of_power (Precedence.fitsRight_iff.mp (h.1 q level)) floor
    | typed left kind type ih =>
      exact absurd (Precedence.fitsRight_iff.mp h.1) (by decide)
  exact { h with follows := above h.follows }

theorem unary_joins (link : Linked D (.upTo depth)) (going : D.stalled = false)
    (calls : CallsClimb D (.upTo depth)) (stands : m.At s) [m.Allows .simpleUnary] [m.Allows .leftHandSide]
    [m.Allows (.element { inExpression := true })] (floor : Precedence) :
    ∃ tree, Joined floor s (unary (.upTo depth) s).1 (unary (.upTo depth) s).2 tree := by
  have runs : Runs D m operand := inferInstance
  obtain ⟨w, before, after, follows, -⟩ := runs.holds link stands
  have joined (floor : Precedence) := Joined.of_operand (n := (operand (.upTo depth) s).1)
    ⟨depth, rfl, after.going.trans going⟩ follows.contextFlags floor
  rw [unary_run]
  split
  · obtain ⟨tree, climbed⟩ := binaryRest_climbs link going calls after (joined .power) s.scanner.fullStart
    exact ⟨tree, climbed.operand⟩
  · exact ⟨_, joined floor⟩

/-! ## Calls that are nested -/

/-- A reading stands in the world of the production that is called there. -/
theorem at_within {rank : Nat} {pos : 0 < rank} (stands : m.At s) : (m.within rank pos).At s :=
  ⟨⟨stands.placed, stands.text, stands.cursor, stands.going⟩, stands.offset, stands.token⟩

/-- Productions whose calls may be nested deep enough make trees of rows. -/
theorem callsClimb {depth : Nat} {D : Discipline} (enough : D.calls ≤ depth) (going : D.stalled = false) :
    CallsClimb D (.upTo depth) := by
  induction depth using Nat.strong_induction_on generalizing D with
  | _ depth ih =>
    intro floor m s stands allows
    -- The call goes down to a binary expression, and that one to its first operand.
    have less := allows.covers.calls_lt m.inside (Nonterminal.rank_le _)
    obtain _ | depth := depth
    · omega
    let m₁ := m.within 5 (by decide)
    have unary₁ : m₁.Allows .unary := .of_rank (Nat.le_refl m.offset) (show 4 < 5 by decide)
    have enough₁ : (D.within m.offset 5).calls ≤ depth := Nat.lt_succ_iff.mp (Nat.lt_of_lt_of_le less enough)
    have link₁ := Productions.linked enough₁
    have less₁ := unary₁.covers.calls_lt m₁.inside (by decide)
    obtain _ | depth := depth
    · omega
    let m₂ := m₁.within 4 (by decide)
    have below {l : Nonterminal} (lower : l.rank < 4) : m₂.Allows l := .of_rank (Nat.le_refl m.offset) lower
    have enough₂ : ((D.within m.offset 5).within m₁.offset 4).calls ≤ depth :=
      Nat.lt_succ_iff.mp (Nat.lt_of_lt_of_le less₁ enough₁)
    have : m₂.Allows .simpleUnary := below (by decide)
    have : m₂.Allows .leftHandSide := below (by decide)
    have : m₂.Allows (.element { inExpression := true }) := below (by decide)
    obtain ⟨tree, joined⟩ := unary_joins (Productions.linked enough₂) going
      (ih depth (by omega) enough₂ going) (at_within (at_within stands)) floor
    have runs : Runs (D.within m.offset 5) m₁ (call .unary) := inferInstance
    obtain ⟨w, -, after, -, -⟩ := runs.holds link₁ (at_within stands)
    exact binaryRest_climbs link₁ going (ih (depth + 1) (by omega) enough₁ going) after joined
      s.scanner.fullStart

end Parse

end ScriptFrontend
