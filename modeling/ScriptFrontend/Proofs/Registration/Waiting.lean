import ScriptFrontend.Proofs.Registration.Parsed

/-!
# When the body of a registered module waits

The body of a registered module is asynchronous just if one of its statements waits outside of all functions and
classes. So it is never asynchronous without need. What is evaluated along with a function or a class, such as the
base of a class, the decorators and the computed names of its members, may wait as well, and so may a list of
variables that are disposed of; that is all that is missed.
-/

namespace ScriptFrontend.Registration

/-! ## What is evaluated where a node is -/

/-- The decorators of a member and its computed name are evaluated where the member is defined. -/
def nameParts (modifiers : Option NodeList) (name : Option Node) : List Node :=
  (modifiers.map (·.items)).getD [] ++ name.toList.filter (·.kind == .computedPropertyName)

def memberParts (n : Node) : List Node :=
  match n.form with
  | .functionLike p => nameParts p.modifiers p.name
  | .property p => nameParts p.modifiers (some p.name)
  | _ => []

/-- The parts of a node that are evaluated where it is: of a function not its body, and of a class not the bodies of
its members and the values of its fields. -/
def evaluatedParts (n : Node) : List Node :=
  if isFunctionOrClass n.kind then
    match n.form with
    | .functionLike p => nameParts p.modifiers p.name
    | .classLike p =>
      (p.modifiers.map (·.items)).getD [] ++ (p.heritage.map (·.items)).getD [] ++ p.members.items.flatMap memberParts
    | _ => []
  else n.children

def EvaluatedIn (n m : Node) : Prop := Relation.ReflTransGen (fun a b => b ∈ evaluatedParts a) n m

/-- The second node stands in the first one, and no function or class is around it. -/
def OpenTo (n m : Node) : Prop :=
  Relation.ReflTransGen (fun a b => isFunctionOrClass a.kind = false ∧ b ∈ a.children) n m

def isAwaitUsing (n : Node) : Bool := n.kind == .variableDeclarationList && n.flags.has NodeFlags.awaitUsing

def Awaits (n : Node) : Prop := ∃ m, EvaluatedIn n m ∧ (isWaiting m = true ∨ isAwaitUsing m = true)

variable {n m : Node} {items : List Node}

theorem OpenTo.evaluatedIn (h : OpenTo n m) : EvaluatedIn n m := by
  refine Relation.ReflTransGen.mono ?_ _ _ h
  rintro a b ⟨plain, mem⟩
  rwa [evaluatedParts, plain, if_neg Bool.false_ne_true]

/-! ## The search for what waits -/

theorem waitsItems_eq (items : List Node) : waitsItems items = items.any waits := by
  induction items with
  | nil => rfl
  | cons n rest ih => rw [waitsItems, ih, List.any_cons]

theorem waitsSlots_eq (slots : List Slot) : waitsSlots slots = (slots.flatMap Slot.nodes).any waits := by
  induction slots with
  | nil => rfl
  | cons slot rest ih =>
    rw [waitsSlots, ih, List.flatMap_cons, List.any_append]
    cases slot with
    | absent => rfl
    | node n => simp [waitsSlot, Slot.nodes]
    | list head items => rw [waitsSlot, waitsItems_eq, Slot.nodes]

theorem waits_eq (n : Node) : waits n = (isWaiting n || !isFunctionOrClass n.kind && n.children.any waits) := by
  cases n
  rw [waits, waitsSlots_eq]
  rfl

mutual

theorem exists_of_waits : ∀ n : Node, waits n = true → ∃ m, OpenTo n m ∧ isWaiting m = true
  | .mk h s slots docs origin => by
    intro found
    rw [waits, Bool.or_eq_true, Bool.and_eq_true, Bool.not_eq_true'] at found
    rcases found with here | ⟨plain, below⟩
    · exact ⟨_, .refl, here⟩
    · obtain ⟨child, mem, m, inside, waiting⟩ := exists_of_waitsSlots slots below
      exact ⟨m, .head ⟨plain, mem⟩ inside, waiting⟩

theorem exists_of_waitsSlots : ∀ slots : List Slot, waitsSlots slots = true →
    ∃ n ∈ slots.flatMap Slot.nodes, ∃ m, OpenTo n m ∧ isWaiting m = true
  | [] => nofun
  | slot :: rest => by
    intro found
    rw [waitsSlots, Bool.or_eq_true] at found
    rw [List.flatMap_cons]
    rcases found with here | later
    · obtain ⟨n, mem, below⟩ := exists_of_waitsSlot slot here
      exact ⟨n, List.mem_append_left _ mem, below⟩
    · obtain ⟨n, mem, below⟩ := exists_of_waitsSlots rest later
      exact ⟨n, List.mem_append_right _ mem, below⟩

theorem exists_of_waitsSlot : ∀ slot : Slot, waitsSlot slot = true →
    ∃ n ∈ slot.nodes, ∃ m, OpenTo n m ∧ isWaiting m = true
  | .absent => nofun
  | .node n => fun found => ⟨n, List.mem_singleton_self n, exists_of_waits n found⟩
  | .list _ items => exists_of_waitsItems items

theorem exists_of_waitsItems : ∀ items : List Node, waitsItems items = true →
    ∃ n ∈ items, ∃ m, OpenTo n m ∧ isWaiting m = true
  | [] => nofun
  | n :: rest => by
    intro found
    rw [waitsItems, Bool.or_eq_true] at found
    rcases found with here | later
    · exact ⟨n, List.mem_cons_self, exists_of_waits n here⟩
    · obtain ⟨m, mem, below⟩ := exists_of_waitsItems rest later
      exact ⟨m, List.mem_cons_of_mem _ mem, below⟩

end

/-- The search finds what waits outside of all functions and classes, and nothing else. -/
theorem waits_iff : waits n = true ↔ ∃ m, OpenTo n m ∧ isWaiting m = true := by
  refine ⟨exists_of_waits n, ?_⟩
  rintro ⟨m, inside, waiting⟩
  induction inside using Relation.ReflTransGen.head_induction_on with
  | refl => rw [waits_eq, waiting, Bool.true_or]
  | head step _ found =>
    rw [waits_eq, step.1, Bool.not_false, Bool.true_and, Bool.or_eq_true, List.any_eq_true]
    exact .inr ⟨_, step.2, found⟩

/-- What is evaluated where a node is stands outside of functions and classes, or along with one of them. -/
theorem EvaluatedIn.open_or (h : EvaluatedIn n m) :
    OpenTo n m ∨ ∃ k part, EvaluatedIn n k ∧ isFunctionOrClass k.kind = true ∧ part ∈ evaluatedParts k ∧
      EvaluatedIn part m := by
  induction h using Relation.ReflTransGen.head_induction_on with
  | refl => exact .inl .refl
  | @head a b step below ih =>
    by_cases closed : isFunctionOrClass a.kind = true
    · exact .inr ⟨a, b, .refl, closed, step, below⟩
    · rcases ih with isOpen | ⟨k, part, inside, rest⟩
      · rw [evaluatedParts, if_neg closed] at step
        exact .inl (.head ⟨Bool.eq_false_iff.mpr closed, step⟩ isOpen)
      · exact .inr ⟨k, part, .head step inside, rest⟩

/-- Something waits that is evaluated along with a function or a class, or when variables are disposed of. -/
def AwaitsUnseen (n : Node) : Prop :=
  (∃ m, EvaluatedIn n m ∧ isAwaitUsing m = true) ∨
    ∃ m part, EvaluatedIn n m ∧ isFunctionOrClass m.kind = true ∧ part ∈ evaluatedParts m ∧ Awaits part

theorem awaits_iff : Awaits n ↔ waits n = true ∨ AwaitsUnseen n := by
  constructor
  · rintro ⟨m, evaluated, waiting | using_⟩
    · rcases evaluated.open_or with isOpen | ⟨k, part, inside, closed, mem, below⟩
      · exact .inl (waits_iff.mpr ⟨m, isOpen, waiting⟩)
      · exact .inr (.inr ⟨k, part, inside, closed, mem, m, below, .inl waiting⟩)
    · exact .inr (.inl ⟨m, evaluated, using_⟩)
  · rintro (found | ⟨m, evaluated, using_⟩ | ⟨k, part, inside, -, mem, m, below, waiting⟩)
    · obtain ⟨m, isOpen, waiting⟩ := waits_iff.mp found
      exact ⟨m, isOpen.evaluatedIn, .inl waiting⟩
    · exact ⟨m, evaluated, .inr using_⟩
    · exact ⟨m, inside.trans (.head mem below), waiting⟩

/-! ## Registered files -/

variable {f : SourceFile}

/-- The body of the registered form of a file is asynchronous if one of its statements is found to wait. -/
theorem ofFile_isAsync {scopes : ScopeTable} {facts : ModuleFacts} {lowering : Lowering} {statements : List Node}
    {c : Context} (h : ofFile f scopes facts lowering = .ok (statements, c)) :
    ∃ r : Registered, statements = [r.tree c] ∧ r.isAsync = (bodyStatements f).any waits := by
  obtain ⟨groups, names, execute, s, -, -, rfl⟩ := exists_ofBody h
  exact ⟨_, rfl, rfl⟩

theorem ofFile_isAsync_of_within {ledger : Ledger} (within : Within ledger f.root) :
    ∃ (c : Context) (r : Registered),
      ofFile f (.ofTree f.root) (.ofFile f.root (.ofTree f.root)) (.ofTree f.root) = .ok ([r.tree c], c) ∧
        r.isAsync = (bodyStatements f).any waits := by
  obtain ⟨statements, c, ok⟩ := ofFile_ok within (.ofTree f.root) (.ofFile f.root (.ofTree f.root))
  obtain ⟨r, rfl, isAsync⟩ := ofFile_isAsync ok
  exact ⟨c, r, ok, isAsync⟩

/-- Any file that is read is registered with a body that is asynchronous just if one of its statements waits outside
of all functions and classes. Then something waits that is evaluated in the body; and if something does and the body
is not asynchronous, it is evaluated along with a function or a class, or when variables are disposed of. -/
theorem parsed_file_waits (fileName text : String) (target : ScriptTarget) (kind : ScriptKind) (setParents : Bool) :
    let l := LoweredFile.ofFile (.parse fileName text target kind setParents)
    ∃ (c : Context) (r : Registered), ofFile l.file l.scopes l.facts l.lowering = .ok ([r.tree c], c) ∧
      (r.isAsync = true ↔ ∃ n ∈ bodyStatements l.file, ∃ m, OpenTo n m ∧ isWaiting m = true) ∧
      ((∃ n ∈ bodyStatements l.file, Awaits n) ↔
        r.isAsync = true ∨ ∃ n ∈ bodyStatements l.file, AwaitsUnseen n) := by
  obtain ⟨ledger, within⟩ := SourceFile.parse_within fileName text target kind setParents
  obtain ⟨c, r, ok, isAsync⟩ := ofFile_isAsync_of_within within
  have found : r.isAsync = true ↔
      ∃ n ∈ bodyStatements (SourceFile.parse fileName text target kind setParents), waits n = true := by
    rw [isAsync, List.any_eq_true]
  refine ⟨c, r, ok, ?_, ?_⟩
  · rw [found]
    exact exists_congr fun n => and_congr_right fun _ => waits_iff
  · rw [found, ← exists_or]
    exact exists_congr fun n => (and_congr_right fun _ => awaits_iff).trans and_or_left

theorem base_is_not_waited_for :
    ∃ f, f = SourceFile.parse "a.ts" "export {};\nclass C extends (await b) {}" .esNext .ts true ∧
      f.diagnostics.isEmpty ∧ (∃ n ∈ bodyStatements f, Awaits n) ∧
      let l := LoweredFile.ofFile f
      ∃ (c : Context) (r : Registered), ofFile l.file l.scopes l.facts l.lowering = .ok ([r.tree c], c) ∧
        r.isAsync = false := by
  have facts : (SourceFile.parse "a.ts" "export {};\nclass C extends (await b) {}" .esNext .ts true).diagnostics.isEmpty ∧
      (bodyStatements
        (SourceFile.parse "a.ts" "export {};\nclass C extends (await b) {}" .esNext .ts true)).any waits = false ∧
      ∃ n ∈ bodyStatements (SourceFile.parse "a.ts" "export {};\nclass C extends (await b) {}" .esNext .ts true),
        ∃ clause ∈ evaluatedParts n, ∃ base ∈ evaluatedParts clause, ∃ inner ∈ evaluatedParts base,
          ∃ e ∈ evaluatedParts inner, isWaiting e = true := by decide +kernel
  obtain ⟨ledger, within⟩ :=
    SourceFile.parse_within "a.ts" "export {};\nclass C extends (await b) {}" .esNext .ts true
  obtain ⟨f, parsed⟩ :
    ∃ f, f = SourceFile.parse "a.ts" "export {};\nclass C extends (await b) {}" .esNext .ts true := ⟨_, rfl⟩
  rw [← parsed] at facts within
  obtain ⟨clean, missed, n, mem, clause, inClass, base, inClause, inner, inBase, e, inside, waiting⟩ := facts
  obtain ⟨c, r, ok, isAsync⟩ := ofFile_isAsync_of_within within
  refine ⟨f, parsed, clean, ⟨n, mem, e, ?_, .inl waiting⟩, c, r, ok, isAsync.trans missed⟩
  exact .head inClass (.head inClause (.head inBase (.single inside)))

end ScriptFrontend.Registration
