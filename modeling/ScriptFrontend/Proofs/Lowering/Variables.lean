import Mathlib.Data.List.Perm.Basic
import ScriptFrontend.Lowering.Enumeration
import ScriptFrontend.Proofs.Lowering.Replacement
import ScriptFrontend.Proofs.Registration.Pattern

/-!
# Variables of enumerations and namespaces

In the body of a namespace, the enumerations and namespaces with one name share one variable. There is one exactly if
no function of the body has the name and the first statement that declares it is an enumeration or a namespace.

What stands in the place of exported variables evaluates each value that they start with once. The values of names
come first, in order, and those of patterns behind them, in order.
-/

namespace ScriptFrontend

namespace Lower

/-! ## Variables that are declared -/

open Lowering Made

variable {n m : Node} {items before : List Node} {s : BodyState} {name owner : String} {depth : Nat}

def valueName? (n : Node) : Option String := (role? n [] .inside none).map (·.name)

theorem role?_eq (n : Node) (declared : List String) (place : Place) (owner : Option String) :
    role? n declared place owner = (valueName? n).map fun name => ⟨name, !declared.contains name, place, owner⟩ := by
  rw [valueName?, role?, role?]
  cases n.declaredText? with
  | none => rfl
  | some name =>
    dsimp only [Option.bind_eq_bind, Option.bind_some]
    split
    · rfl
    · rfl

def scopeNames (n : Node) : List String := if isContainer n then (valueName? n).toList else n.declaredTexts

/-- The statement declares a variable and stands for an enumeration or a namespace. -/
def isVariableOf (name : String) (s : Node) : Bool :=
  s.kind == .variableStatement && s.declaredTexts.contains name && s.origin.any isContainer

theorem isVariableOf_of_origin (other : n.origin.any isContainer = false) : isVariableOf name n = false := by
  rw [isVariableOf, other, Bool.and_false]

theorem isVariableOf_variableOf (container : isContainer n = true) (role : Role) :
    isVariableOf name (variableOf n role) = (role.isFirst && role.name == name) := by
  rw [variableOf]
  cases role.isFirst with
  | false => rfl
  | true =>
    change (true && [role.name].contains name && isContainer n) = _
    rw [container, Bool.and_true, Bool.true_and, Bool.true_and, List.contains_cons, List.contains_nil,
      Bool.or_false, Bool.beq_comm]

theorem countP_declarationStatements (container : isContainer n = true) (role : Role) (body : List Node) :
    (declarationStatements n role body).countP (isVariableOf name) =
      if role.isFirst = true ∧ role.name = name then 1 else 0 := by
  have call : isVariableOf name (fillingCall role body) = false := rfl
  have mark : isVariableOf name (marker .endOfDeclarationMarker n) = false := rfl
  rw [declarationStatements, List.countP_cons, List.countP_cons, List.countP_cons, List.countP_nil, call, mark,
    isVariableOf_variableOf container]
  simp

theorem countP_exportedVariables :
    (exportedVariables n owner).countP (isVariableOf name) = 0 := by
  rw [exportedVariables, List.countP_eq_zero]
  intro s mem
  rw [Bool.not_eq_true]
  rcases List.mem_append.mp mem with assigned | pattern
  · obtain ⟨e, -, rfl⟩ := Option.map_eq_some_iff.mp (Option.mem_toList.mp assigned)
    rfl
  · obtain ⟨v, -, mem⟩ := List.mem_flatMap.mp pattern
    rcases List.mem_cons.mp mem with rfl | copy
    · exact isVariableOf_of_origin rfl
    · obtain ⟨text, -, rfl⟩ := List.mem_map.mp copy
      exact isVariableOf_of_origin rfl

theorem countP_aliasStatement (other : isContainer n = false) (place : Place) (exporter : Option String) :
    [aliasStatement n place exporter].countP (isVariableOf name) = 0 := by
  have stands : (aliasStatement n place exporter).origin = some n := by
    rw [aliasStatement]
    split
    · exact origin_withOrigin ..
    · exact origin_withOrigin ..
  rw [List.countP_singleton, isVariableOf_of_origin (by rw [stands, Option.any_some, other])]
  rfl

theorem countP_exportedDeclaration (other : isContainer n = false) (read : n.origin = none) {copied : List Node}
    (exported : exportedDeclaration? n owner = some copied) : copied.countP (isVariableOf name) = 0 := by
  have stands : (n.copied n.kind n.name? (ModifierFlags.isExported ||| ModifierFlags.isDefault)).origin.any
      isContainer = false := by
    rw [Node.copied]
    split
    · rw [origin_withOrigin, Option.any_some, other]
    · rw [origin_withOrigin, Option.any_some, other]
    · rw [read, Option.any_none]
  rw [exportedDeclaration?] at exported
  split at exported
  · cases exported
  · obtain ⟨text, -, same⟩ := Option.bind_eq_some_iff.mp exported
    cases same
    rw [List.countP_cons, isVariableOf_of_origin stands]
    rfl

/-- To the statements made so far are added those of the declaration, if it has a value. -/
theorem declaration_succ_yields (depth : Nat) (n : Node) (s : BodyState) (place : Place) (exporter : Option String) :
    Yields (fun t => t.declared = (valueName? n).toList ++ s.declared ∧ ∃ body, t.out = s.out ++
        (valueName? n).toList.flatMap fun name =>
          declarationStatements n ⟨name, !s.declared.contains name, place, exporter⟩ body)
      (declaration (depth + 2) n s place exporter) := by
  rw [declaration, role?_eq]
  cases valueName? n with
  | none => exact .pure ⟨rfl, [], (List.append_nil _).symm⟩
  | some name =>
    simp only [Option.map_some]
    split
    · exact .then_ fun _ => .pure ⟨rfl, _, congrArg (s.out ++ ·) (List.append_nil _).symm⟩
    · refine .bind (namespaceDeclaration_succ_yields depth n _) fun v made => .pure ?_
      obtain ⟨body, rfl⟩ := made
      exact ⟨rfl, body, congrArg (s.out ++ ·) (List.append_nil _).symm⟩

/-! ## Bodies of namespaces -/

/-- The first statement that brings a name into scope. -/
def declarer? (name : String) (items : List Node) : Option Node := items.find? fun n => (scopeNames n).contains name

variable {functions : List String} {t : BodyState}

/-- The names that are declared behind some statements are those of the functions and of these statements. -/
def Declares (functions : List String) (before : List Node) (s : BodyState) : Prop :=
  ∀ name, name ∈ s.declared ↔ name ∈ functions ∨ ∃ m ∈ before, name ∈ scopeNames m

namespace Declares

theorem init (functions : List String) : Declares functions [] { declared := functions } := by
  intro name
  simp

theorem append (h : Declares functions before s)
    (declared : ∀ name, name ∈ t.declared ↔ name ∈ scopeNames n ∨ name ∈ s.declared) :
    Declares functions (before ++ [n]) t := by
  intro name
  have either : (∃ m ∈ before ++ [n], name ∈ scopeNames m) ↔
      (∃ m ∈ before, name ∈ scopeNames m) ∨ name ∈ scopeNames n := by simp
  rw [declared, h, either, or_comm, or_assoc]

/-- A name is free if no function has it and no statement brought it into scope. -/
theorem not_contains (h : Declares functions before s) :
    (!s.declared.contains name) = (!functions.contains name && (declarer? name before).isNone) := by
  rw [Bool.eq_iff_iff]
  simp [declarer?, h name]

end Declares

/-- For each name, as many variables were made for some statements of a body as it needs. -/
def Counted (functions : List String) (before : List Node) (s : BodyState) : Prop :=
  ∀ name, s.out.countP (isVariableOf name) =
    if name ∉ functions ∧ (declarer? name before).any isContainer = true then 1 else 0

theorem Counted.init (functions : List String) : Counted functions [] { declared := functions } := by
  intro name
  simp [declarer?]

theorem Counted.append (known : Declares functions before s) (h : Counted functions before s)
    (count : ∀ name, t.out.countP (isVariableOf name) = s.out.countP (isVariableOf name) +
      if isContainer n = true ∧ name ∈ scopeNames n ∧ name ∉ s.declared then 1 else 0) :
    Counted functions (before ++ [n]) t := by
  intro name
  have both : declarer? name (before ++ [n]) = (declarer? name before).or (declarer? name [n]) :=
    List.find?_append
  have alone : declarer? name [n] = if name ∈ scopeNames n then some n else none := by
    simp only [declarer?, List.find?_singleton, List.contains_iff_mem]
  have known := known name
  cases first : declarer? name before with
  | none =>
    have none : ¬∃ m ∈ before, name ∈ scopeNames m := by
      simpa using List.find?_eq_none.mp first
    by_cases mem : name ∈ scopeNames n
    · simp [count, h name, both, alone, known, first, none, mem, and_comm]
    · simp [count, h name, both, alone, first, mem]
  | some d =>
    have some : ∃ m ∈ before, name ∈ scopeNames m :=
      ⟨d, List.mem_of_find?_eq_some first, by simpa using List.find?_some first⟩
    simp [count, h name, both, known, first, some]

/-- A fold over some nodes, with what is known behind each node. -/
theorem foldlM_yields {β : Type} {P : List Node → β → Prop} {step : β → Node → Lower β} {b : β} (start : P [] b)
    (next : ∀ before b, P before b → ∀ n ∈ items, Yields (P (before ++ [n])) (step b n)) :
    Yields (P items) (items.foldlM step b) := by
  have all (before rest : List Node) (inside : ∀ n ∈ rest, n ∈ items) (b : β) (known : P before b) :
      Yields (P (before ++ rest)) (rest.foldlM step b) := by
    induction rest generalizing before b with
    | nil => exact .pure ((List.append_nil before).symm ▸ known)
    | cons n rest ih =>
      obtain ⟨first, later⟩ := List.forall_mem_cons.mp inside
      rw [List.foldlM_cons, List.append_cons]
      exact .bind (next before b known n first) fun b known => ih (before ++ [n]) later b known
  exact all [] items (fun _ => id) b start

structure Known (functions : List String) (before : List Node) (s : BodyState) : Prop where
  declares : Declares functions before s
  counted : Counted functions before s

namespace Known

variable (h : Known functions before s)
include h

theorem declaration (container : isContainer n = true) (depth : Nat) (place : Place) (exporter : Option String) :
    Yields (Known functions (before ++ [n])) (declaration (depth + 2) n s place exporter) := by
  intro l
  obtain ⟨declared, body, out⟩ := declaration_succ_yields depth n s place exporter l
  have names : scopeNames n = (valueName? n).toList := if_pos container
  refine ⟨h.declares.append fun name => ?_, h.counted.append h.declares fun name => ?_⟩
  · rw [declared, names, List.mem_append]
  · rw [out, List.countP_append, names]
    cases valueName? n with
    | none => simp
    | some text =>
      rw [Option.toList_some, List.flatMap_singleton, countP_declarationStatements container]
      refine congrArg _ (if_congr ?_ rfl rfl)
      constructor
      · rintro ⟨free, rfl⟩
        exact ⟨container, List.mem_singleton_self _, by simpa using free⟩
      · rintro ⟨-, mem, free⟩
        cases List.mem_singleton.mp mem
        exact ⟨by simpa using free, rfl⟩

/-- A statement that is no enumeration and no namespace brings its names into scope. -/
theorem declare (other : isContainer n = false) {out : List Node}
    (made : ∀ name, out.countP (isVariableOf name) = 0) :
    Known functions (before ++ [n]) ((s.add out).declare n.declaredTexts) := by
  have names : scopeNames n = n.declaredTexts := if_neg (by simp [other])
  refine ⟨h.declares.append fun name => ?_, h.counted.append h.declares fun name => ?_⟩
  · rw [names, BodyState.declare, List.mem_append]
    rfl
  · rw [BodyState.declare, BodyState.add, List.countP_append, made, other]
    simp

end Known

/-- In the body of a namespace there is one variable for a name if the first statement that declares it is an
enumeration or a namespace and no function has it, and none otherwise. -/
theorem countP_namespaceBody (depth : Nat) (read : ∀ n ∈ items, n.origin = none) (name : String) (l : Lowering) :
    (namespaceBody (depth + 3) items owner l).1.countP (isVariableOf name) =
      if name ∉ Node.functionTexts items ∧ (declarer? name items).any isContainer = true then 1 else 0 := by
  let functions := Node.functionTexts items
  have counted : Yields (fun out => ∀ name, out.countP (isVariableOf name) =
      if name ∉ functions ∧ (declarer? name items).any isContainer = true then 1 else 0)
      (namespaceBody (depth + 3) items owner) := by
    rw [namespaceBody]
    have start : Known functions [] { declared := functions } := ⟨.init functions, .init functions⟩
    refine .bind (R := Known functions items) (foldlM_yields start ?_) fun s h => .pure h.counted
    intro before s h n mem
    dsimp only
    split
    · exact h.declaration ‹_› depth .inside _
    · rename_i other
      rw [Bool.not_eq_true] at other
      split
      · exact .pure (h.declare other fun name => countP_aliasStatement other .inside _)
      · split
        · exact .then_ fun _ => .pure (h.declare other fun name => countP_exportedVariables)
        · split
          · split
            · rename_i copied exported
              exact .then_ fun _ => .pure (h.declare other fun name =>
                countP_exportedDeclaration other (read n mem) exported)
            · have same : s.add [] = s := by rw [BodyState.add, List.append_nil]
              have nothing : Known functions (before ++ [n]) ((s.add []).declare n.declaredTexts) :=
                h.declare other fun _ => rfl
              rw [same] at nothing
              exact .pure nothing
          · refine .then_ fun _ => .pure (h.declare other fun name => ?_)
            rw [List.countP_singleton, isVariableOf_of_origin (by rw [read n mem, Option.any_none])]
            rfl
  exact counted l name

/-- The second of two enumerations with one name adds to the object of the first. -/
theorem countP_namespaceBody_of_two_enumerations :
    ∃ items, (SourceFile.parse "a.ts" "enum E \x7b a \x7d enum E \x7b b = 1 \x7d" .esNext .ts true).statements = items ∧
      (∀ n ∈ items, n.origin = none) ∧ (namespaceBody 3 items "N" {}).1.countP (isVariableOf "E") = 1 := by
  have facts (items : List Node) (file : (SourceFile.parse "a.ts" "enum E \x7b a \x7d enum E \x7b b = 1 \x7d"
      .esNext .ts true).statements = items) : items.all (·.origin.isNone) = true ∧
        "E" ∉ Node.functionTexts items ∧ (declarer? "E" items).any isContainer = true := by
    rw [← file]
    decide +kernel
  obtain ⟨items, file⟩ : ∃ items, (SourceFile.parse "a.ts" "enum E \x7b a \x7d enum E \x7b b = 1 \x7d"
      .esNext .ts true).statements = items := ⟨_, rfl⟩
  obtain ⟨read, declared⟩ := facts items file
  have read : ∀ n ∈ items, n.origin = none := by simpa using read
  refine ⟨items, file, read, ?_⟩
  rw [countP_namespaceBody 0 read, if_pos declared]

/-! ## Lists of statements -/

def turn (depth : Nat) (place : Place) (s : BodyState) (n : Node) : Lower BodyState := do
  if isContainer n then
    let s ← declaration depth n s place none
    modify (·.replace n s.out)
    return { s with out := [] }
  else if n.isInnerAlias then
    modify (·.replace n [aliasStatement n place none])
    return s
  else
    below depth n
    return s.declare n.declaredTexts

structure Listed (functions : List String) (before : List Node) (s : BodyState) : Prop where
  declares : Declares functions before s
  out : s.out = []

theorem turns_yield (depth : Nat) (place : Place) (functions : List String)
    (aliases : ∀ n ∈ items, n.isInnerAlias = true → n.kind = .importEqualsDeclaration) :
    Yields (Listed functions items) (items.foldlM (turn (depth + 2) place) { declared := functions }) := by
  refine foldlM_yields ⟨.init functions, rfl⟩ fun before s h n mem => ?_
  rw [turn]
  split
  · rename_i container
    refine .bind (declaration_succ_yields depth n s place none) fun t made => .then_ fun _ => .pure ⟨?_, rfl⟩
    refine h.declares.append fun name => ?_
    rw [scopeNames, if_pos container, ← List.mem_append, ← made.1]
  · rename_i other
    have names : scopeNames n = n.declaredTexts := if_neg other
    split
    · rename_i inner
      refine .then_ fun _ => .pure ⟨h.declares.append fun name => ?_, h.out⟩
      rw [names, Node.declaredTexts, aliases n mem inner]
      simp
    · refine .then_ fun _ => .pure ⟨h.declares.append fun name => ?_, h.out⟩
      rw [names, ← List.mem_append]
      rfl

theorem turn_container (h : Listed functions before s) (container : isContainer n = true)
    (value : valueName? n = some name) (depth : Nat) (place : Place) (l : Lowering) :
    ∃ (l' : Lowering) (body : List Node), (turn (depth + 2) place s n l).2 = l'.replace n (declarationStatements n
      ⟨name, !functions.contains name && (declarer? name before).isNone, place, none⟩ body) := by
  obtain ⟨-, body, out⟩ := declaration_succ_yields depth n s place none l
  rw [h.out, List.nil_append, value, Option.toList_some, List.flatMap_singleton, h.declares.not_contains] at out
  refine ⟨(declaration (depth + 2) n s place none l).2, body, ?_⟩
  rw [turn, if_pos container, ← out]
  rfl

/-- In a list, an enumeration or a namespace with a value has a variable exactly if no function of the list has the
name and no statement before it in the list declares it. -/
theorem statements_container (depth : Nat) (place : Place) {after : List Node} (container : isContainer n = true)
    (value : valueName? n = some name)
    (aliases : ∀ n ∈ before, n.isInnerAlias = true → n.kind = .importEqualsDeclaration) (l : Lowering) :
    ∃ (s : BodyState) (l' : Lowering) (body : List Node), statements (depth + 3) place (before ++ n :: after) l =
      (after.foldlM (turn (depth + 2) place) s >>= fun _ => pure ()) (l'.replace n (declarationStatements n
        ⟨name, !(Node.functionTexts (before ++ n :: after)).contains name && (declarer? name before).isNone, place,
          none⟩ body)) := by
  let functions := Node.functionTexts (before ++ n :: after)
  let first := before.foldlM (turn (depth + 2) place) { declared := functions } l
  have listed : Listed functions before first.1 := turns_yield depth place functions aliases l
  obtain ⟨l', body, made⟩ := turn_container listed container value depth place first.2
  refine ⟨(turn (depth + 2) place first.1 n first.2).1, l', body, ?_⟩
  rw [← made]
  change (((before ++ n :: after).foldlM (turn (depth + 2) place) { declared := functions }) >>= fun _ => pure ()) l = _
  rw [List.foldlM_append]
  rfl

theorem statements_container_of_second_enumeration :
    ∃ first second, (SourceFile.parse "a.ts" "enum E \x7b a \x7d enum E \x7b b = 1 \x7d" .esNext .ts true).statements =
        [first, second] ∧ isContainer second = true ∧ valueName? second = some "E" ∧
      (∀ n ∈ [first], n.isInnerAlias = true → n.kind = .importEqualsDeclaration) ∧
      ∃ (l : Lowering) (body : List Node), (statements 3 .file [first, second] {}).2 = l.replace second
        (declarationStatements second ⟨"E", false, .file, none⟩ body) := by
  have facts : (SourceFile.parse "a.ts" "enum E \x7b a \x7d enum E \x7b b = 1 \x7d" .esNext .ts true).statements.map
      (fun n => (isContainer n && !n.isInnerAlias, valueName? n, scopeNames n)) =
        [(true, some "E", ["E"]), (true, some "E", ["E"])] := by decide +kernel
  obtain ⟨first, rest, file, is, more⟩ := List.map_eq_cons_iff.mp facts
  obtain ⟨second, rfl, is'⟩ := List.map_eq_singleton_iff.mp more
  simp only [Prod.mk.injEq, Bool.and_eq_true, Bool.not_eq_true'] at is is'
  obtain ⟨⟨-, other⟩, -, names⟩ := is
  obtain ⟨⟨container, -⟩, value, -⟩ := is'
  have aliases : ∀ n ∈ [first], n.isInnerAlias = true → n.kind = .importEqualsDeclaration := by
    intro n mem inner
    cases List.mem_singleton.mp mem
    cases other.symm.trans inner
  obtain ⟨s, l, body, made⟩ := statements_container 0 .file container value aliases {}
  have declared : (declarer? "E" [first]).isNone = false := by
    rw [declarer?, List.find?_singleton, names]
    rfl
  refine ⟨first, second, file, container, value, aliases, l, body, ?_⟩
  rw [declared, Bool.and_false] at made
  exact congrArg Prod.snd made

end Lower

namespace Lowering

/-! ## Variables that a namespace exports -/

open Made Evaluation

def valuedVariables (n : Node) : List (Node × Node) :=
  n.statementVariables.filterMap fun v =>
    match v.form with
    | .variableDeclaration p => p.value.map (p.name, ·)
    | _ => none

def isPlain (v : Node × Node) : Bool := v.1.identifierText?.isSome

def operands : Node → List Node
  | .mk h .binary [.node left, .node operator, .node right] docs origin =>
    if operator.kind = .commaToken then operands left ++ [right]
    else [.mk h .binary [.node left, .node operator, .node right] docs origin]
  | n => [n]

/-- The targets and values of a made statement, in the order in which it evaluates them. -/
def assignments (n : Node) : List (Node × Node) :=
  match n.form with
  | .wrapped e => (operands e).filterMap assignment?
  | _ => valuedVariables n

def readValues (statements : List Node) : List Node :=
  ((statements.flatMap assignments).map Prod.snd).filter fun value => !value.isSynthesized

/-! ## Commas -/

theorem operands_assignment (target value : Node) : operands (assignment target value) = [assignment target value] := by
  change (if (token .equalsToken).kind = .commaToken then _ else _) = _
  exact if_neg (by decide)

theorem operands_comma (left right : Node) : operands (binary left .commaToken right) = operands left ++ [right] := by
  change (if (token .commaToken).kind = .commaToken then _ else _) = _
  exact if_pos rfl

theorem operands_foldl (first : Node) (rest : List Node) :
    operands (rest.foldl (fun left right => binary left .commaToken right) first) = operands first ++ rest := by
  induction rest generalizing first with
  | nil => exact (List.append_nil _).symm
  | cons second rest ih =>
    rw [List.foldl_cons, ih, operands_comma, List.append_assoc]
    rfl

theorem flatMap_assignments_commas (n : Node) (targets : List (Node × Node)) :
    ((commas? (targets.map fun a => assignment a.1 a.2)).map fun e =>
      (expressionStatement e).withOrigin n).toList.flatMap assignments = targets := by
  have row : (targets.map fun a => assignment a.1 a.2).filterMap assignment? = targets := by
    simp [List.filterMap_map, assignment?_assignment]
  cases targets with
  | nil => rfl
  | cons first rest =>
    change (operands (List.foldl _ (assignment first.1 first.2) _)).filterMap assignment? ++ [] = _
    rw [List.append_nil, operands_foldl, operands_assignment]
    exact row

/-! ## Targets and values -/

variable (n : Node) (owner : String)

/-- The members that the names among some variables become, with the values. -/
def plainTargets (valued : List (Node × Node)) : List (Node × Node) :=
  valued.filterMap fun v => v.1.identifierText?.map (member (identifier owner) ·, v.2)

def patternTargets (v : Node × Node) : List (Node × Node) :=
  v :: v.1.boundTexts.map fun text => (member (identifier owner) text, identifier text)

theorem assignments_variableStatement (flags : NodeFlags) (name value : Node) :
    assignments (variableStatement [] flags [variableDeclaration name (some value)]) = [(name, value)] := rfl

theorem assignments_memberCopy (text : String) :
    assignments (memberCopy owner text) = [(member (identifier owner) text, identifier text)] := by
  change (operands (assignment _ _)).filterMap assignment? = _
  rw [operands_assignment, List.filterMap_cons, assignment?_assignment]
  rfl

theorem flatMap_assignments_pattern (v : Node × Node) :
    (variableStatement [] NodeFlags.letDeclaration [variableDeclaration v.1 (some v.2)] ::
      v.1.boundTexts.map (memberCopy owner)).flatMap assignments = patternTargets owner v := by
  rw [List.flatMap_cons, assignments_variableStatement, patternTargets, List.flatMap_map]
  simp only [assignments_memberCopy, ← List.map_eq_flatMap, List.singleton_append]

theorem flatMap_assignments_exportedVariables :
    (exportedVariables n owner).flatMap assignments = plainTargets owner (valuedVariables n) ++
      ((valuedVariables n).filter fun v => !isPlain v).flatMap (patternTargets owner) := by
  have plain : (valuedVariables n).filterMap (fun v =>
      v.1.identifierText?.map fun text => assignment (member (identifier owner) text) v.2) =
      (plainTargets owner (valuedVariables n)).map fun a => assignment a.1 a.2 := by
    rw [plainTargets, List.map_filterMap]
    refine List.filterMap_congr fun v _ => ?_
    rw [Option.map_map]
    rfl
  have patterns : (valuedVariables n).filter (·.1.identifierText?.isNone) =
      (valuedVariables n).filter fun v => !isPlain v :=
    List.filter_congr fun v _ => by simp [isPlain]
  have made : exportedVariables n owner =
      ((commas? ((plainTargets owner (valuedVariables n)).map fun a => assignment a.1 a.2)).map fun e =>
        (expressionStatement e).withOrigin n).toList ++
      ((valuedVariables n).filter fun v => !isPlain v).flatMap fun v =>
        variableStatement [] NodeFlags.letDeclaration [variableDeclaration v.1 (some v.2)] ::
          v.1.boundTexts.map (memberCopy owner) := by
    rw [← plain, ← patterns]
    rfl
  rw [made, List.flatMap_append, flatMap_assignments_commas, List.flatMap_assoc]
  simp only [flatMap_assignments_pattern]

/-! ## The order of the values -/

variable {n owner} {valued : List (Node × Node)}

theorem map_snd_plainTargets : (plainTargets owner valued).map Prod.snd = (valued.filter isPlain).map Prod.snd := by
  induction valued with
  | nil => rfl
  | cons v rest ih =>
    rw [plainTargets] at ih
    rw [plainTargets, List.filterMap_cons, List.filter_cons, isPlain]
    cases v.1.identifierText? with
    | none => exact ih
    | some text => exact congrArg (v.2 :: ·) ih

theorem filter_map_snd_patternTargets {v : Node × Node} (isRead : v.2.isSynthesized = false) :
    ((patternTargets owner v).map Prod.snd).filter (fun value => !value.isSynthesized) = [v.2] := by
  have made (text : String) : (identifier text).isSynthesized = true := has_synthesized
  simp [patternTargets, isRead, made]

theorem filter_append_filter_of_ordered (ordered : valued.Pairwise fun v w => isPlain w = true → isPlain v = true) :
    valued.filter isPlain ++ valued.filter (fun v => !isPlain v) = valued := by
  induction valued with
  | nil => rfl
  | cons v rest ih =>
    obtain ⟨first, later⟩ := List.pairwise_cons.mp ordered
    cases plain : isPlain v with
    | true =>
      rw [List.filter_cons_of_pos plain, List.filter_cons_of_neg (by simp [plain]), List.cons_append, ih later]
    | false =>
      have none : rest.filter isPlain = [] := by
        refine List.filter_eq_nil_iff.mpr fun w mem other => ?_
        rw [first w mem other] at plain
        cases plain
      have all : rest.filter (fun v => !isPlain v) = rest := by
        rw [none, List.nil_append] at ih
        exact ih later
      rw [List.filter_cons_of_neg (by simp [plain]), List.filter_cons_of_pos (by simp [plain]), none, all]
      rfl

section

variable (isRead : ∀ v ∈ valuedVariables n, v.2.isSynthesized = false)
include isRead

theorem readValues_exportedVariables : readValues (exportedVariables n owner) =
    ((valuedVariables n).filter isPlain ++ (valuedVariables n).filter fun v => !isPlain v).map Prod.snd := by
  rw [readValues, flatMap_assignments_exportedVariables, List.map_append, List.map_append, List.filter_append]
  congr 1
  · rw [map_snd_plainTargets]
    refine List.filter_eq_self.mpr fun value mem => ?_
    obtain ⟨v, inside, rfl⟩ := List.mem_map.mp mem
    rw [isRead v (List.mem_of_mem_filter inside)]
    rfl
  · rw [List.map_flatMap, List.filter_flatMap, List.map_eq_flatMap]
    refine List.flatMap_congr fun v inside => ?_
    exact filter_map_snd_patternTargets (isRead v (List.mem_of_mem_filter inside))

/-- Each value is evaluated once, and in the order of the source if no name with a value stands behind a pattern. -/
theorem exportedVariables_evaluate_once :
    (readValues (exportedVariables n owner)).Perm ((valuedVariables n).map Prod.snd) ∧
      ((valuedVariables n).Pairwise (fun v w => isPlain w = true → isPlain v = true) →
        readValues (exportedVariables n owner) = (valuedVariables n).map Prod.snd) := by
  rw [readValues_exportedVariables isRead]
  refine ⟨(List.filter_append_perm isPlain _).map Prod.snd, fun ordered => ?_⟩
  rw [filter_append_filter_of_ordered ordered]

end

theorem exportedVariables_evaluate_name_and_pattern :
    ∃ n, (SourceFile.parse "a.ts" "export var b = a, \x7b c \x7d = b;" .esNext .ts true).statements = [n] ∧
      (∀ v ∈ valuedVariables n, v.2.isSynthesized = false) ∧ (valuedVariables n).length = 2 ∧
      readValues (exportedVariables n "N") = (valuedVariables n).map Prod.snd := by
  have read : (SourceFile.parse "a.ts" "export var b = a, \x7b c \x7d = b;" .esNext .ts true).statements.map (fun n =>
      ((valuedVariables n).all fun v => !v.2.isSynthesized, (valuedVariables n).map isPlain)) =
        [(true, [true, false])] := by decide +kernel
  obtain ⟨n, file, facts⟩ := List.map_eq_singleton_iff.mp read
  obtain ⟨isRead, plain⟩ := Prod.mk.inj facts
  have isRead : ∀ v ∈ valuedVariables n, v.2.isSynthesized = false := by simpa using isRead
  obtain ⟨v, rest, valued, first, more⟩ := List.map_eq_cons_iff.mp plain
  obtain ⟨w, rfl, second⟩ := List.map_eq_singleton_iff.mp more
  refine ⟨n, file, isRead, by rw [valued]; rfl, (exportedVariables_evaluate_once isRead).2 ?_⟩
  rw [valued]
  exact List.pairwise_pair.mpr fun _ => first

end Lowering

end ScriptFrontend
