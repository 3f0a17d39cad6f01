import ScriptFrontend.Proofs.Registration.StarTable
import ScriptFrontend.Proofs.Scope.Import

/-!
# What setters do

The statements of a setter keep the object of a module under local names and export what other modules
ask of it. What is read off the statements of a setter is what the imports of its group ask for, and
each setter serves the group in its own place.
-/

namespace ScriptFrontend.Registration

open Made
open ModuleFacts (isStarExport)

/-! ## Reading a statement of a setter -/

def keptName? (parameter : String) (s : Node) : Option String :=
  match s.expression?.map Node.form with
  | some (.binary target operator value) =>
    if operator.kind = .equalsToken ∧ value.identifierText? = some parameter then
      target.identifierText?
    else none
  | _ => none

def argumentsOf? (callee : String) (s : Node) : Option (List Node) :=
  match s.expression?.map Node.form with
  | some (.call p) =>
    if p.expression.identifierText? = some callee then p.arguments.map (·.items) else none
  | _ => none

/-- The names of `y: parameter["x"]`, `y` before `x`. -/
def memberPair? (parameter : String) (n : Node) : Option (String × String) :=
  match n.form with
  | .property p =>
    match p.value.map Node.form with
    | some (.elementAccess e _ index) => do
      if e.identifierText? ≠ some parameter then none
      return (← p.name.literalText?, ← index.literalText?)
    | _ => none
  | _ => none

def exportedPairs (exporter parameter : String) (s : Node) : List (String × String) :=
  match argumentsOf? exporter s with
  | some [o] =>
    match o.form with
    | .list _ l => l.items.filterMap (memberPair? parameter)
    | _ => []
  | _ => []

def exportedWhole? (exporter parameter : String) (s : Node) : Option String :=
  match argumentsOf? exporter s with
  | some [name, value] => if value.identifierText? = some parameter then name.literalText? else none
  | _ => none

def isStarCall (star : Option String) (parameter : String) (s : Node) : Bool :=
  match star.bind (argumentsOf? · s) with
  | some [m] => m.identifierText? == some parameter
  | _ => false

/-! ## What an import asks for -/

/-- The local name of an import that binds something. -/
def keeps? (c : Context) (n : Node) : Option String :=
  match n.form with
  | .importDeclaration p => if p.clause.isSome then c.local? n else none
  | .importEquals _ => c.local? n
  | _ => none

/-- The names of `x as y` in a list of specifiers, `y` before `x`; types are left out. -/
def specifierPairs (clause : Node) : List (String × String) :=
  match clause.form with
  | .list _ l => l.items.filterMap fun s =>
    match s.form with
    | .specifier false propertyName name => do
      return (← name.nameText?, ← (propertyName.getD name).nameText?)
    | _ => none
  | _ => []

def sourcedPairs (n : Node) : List (String × String) :=
  match n.form with
  | .exportDeclaration p =>
    ((p.clause.filter (·.kind != .namespaceExport)).map specifierPairs).getD []
  | _ => []

/-- The names that a whole module is exported under, by `export * as y from` or `export import y`. -/
def wholeNames (n : Node) : List String :=
  match n.form with
  | .exportDeclaration p =>
    ((p.clause.filter (·.kind == .namespaceExport)).bind fun clause =>
      clause.name?.bind Node.nameText?).toList
  | .importEquals p => if n.isExported then p.name.identifierText?.toList else []
  | _ => []

variable {c : Context} {n : Node} {star : Option String} {parameter : String}

/-! ## One import -/

theorem argumentsOf?_call (callee f : String) (arguments : List Node) :
    argumentsOf? callee (expressionStatement (call (identifier f) arguments)) =
      if f = callee then some arguments else none := by
  change (if some f = some callee then some arguments else none) = _
  simp only [Option.some.injEq]

theorem keptName?_assignLocal (name : String) :
    keptName? parameter (assignLocal name parameter) = some name :=
  if_pos ⟨rfl, rfl⟩

theorem exportedWhole?_exportStatement (name : String) :
    exportedWhole? c.exporter parameter (exportStatement c name (identifier parameter)) = some name := by
  rw [exportedWhole?, exportStatement, exportCall, argumentsOf?_call, if_pos rfl]
  exact if_pos rfl

theorem exportedPairs_exportStatement (name : String) (value : Node) :
    exportedPairs c.exporter parameter (exportStatement c name value) = [] := by
  rw [exportedPairs, exportStatement, exportCall, argumentsOf?_call, if_pos rfl]

theorem isStarCall_exportStatement (name : String) (value : Node) :
    isStarCall star parameter (exportStatement c name value) = false := by
  cases star with
  | none => rfl
  | some helper =>
    rw [isStarCall, exportStatement, exportCall, Option.bind_some, argumentsOf?_call]
    split <;> simp_all

theorem memberPair?_property (exported imported : String) :
    memberPair? parameter (property (stringLiteral exported)
      (element (identifier parameter) (stringLiteral imported))) = some (exported, imported) := by
  change (do
    if some parameter ≠ some parameter then none
    return (exported, imported)) = some (exported, imported)
  simp

theorem reexported_pairs (clause : Node) :
    (reexported clause parameter).filterMap (memberPair? parameter) = specifierPairs clause := by
  rw [reexported, specifierPairs]
  cases clause.form
  case list multiLine l =>
    dsimp only
    rw [List.filterMap_filterMap]
    congr 1
    funext s
    cases s.form
    case specifier typeOnly propertyName name =>
      cases typeOnly
      case false =>
        dsimp only
        cases name.nameText? with
        | none => rfl
        | some exported =>
          cases (propertyName.getD name).nameText? with
          | none => rfl
          | some imported => exact memberPair?_property exported imported
      case true => rfl
    all_goals rfl
  all_goals rfl

def sourcedMembers (parameter : String) (n : Node) : List Node :=
  match n.form with
  | .exportDeclaration p =>
    ((p.clause.filter (·.kind != .namespaceExport)).map (reexported · parameter)).getD []
  | _ => []

def exportMembers (c : Context) (members : List Node) : List Node :=
  if members.isEmpty then []
  else [expressionStatement (call (identifier c.exporter) [object members true])]

def starStatement (parameter name : String) : Node :=
  expressionStatement (call (identifier name) [identifier parameter])

/-- What a setter does for an import, one part for each thing that an import may ask for. -/
theorem entrySetter_eq (c : Context) (star : Option String) (parameter : String) (n : Node) :
    entrySetter c star parameter n =
      (keeps? c n).toList.map (assignLocal · parameter) ++
        exportMembers c (sourcedMembers parameter n) ++
        (wholeNames n).map (fun name => exportStatement c name (identifier parameter)) ++
        if isStarExport n then star.toList.map (starStatement parameter) else [] := by
  rw [entrySetter, keeps?, sourcedMembers, wholeNames, isStarExport]
  dsimp only
  cases n.form
  case importDeclaration p =>
    dsimp only
    split <;> simp [exportMembers]
  case importEquals p => simp [exportMembers]
  case exportDeclaration p =>
    obtain ⟨typeOnly, modifiers, clause, source, attributes⟩ := p
    cases clause with
    | none => simp [exportSetter, exportMembers, starStatement]
    | some clause =>
      by_cases whole : clause.kind = .namespaceExport
      · simp [exportSetter, exportMembers, Option.filter, whole]
      · simp [exportSetter, exportMembers, Option.filter, whole]
  all_goals simp [exportMembers]

theorem sourcedMembers_pairs (n : Node) :
    (sourcedMembers parameter n).filterMap (memberPair? parameter) = sourcedPairs n := by
  rw [sourcedMembers, sourcedPairs]
  cases n.form
  case exportDeclaration p =>
    dsimp only
    cases p.clause.filter (·.kind != .namespaceExport) with
    | none => rfl
    | some clause => exact reexported_pairs clause
  all_goals rfl

/-! ## Reading the statements for an import -/

/-- A setter keeps its parameter under the local name of an import that binds something. -/
theorem entrySetter_kept (c : Context) (star : Option String) (parameter : String) (n : Node) :
    (entrySetter c star parameter n).filterMap (keptName? parameter) = (keeps? c n).toList := by
  have members : (exportMembers c (sourcedMembers parameter n)).filterMap (keptName? parameter) = [] := by
    rw [exportMembers]
    split <;> rfl
  have stars : (if isStarExport n then star.toList.map (starStatement parameter) else []).filterMap
      (keptName? parameter) = [] := by
    split
    · rw [List.filterMap_map]
      exact List.filterMap_eq_nil_iff.mpr fun name _ => rfl
    · rfl
  rw [entrySetter_eq, List.filterMap_append, List.filterMap_append, List.filterMap_append, members, stars,
    List.filterMap_map, List.filterMap_map]
  have wholes : (wholeNames n).filterMap (keptName? parameter ∘ fun name =>
      exportStatement c name (identifier parameter)) = [] :=
    List.filterMap_eq_nil_iff.mpr fun name _ => rfl
  have kept : (keptName? parameter ∘ (assignLocal · parameter)) = some :=
    funext fun name => keptName?_assignLocal name
  rw [wholes, kept, List.filterMap_some, List.append_nil, List.append_nil, List.append_nil]

/-- It exports the members that an export with a source takes from there. -/
theorem entrySetter_pairs (c : Context) (star : Option String) (parameter : String) (n : Node) :
    (entrySetter c star parameter n).flatMap (exportedPairs c.exporter parameter) = sourcedPairs n := by
  have kept : ((keeps? c n).toList.map (assignLocal · parameter)).flatMap
      (exportedPairs c.exporter parameter) = [] := by
    rw [List.flatMap_map]
    exact List.flatMap_eq_nil_iff.mpr fun name _ => rfl
  have members : (exportMembers c (sourcedMembers parameter n)).flatMap
      (exportedPairs c.exporter parameter) = sourcedPairs n := by
    rw [← @sourcedMembers_pairs parameter, exportMembers]
    split
    · rename_i none
      rw [List.isEmpty_iff.mp none]
      rfl
    · rw [List.flatMap_cons, exportedPairs, argumentsOf?_call, if_pos rfl]
      exact List.append_nil _
  have wholes : ((wholeNames n).map fun name => exportStatement c name (identifier parameter)).flatMap
      (exportedPairs c.exporter parameter) = [] := by
    rw [List.flatMap_map]
    exact List.flatMap_eq_nil_iff.mpr fun name _ => exportedPairs_exportStatement name _
  have stars : (if isStarExport n then star.toList.map (starStatement parameter) else []).flatMap
      (exportedPairs c.exporter parameter) = [] := by
    split
    · rw [List.flatMap_map]
      refine List.flatMap_eq_nil_iff.mpr fun name _ => ?_
      rw [exportedPairs, starStatement, argumentsOf?_call]
      by_cases same : name = c.exporter
      · rw [if_pos same]
        rfl
      · rw [if_neg same]
    · rfl
  rw [entrySetter_eq, List.flatMap_append, List.flatMap_append, List.flatMap_append, kept, members, wholes,
    stars, List.nil_append, List.append_nil, List.append_nil]

/-- It exports the parameter itself under the names for a whole module. -/
theorem entrySetter_wholes (c : Context) (star : Option String) (parameter : String) (n : Node) :
    (entrySetter c star parameter n).filterMap (exportedWhole? c.exporter parameter) = wholeNames n := by
  have kept : ((keeps? c n).toList.map (assignLocal · parameter)).filterMap
      (exportedWhole? c.exporter parameter) = [] := by
    rw [List.filterMap_map]
    exact List.filterMap_eq_nil_iff.mpr fun name _ => rfl
  have members : (exportMembers c (sourcedMembers parameter n)).filterMap
      (exportedWhole? c.exporter parameter) = [] := by
    rw [exportMembers]
    split
    · rfl
    · rw [List.filterMap_cons, exportedWhole?, argumentsOf?_call, if_pos rfl]
      rfl
  have wholes : (exportedWhole? c.exporter parameter ∘ fun name =>
      exportStatement c name (identifier parameter)) = some :=
    funext fun name => exportedWhole?_exportStatement name
  have stars : (if isStarExport n then star.toList.map (starStatement parameter) else []).filterMap
      (exportedWhole? c.exporter parameter) = [] := by
    split
    · rw [List.filterMap_map]
      refine List.filterMap_eq_nil_iff.mpr fun name _ => ?_
      rw [Function.comp_apply, exportedWhole?, starStatement, argumentsOf?_call]
      by_cases same : name = c.exporter
      · rw [if_pos same]
      · rw [if_neg same]
    · rfl
  rw [entrySetter_eq, List.filterMap_append, List.filterMap_append, List.filterMap_append, kept, members,
    stars, List.filterMap_map, wholes, List.filterMap_some, List.nil_append, List.nil_append,
    List.append_nil]

/-- It calls the helper for stars once for an export of everything. -/
theorem entrySetter_stars (c : Context) (parameter : String)
    (helped : isStarExport n = true → star.isSome = true) :
    (entrySetter c star parameter n).countP (isStarCall star parameter) =
      if isStarExport n then 1 else 0 := by
  have none_ {α : Type} (l : List α) (f : α → Node) (h : ∀ a, isStarCall star parameter (f a) = false) :
      (l.map f).countP (isStarCall star parameter) = 0 := by
    rw [List.countP_eq_zero]
    intro s mem
    obtain ⟨a, -, rfl⟩ := List.mem_map.mp mem
    simp [h a]
  have kept := none_ (keeps? c n).toList (assignLocal · parameter) fun name => by
    cases star <;> rfl
  have members : (exportMembers c (sourcedMembers parameter n)).countP (isStarCall star parameter) = 0 := by
    rw [exportMembers]
    split
    · rfl
    · rw [List.countP_singleton, isStarCall]
      cases star with
      | none => rfl
      | some helper =>
        rw [Option.bind_some, argumentsOf?_call]
        by_cases same : c.exporter = helper
        · rw [if_pos same]
          rfl
        · rw [if_neg same]
          rfl
  have wholes := none_ (wholeNames n) (fun name => exportStatement c name (identifier parameter))
    fun name => isStarCall_exportStatement name _
  rw [entrySetter_eq, List.countP_append, List.countP_append, List.countP_append, kept, members, wholes]
  split
  · rename_i all
    obtain ⟨helper, found⟩ := Option.isSome_iff_exists.mp (helped all)
    have called : isStarCall (some helper) parameter (starStatement parameter helper) = true := by
      rw [isStarCall, Option.bind_some, starStatement, argumentsOf?_call, if_pos rfl]
      exact beq_self_eq_true (some parameter)
    rw [found, Option.toList_some, List.map_singleton, List.countP_singleton, called]
    rfl
  · rfl

/-! ## Whole setters -/

/-- The statements do for some imports, in their order, what these ask for. -/
structure DoesFor (c : Context) (star : Option String) (imports : List Node) (parameter : String)
    (statements : List Node) : Prop where
  kept : statements.filterMap (keptName? parameter) = imports.filterMap (keeps? c)
  pairs : statements.flatMap (exportedPairs c.exporter parameter) = imports.flatMap sourcedPairs
  wholes : statements.filterMap (exportedWhole? c.exporter parameter) = imports.flatMap wholeNames
  stars : statements.countP (isStarCall star parameter) = imports.countP isStarExport

/-- The function does for some imports what these ask for, with the object that it is given. -/
def Serves (c : Context) (star : Option String) (imports : List Node) (setter : Node) : Prop :=
  ∃ parameter statements, setter = function [parameter] statements ∧
    DoesFor c star imports parameter statements

theorem entrySetters_doFor (c : Context) (parameter : String) {imports : List Node}
    (helped : ∀ n ∈ imports, isStarExport n = true → star.isSome = true) :
    DoesFor c star imports parameter (imports.flatMap (entrySetter c star parameter)) where
  kept := by
    rw [List.filterMap_flatMap, List.filterMap_eq_flatMap_toList]
    exact List.flatMap_congr fun n _ => entrySetter_kept c star parameter n
  pairs := by
    rw [List.flatMap_assoc]
    exact List.flatMap_congr fun n _ => entrySetter_pairs c star parameter n
  wholes := by
    rw [List.filterMap_flatMap]
    exact List.flatMap_congr fun n _ => entrySetter_wholes c star parameter n
  stars := by
    induction imports with
    | nil => rfl
    | cons n imports ih =>
      have first := entrySetter_stars c parameter (helped n (List.mem_cons_self ..))
      have rest := ih fun n mem => helped n (List.mem_cons_of_mem _ mem)
      rw [List.flatMap_cons, List.countP_append, first, rest, List.countP_cons, Nat.add_comm]

theorem setters_serve {groups : List Dependency} {names : NameSupply}
    (helped : ∀ d ∈ groups, ∀ n ∈ d.entries, isStarExport n = true → star.isSome = true) :
    List.Forall₂ (fun d setter => Serves c star d.entries setter) groups
      (setters c star groups names).1 := by
  induction groups generalizing names with
  | nil => exact .nil
  | cons d groups ih =>
    have rest (names : NameSupply) := @ih names fun d mem => helped d (List.mem_cons_of_mem _ mem)
    refine .cons ⟨_, _, rfl, ?_⟩ (rest _)
    exact entrySetters_doFor c _ (helped d (List.mem_cons_self ..))

end ScriptFrontend.Registration
