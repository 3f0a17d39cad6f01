import ScriptFrontend.Proofs.Print.Name

/-!
# Functions and classes that are spelled out

Statements go by what stands in their place, which is spelled out like the statements themselves.
-/

namespace ScriptFrontend

open Node

set_option synthInstance.maxSize 4096

variable {σ : Substitution} {place : Position} {n : Node}

/-! ## Questions about nodes that are spelled out -/

theorem Node.items_spellOut (l : Option NodeList) :
    ((l.map (·.spellOut σ place)).map (·.items)).getD [] =
      ((l.map (·.items)).getD []).map (·.spellOut σ place) := by
  cases l <;> rfl

theorem Node.flagsOf_spellOut (ns : List Node) : flagsOf (ns.map (·.spellOut σ .part)) = flagsOf ns := by
  simp only [flagsOf, List.foldl_map, kind_spellOut_part]

namespace Node.IsSpelled

variable (h : n.IsSpelled σ place)

include h

theorem modifierFlags : (n.spellOut σ place).modifierFlags = n.modifierFlags := by
  rw [Node.modifierFlags, Node.modifierFlags, modifiers?, modifiers?, h.form]
  cases n.form
  case property p | functionLike p | classLike p =>
    dsimp only [Form.spellOut]
    cases p.modifiers with
    | none => rfl
    | some l => exact flagsOf_spellOut l.items
  all_goals rfl

theorem hasModifier (flags : ModifierFlags) :
    (n.spellOut σ place).hasModifier flags = n.hasModifier flags := by
  rw [Node.hasModifier, h.modifierFlags, Node.hasModifier]

theorem nameText :
    (n.spellOut σ place).name?.bind Node.identifierText? = n.name?.bind Node.identifierText? := by
  rw [name?, name?, h.form]
  cases n.form
  case functionLike p =>
    dsimp only [Form.spellOut]
    cases p.name with
    | none => rfl
    | some name => exact identifierText?_spellOut_key
  all_goals simp [Form.spellOut]

theorem expression? (other : n.kind ≠ .partiallyEmittedExpression) :
    (n.spellOut σ place).expression? = n.expression?.map (·.spellOut σ .value) := by
  rw [Node.expression?, Node.expression?, h.form]
  cases n.form
  case wrapped e =>
    dsimp only [Form.spellOut]
    rw [Position.inside_of_ne other]
    rfl
  all_goals rfl

end Node.IsSpelled

theorem Node.isSpelled_of_kind {k : Kind} (is : n.kind = k) (other : k ≠ .identifier) :
    n.IsSpelled σ .value :=
  isSpelled_value fun name => absurd (is.symm.trans (kind_of_isName name)) other

theorem Print.isSuperCall_spellOut : isSuperCall (n.spellOut σ .part) = isSuperCall n := by
  rw [isSuperCall, isSuperCall, kind_spellOut_part]
  by_cases statement : n.kind = .expressionStatement
  · rw [isSpelled_part.expression? (by rw [statement]; decide), Option.any_map]
    congr 2
    funext e
    rw [kind_spellOut_value (by decide) (by decide)]
    by_cases call : e.kind = .callExpression
    · rw [(isSpelled_of_kind call (by decide)).expression? (by rw [call]; decide), Option.any_map]
      congr 2
      exact funext fun callee => kind_spellOut_value (by decide) (by decide)
    · rw [beq_false_of_ne call, Bool.false_and, Bool.false_and]
  · rw [beq_false_of_ne statement, Bool.false_and, Bool.false_and]

theorem Print.propertyParameters_spellOut (l : NodeList) :
    propertyParameters (l.spellOut σ .part) = propertyParameters l := by
  rw [propertyParameters, propertyParameters, NodeList.items_spellOut, List.filter_map, List.filterMap_map]
  simp only [Function.comp_def, isSpelled_part.hasModifier, isSpelled_part.nameText]

theorem Print.isRunParameter_spellOut : isRunParameter (n.spellOut σ .part) = isRunParameter n := by
  rw [isRunParameter, isRunParameter, form_spellOut_part]
  cases n.form
  case parameter p =>
    dsimp only [Form.spellOut]
    rw [identifierText?_spellOut_part]
  all_goals rfl

/-! ## What is left of a substitution -/

namespace Substitution

theorem rest_expression (h : n.IsSpelled σ place) (other : n.isName = true → σ.expression n = Option.none) :
    σ.rest.expression (n.spellOut σ place) = (σ.expression n).map (·.spellOut σ .value) := by
  change ((n.spellOut σ place).origin.bind fun m => if (n.spellOut σ place).isName then _ else _) = _
  rw [h.origin, Option.bind_some, h.isName]
  split
  · rename_i name
    rw [other name, Node.kept?, kind_of_isName name]
    rfl
  · rfl

theorem rest_withOrigin (name : n.isName = true) (a : Node) :
    σ.rest.expression (n.withOrigin (Made.kept a)) = some a := by
  obtain ⟨h, s, slots, docs, origin⟩ := n
  exact if_pos name

theorem rest_statement : (σ.rest.statement (n.spellOut σ .part)).getD [n.spellOut σ .part] =
    ((σ.statement n).getD [n]).map (·.spellOut σ .part) := by
  change ((n.spellOut σ .part).origin.bind _).getD _ = _
  rw [isSpelled_part.origin, Option.bind_some]
  cases σ.statement n <;> rfl

end Substitution

namespace Agrees

/-! ## Statements -/

theorem statements_run (items : List Node) (p : Printing) :
    Print.statements items p =
      (do for n in items do
            for n in (p.substitution.statement n).getD [n] do
              Print.statement n
              Print.endLine : Print Unit) p :=
  rfl

instance statements (items : List Node) :
    Agrees σ (Print.statements (items.map (·.spellOut σ .part))) (Print.statements items) where
  holds p p' spells := by
    rw [statements_run, statements_run, spells.rest, spells.substitution]
    suffices loops : Agrees σ _ _ from loops.holds spells
    refine .seq (@loop _ _ _ _ _ _ _ _ fun n r => ?_) fun _ => inferInstance
    rw [Substitution.rest_statement]
    infer_instance

instance propertyAssignment (name : String) :
    Agrees σ (Print.propertyAssignment name) (Print.propertyAssignment name) := by
  unfold Print.propertyAssignment
  infer_instance

instance blockWith (items : List Node) (properties : List String) :
    Agrees σ (Print.blockWith (items.map (·.spellOut σ .part)) properties)
      (Print.blockWith items properties) := by
  unfold Print.blockWith
  simp only [List.isEmpty_map, List.findIdx?_map, Function.comp_def, Print.isSuperCall_spellOut,
    ← List.map_take, ← List.map_drop]
  infer_instance

/-! ## Functions -/

theorem expressionOf (other : n.kind ≠ .partiallyEmittedExpression) :
    Agrees σ ((n.spellOut σ .part).expression?.forM Print.expression)
      (n.expression?.forM Print.expression) := by
  rw [isSpelled_part.expression? other]
  infer_instance

instance decorators (l : Option NodeList) :
    Agrees σ (Print.decorators (l.map (·.spellOut σ .part))) (Print.decorators l) := by
  rw [Print.decorators, Print.decorators, items_spellOut]
  refine .seq (@loop _ _ _ _ _ _ _ _ fun m r => ?_) fun _ => inferInstance
  rw [kind_spellOut_part]
  by_cases decorator : m.kind = .decorator
  · have := expressionOf (σ := σ) (n := m) (by rw [decorator]; decide)
    infer_instance
  · rw [if_neg (by simpa using decorator), if_neg (by simpa using decorator)]
    infer_instance

instance runModifiers_same (l : Option NodeList) :
    Agrees σ (Print.runModifiers l) (Print.runModifiers l) := by
  unfold Print.runModifiers
  infer_instance

instance runModifiers (l : Option NodeList) :
    Agrees σ (Print.runModifiers (l.map (·.spellOut σ .part))) (Print.runModifiers l) := by
  rw [Print.runModifiers, Print.runModifiers, items_spellOut]
  refine .seq (@loop _ _ _ _ _ _ _ _ fun m r => ?_) fun _ => inferInstance
  rw [kind_spellOut_part]
  infer_instance

instance parameter : Agrees σ (Print.parameter (n.spellOut σ .part)) (Print.parameter n) := by
  rw [Print.parameter, Print.parameter, form_spellOut_part]
  cases n.form
  all_goals
    dsimp only [Form.spellOut]
    infer_instance

instance parameters (l : NodeList) :
    Agrees σ (Print.parameters (l.spellOut σ .part)) (Print.parameters l) := by
  unfold Print.parameters
  simp only [NodeList.items_spellOut, List.filter_map, Function.comp_def, Print.isRunParameter_spellOut]
  infer_instance

theorem body_kind : ((n.spellOut σ .body).kind == .block) = (n.kind == .block) := by
  rw [← spellOut_resolve, Position.resolve]
  split
  · rw [kind_spellOut_part]
  · exact kind_spellOut_value (by decide) (by decide)

instance functionBody (k : Kind) (l : NodeList) (body : Node) :
    Agrees σ (Print.functionBody k (l.spellOut σ .part) (body.spellOut σ .body))
      (Print.functionBody k l body) := by
  have spelled (place : Position) (h : body.IsSpelled σ place) : Agrees σ
      (Print.functionBody k (l.spellOut σ .part) (body.spellOut σ place)) (Print.functionBody k l body) := by
    rw [Print.functionBody, Print.functionBody, h.form, Print.propertyParameters_spellOut]
    cases body.form
    all_goals
      dsimp only [Form.spellOut, NodeList.items_spellOut]
      infer_instance
  rw [← spellOut_resolve, Position.resolve]
  split
  · exact spelled .part isSpelled_part
  · rcases value_cases σ body with h | ⟨a, name, found, is⟩
    · exact spelled .value h
    · obtain ⟨text, word, form⟩ := form_of_isName name
      rw [is, Print.functionBody, Print.functionBody, form]
      exact pure ()

theorem arrowBody (k : Kind) (l : NodeList) (body : Node) : Agrees σ
    (if (body.spellOut σ .body).kind == .block then
      Print.functionBody k (l.spellOut σ .part) (body.spellOut σ .body)
    else Print.expression (body.spellOut σ .body))
    (if body.kind == .block then Print.functionBody k l body else Print.expression body) := by
  rw [body_kind]
  split
  · infer_instance
  · rename_i other
    have value : body.spellOut σ .body = body.spellOut σ .value := by
      rw [← spellOut_resolve, Position.resolve, if_neg other]
    rw [value]
    infer_instance

instance functionHead (k : Kind) (p : Form.FunctionLike) :
    Agrees σ (Print.functionHead k
      { p with
        modifiers := p.modifiers.map (·.spellOut σ .part)
        name := p.name.map (·.spellOut σ .key)
        parameters := p.parameters.spellOut σ .part
        body := p.body.map (·.spellOut σ .body) }) (Print.functionHead k p) := by
  unfold Print.functionHead
  dsimp only
  split
  all_goals infer_instance

theorem function_of (h : n.IsSpelled σ place) :
    Agrees σ (Print.function (n.spellOut σ place)) (Print.function n) := by
  rw [Print.function, Print.function, h.form, h.kind]
  cases n.form
  case functionLike p =>
    dsimp only [Form.spellOut]
    have body (b : Node) := arrowBody (σ := σ) n.kind p.parameters b
    infer_instance
  all_goals
    dsimp only [Form.spellOut]
    infer_instance

/-! ## Classes -/

instance classMember : Agrees σ (Print.classMember (n.spellOut σ .part)) (Print.classMember n) := by
  rw [Print.classMember, Print.classMember, isSpelled_part.hasModifier, form_spellOut_part,
    kind_spellOut_part]
  have := function_of (σ := σ) (n := n) isSpelled_part
  cases n.form
  all_goals
    simp only [Form.spellOut, Option.isSome_map]
    infer_instance

instance baseClass : Agrees σ (Print.baseClass (n.spellOut σ .part)) (Print.baseClass n) := by
  have name (base : Node) : Agrees σ
      (match (base.spellOut σ .value).form with
        | .typeReference name _ => Print.expression name
        | _ => Print.expression (base.spellOut σ .value))
      (match base.form with
        | .typeReference name _ => Print.expression name
        | _ => Print.expression base) := by
    rcases value_cases σ base with spelled | ⟨a, name, found, is⟩
    · rw [spelled.form]
      cases base.form
      all_goals
        dsimp only [Form.spellOut]
        infer_instance
    · have value : Agrees σ (Print.expression (Made.kept a)) (Print.expression base) := is ▸ expression base
      obtain ⟨text, word, form⟩ := form_of_isName name
      rw [is, form]
      exact value
  rw [Print.baseClass, Print.baseClass, form_spellOut_part]
  cases n.form
  case heritageClause word types =>
    by_cases extending : word = .extendsKeyword
    · subst extending
      dsimp only [Form.spellOut, NodeList.items_spellOut]
      rw [List.head?_map]
      infer_instance
    · dsimp only [Form.spellOut]
      split
      · simp_all
      · split
        · simp_all
        · exact pure ()
  all_goals
    dsimp only [Form.spellOut]
    infer_instance

theorem classLike_of (h : n.IsSpelled σ place) :
    Agrees σ (Print.classLike (n.spellOut σ place)) (Print.classLike n) := by
  rw [Print.classLike, Print.classLike, h.form]
  cases n.form
  case classLike p =>
    dsimp only [Form.spellOut, NodeList.items_spellOut]
    rw [items_spellOut]
    infer_instance
  all_goals
    dsimp only [Form.spellOut]
    infer_instance

end Agrees

end ScriptFrontend
