import ScriptFrontend.Proofs.Print.Function
import ScriptFrontend.Proofs.Print.Name

/-!
# Expressions that are spelled out

What stands in the place of an expression that is no name stands there still, spelled out. What stood
in the place of a name is in the tree, and is printed as it is. The name of a tag is a value unless it is
intrinsic, and text between elements is copied.
-/

namespace ScriptFrontend

open Node

variable {σ : Substitution} {place : Position} {n : Node}

/-! ## Elements -/

theorem Node.spellOut_tag : n.spellOut σ .tag =
    n.spellOut σ (if n.identifierText?.any isIntrinsicName then .kept else .value) :=
  spellOut_resolve.symm

namespace Agrees

instance tagName : Agrees σ (Print.tagName (n.spellOut σ .tag)) (Print.tagName n) := by
  rw [spellOut_tag]
  split
  · rename_i intrinsic
    rw [Print.tagName, Print.tagName, form_spellOut_kept]
    cases form : n.form
    case identifier text word =>
      have own : isIntrinsicName text = true := by
        simpa [identifierText?, shape_of_form form rfl, Form.shape] using intrinsic
      dsimp only [Form.spellOut]
      rw [own, if_pos rfl, if_pos rfl]
      infer_instance
    all_goals
      have := expression_kept (σ := σ) (n := n) (by simp [isName, form])
      dsimp only [Form.spellOut]
      infer_instance
  · rename_i other
    rcases value_cases σ n with spelled | ⟨a, name, found, is⟩
    · rw [Print.tagName, Print.tagName, spelled.form]
      cases n.form
      all_goals
        dsimp only [Form.spellOut]
        infer_instance
    · have value : Agrees σ (Print.expression (Made.kept a)) (Print.expression n) := is ▸ expression n
      obtain ⟨text, word, form⟩ := form_of_isName name
      have plain : isIntrinsicName text = false := by
        simpa [identifierText?, shape_of_form form rfl, Form.shape] using other
      rw [is, Print.tagName, Print.tagName, form]
      dsimp only [Made.kept, Made.node, Node.form, Node.ofForm, Node.shape, Node.slots, Slot.ofNode,
        Form.ofLayout]
      rw [plain]
      exact value

instance bracedExpression (dots e : Option Node) :
    Agrees σ (Print.bracedExpression dots (e.map (·.spellOut σ .value))) (Print.bracedExpression dots e) := by
  unfold Print.bracedExpression
  infer_instance

theorem elementText_part (text : String) {raw : Option String} {flags : TokenFlags}
    (form : n.form = .literal text raw flags) :
    Agrees σ (Print.elementText (n.spellOut σ .part) text) (Print.elementText n text) := by
  have head : (n.spellOut σ .part).head = n.head :=
    isSpelled_part.head (by rw [shape_of_literal form]; rfl)
  have copied : Agrees σ
      (do let source := (← read).source; modify (·.writeRaw ((n.spellOut σ .part).fullText source)))
      (do let source := (← read).source; modify (·.writeRaw (n.fullText source)) : Print Unit) :=
    ⟨fun p p' spells => by
      change (modify (·.writeRaw ((n.spellOut σ .part).fullText p'.source)) : StateM Writer Unit) =
        modify (·.writeRaw (n.fullText p.source))
      rw [spells.source, fullText_of_head head]⟩
  rw [Print.elementText, Print.elementText, isSpelled_part.isSynthesized]
  infer_instance

instance child : Agrees σ (Print.child (n.spellOut σ .part)) (Print.child n) := by
  rw [Print.child, Print.child, form_spellOut_part, kind_spellOut_part]
  cases form : n.form
  case literal text _ _ =>
    have := elementText_part (σ := σ) text form
    dsimp only [Form.spellOut]
    infer_instance
  all_goals
    dsimp only [Form.spellOut]
    infer_instance

instance attributeValue : Agrees σ (Print.attributeValue (n.spellOut σ .part)) (Print.attributeValue n) := by
  rw [Print.attributeValue, Print.attributeValue, form_spellOut_part]
  cases form : n.form
  case literal =>
    have : Agrees σ (Print.literal (n.spellOut σ .part)) (Print.literal n) :=
      literal_of isSpelled_part (by rw [shape_of_literal form]; rfl)
    dsimp only [Form.spellOut]
    infer_instance
  all_goals
    dsimp only [Form.spellOut]
    infer_instance

instance tagAttribute : Agrees σ (Print.tagAttribute (n.spellOut σ .part)) (Print.tagAttribute n) := by
  rw [Print.tagAttribute, Print.tagAttribute, form_spellOut_part]
  cases n.form
  case jsxAttribute attributeName value =>
    dsimp only [Form.spellOut]
    rw [form_spellOut_part]
    cases form : attributeName.form
    case jsxNamespacedName =>
      dsimp only [Form.spellOut]
      rw [Print.tagName, Print.tagName, form_spellOut_part, form]
      dsimp only [Form.spellOut]
      infer_instance
    all_goals
      dsimp only [Form.spellOut]
      infer_instance
  all_goals
    simp only [Form.spellOut, Position.inside_part]
    infer_instance

instance openingTag (name attributes : Node) (closing : String) :
    Agrees σ (Print.openingTag (name.spellOut σ .tag) (attributes.spellOut σ .part) closing)
      (Print.openingTag name attributes closing) := by
  rw [Print.openingTag, Print.openingTag, form_spellOut_part]
  cases attributes.form
  all_goals
    simp only [Form.spellOut, Position.item_part, NodeList.items_spellOut]
    infer_instance

theorem jsxElement_of (h : n.IsSpelled σ place) :
    Agrees σ (Print.element (n.spellOut σ place)) (Print.element n) := by
  rw [Print.element, Print.element, h.form]
  cases n.form
  case jsxElement opening children closing =>
    dsimp only [Form.spellOut]
    rw [form_spellOut_part]
    cases opening.form
    all_goals
      dsimp only [Form.spellOut, NodeList.items_spellOut]
      infer_instance
  all_goals
    dsimp only [Form.spellOut, NodeList.items_spellOut]
    infer_instance

end Agrees

set_option synthInstance.maxSize 4096

/-! ## Questions about values that are spelled out -/

theorem IsAccess.kind_ne {a : Node} (h : IsAccess a) : a.kind ≠ .binaryExpression := by
  cases h <;> exact nofun

theorem IsAccess.origin {a : Node} (h : IsAccess a) : a.origin = none := by
  cases h <;> rfl

theorem Node.isCommaExpression_spellOut :
    ((n.spellOut σ .value).isSynthesized && (n.spellOut σ .value).isCommaExpression) =
    (n.isSynthesized && n.isCommaExpression) := by
  rcases value_cases σ n with spelled | ⟨a, name, found, is⟩
  · rw [spelled.isSynthesized, isCommaExpression, isCommaExpression, spelled.form]
    cases n.form <;> rfl
  · obtain ⟨text, word, form⟩ := form_of_isName name
    rw [is, isCommaExpression, isCommaExpression, form, Bool.and_false]
    exact Bool.and_false _

theorem Print.needsBlankAfter_spellOut (operator : Kind) :
    needsBlankAfter operator (n.spellOut σ .value) = needsBlankAfter operator n := by
  have other {m : Node} (other : m.kind ≠ .prefixUnaryExpression) : needsBlankAfter operator m = false := by
    unfold needsBlankAfter
    split
    · contradiction
    · rfl
  by_cases kind : n.kind = .prefixUnaryExpression
  · have spelled : n.IsSpelled σ .value := isSpelled_of_kind kind (by decide)
    rw [needsBlankAfter, needsBlankAfter, spelled.kind, spelled.form, kind]
    cases n.form <;> rfl
  · have same := kind_spellOut_value (σ := σ) (n := n) (k := .prefixUnaryExpression) (by decide) (by decide)
    rw [beq_false_of_ne kind] at same
    rw [other kind, other (beq_eq_false_iff_ne.mp same)]

namespace Agrees

/-! ## Parts of expressions -/

instance inParentheses (x' x : Print Unit) [Agrees σ x' x] :
    Agrees σ (Print.inParentheses x') (Print.inParentheses x) := by
  unfold Print.inParentheses
  infer_instance

instance argument : Agrees σ (Print.argument (n.spellOut σ .value)) (Print.argument n) := by
  unfold Print.argument
  rw [isCommaExpression_spellOut]
  infer_instance

instance itemLines (f' f : Node → Print Unit) (g : Node → Node) (ns : List Node)
    [each : ∀ n, Agrees σ (f' (g n)) (f n)] :
    Agrees σ (Print.itemLines f' (ns.map g)) (Print.itemLines f ns) := by
  induction ns with
  | nil => exact pure ()
  | cons n rest ih =>
    rw [List.map_cons, Print.itemLines, Print.itemLines, List.isEmpty_map]
    infer_instance

instance closeHole_value (items : List Node) :
    Agrees σ (Print.closeHole (items.map (·.spellOut σ .value))) (Print.closeHole items) := by
  have same : (items.map (·.spellOut σ .value)).getLast?.any (·.kind == .omittedExpression) =
      items.getLast?.any (·.kind == .omittedExpression) := by
    rw [List.getLast?_map, Option.any_map]
    exact congrArg (items.getLast?.any ·) (funext fun n => kind_spellOut_value (by decide) (by decide))
  rw [Print.closeHole, Print.closeHole, same]
  infer_instance

instance arrayLiteral (multiLine : Bool) (items : List Node) :
    Agrees σ (Print.arrayLiteral multiLine (items.map (·.spellOut σ .value)))
      (Print.arrayLiteral multiLine items) := by
  unfold Print.arrayLiteral
  simp only [List.isEmpty_map]
  infer_instance

/-! ## Members of objects -/

theorem shorthandMember_run (name : Node) (value : Option Node) (p : Printing) :
    Print.shorthandMember name value p =
      (do Print.name name
          (p.substitution.expression name).forM fun replacement => do
            Print.write ": "
            Print.expression replacement
          Print.initializer value : Print Unit) p :=
  rfl

instance shorthandMember (name : Node) (value : Option Node) :
    Agrees σ (Print.shorthandMember (name.spellOut σ .shorthand) (value.map (·.spellOut σ .value)))
      (Print.shorthandMember name value) where
  holds p p' spells := by
    rw [shorthandMember_run, shorthandMember_run, spells.rest, spells.substitution]
    rcases shorthand_cases σ name with ⟨spelled, other⟩ | ⟨a, isName, stands, is⟩
    · have := name_of spelled
      rw [Substitution.rest_expression spelled other]
      suffices member : Agrees σ _ _ from member.holds spells
      infer_instance
    · have access : IsAccess a := spells.accesses.access name a isName stands
      have value : Agrees σ (Print.expression a) (Print.expression a) :=
        ⟨fun _ _ spells => spells.access a access⟩
      rw [is, Substitution.rest_withOrigin isName, stands, Print.name_withOrigin]
      suffices member : Agrees σ _ _ from member.holds spells
      exact .seq inferInstance fun _ => .seq (.seq (write _) fun _ => value) fun _ => inferInstance

theorem spelledMember {m : Node} (found : σ.spelledMember? n = some m) :
    Agrees σ (Print.objectMember m) (Print.objectMember n) := by
  rw [Substitution.spelledMember?] at found
  split at found
  case h_2 => cases found
  rename_i name equals form
  split at found
  case isFalse => cases found
  rename_i isName
  obtain ⟨a, stands, rfl⟩ := Option.map_eq_some_iff.mp found
  obtain ⟨text, word, nameForm⟩ := form_of_isName isName
  refine ⟨fun p p' spells => ?_⟩
  have access : IsAccess a := spells.accesses.access name a isName stands
  have value : Agrees σ (Print.expression a) (Print.expression a) :=
    ⟨fun _ _ spells => spells.access a access⟩
  rw [Print.objectMember, Print.objectMember, form]
  change _ = Print.shorthandMember name none p
  rw [shorthandMember_run, spells.substitution, stands]
  suffices member : Agrees σ
      (Print.propertyName name >>= fun _ => (Print.write ": " >>= fun _ => Print.expression a))
      (Print.name name >>= fun _ => (Print.write ": " >>= fun _ => Print.expression a) >>= fun _ =>
        Pure.pure ()) from
    member.holds spells
  rw [Print.propertyName, nameForm, bind_pure_unit]
  infer_instance

instance objectMember : Agrees σ (Print.objectMember (n.spellOut σ .member)) (Print.objectMember n) := by
  rw [← spellOut_resolve, Position.resolve]
  split
  · rename_i p form
    rw [Print.objectMember, Print.objectMember, form_spellOut_part, form]
    dsimp only [Form.spellOut]
    infer_instance
  · rename_i name equals value form
    have same : Position.member.resolve n = .member := by rw [Position.resolve, form]
    cases found : σ.spelledMember? n with
    | some m =>
      rw [spellOut_whole (m := m) (by rw [same]; exact found)]
      exact spelledMember found
    | none =>
      have spelled : n.IsSpelled σ .member := by rw [IsSpelled, same]; exact found
      rw [Print.objectMember, Print.objectMember, spelled.form, form]
      dsimp only [Form.spellOut]
      infer_instance
  · rename_i notProperty notShorthand
    rcases value_cases σ n with spelled | ⟨a, name, found, is⟩
    · have function := function_of spelled
      rw [Print.objectMember, Print.objectMember, spelled.form]
      cases form : n.form
      case property p => exact absurd form (notProperty p)
      case shorthand => exact absurd form (notShorthand _ _ _)
      all_goals
        dsimp only [Form.spellOut]
        infer_instance
    · have value : Agrees σ (Print.expression (Made.kept a)) (Print.expression n) := is ▸ expression n
      obtain ⟨text, word, form⟩ := form_of_isName name
      rw [is, Print.objectMember, Print.objectMember, form]
      exact value

instance objectLiteral (multiLine : Bool) (items : List Node) :
    Agrees σ (Print.objectLiteral multiLine (items.map (·.spellOut σ .member)))
      (Print.objectLiteral multiLine items) := by
  unfold Print.objectLiteral
  simp only [List.isEmpty_map]
  infer_instance

/-! ## Expressions -/

theorem listExpression_of (h : n.IsSpelled σ place) (multiLine : Bool) (items : List Node) :
    Agrees σ (Print.listExpression (n.spellOut σ place) multiLine
        (items.map (·.spellOut σ (Position.value.item n.kind))))
      (Print.listExpression n multiLine items) := by
  have := binding_of h
  unfold Print.listExpression
  rw [h.kind]
  generalize n.kind = k
  split
  case h_1 | h_2 | h_5 =>
    dsimp only [Position.item]
    infer_instance
  all_goals infer_instance

instance wrapped (k : Kind) (e : Node) :
    Agrees σ (Print.wrapped k (e.spellOut σ (Position.value.inside k))) (Print.wrapped k e) := by
  by_cases kept : k = .partiallyEmittedExpression
  · subst kept
    exact settled e
  · rw [Position.inside_of_ne kept]
    unfold Print.wrapped
    split
    case h_9 => exact absurd rfl kept
    all_goals infer_instance

instance call (isNew : Bool) (p : Form.Call) :
    Agrees σ (Print.call isNew { p with
        expression := p.expression.spellOut σ .value
        arguments := p.arguments.map (·.spellOut σ .value) })
      (Print.call isNew p) := by
  unfold Print.call
  dsimp only
  rw [items_spellOut]
  infer_instance

instance template (head : Node) (spans : List Node) :
    Agrees σ (Print.template head (spans.map (·.spellOut σ .part))) (Print.template head spans) := by
  unfold Print.template
  refine .seq literal fun _ => .seq (@loop _ _ _ _ _ _ _ _ fun span r => ?_) fun _ => inferInstance
  rw [form_spellOut_part]
  cases span.form
  all_goals
    dsimp only [Form.spellOut]
    infer_instance

instance unary (k operator : Kind) (operand : Node) :
    Agrees σ (Print.unary k operator (operand.spellOut σ .value)) (Print.unary k operator operand) := by
  unfold Print.unary
  rw [Print.needsBlankAfter_spellOut]
  infer_instance

instance binary (left operator right : Node) :
    Agrees σ (Print.binary (left.spellOut σ .value) operator (right.spellOut σ .value))
      (Print.binary left operator right) := by
  unfold Print.binary
  infer_instance

instance yield (asterisk e : Option Node) :
    Agrees σ (Print.yield asterisk (e.map (·.spellOut σ .value))) (Print.yield asterisk e) := by
  unfold Print.yield
  infer_instance

theorem settled_of (h : n.IsSpelled σ place) (value : place.resolve n = .value ∨ place.resolve n = .kept) :
    Agrees σ (Print.settled (n.spellOut σ place)) (Print.settled n) := by
  have form : (n.spellOut σ place).form = n.form.spellOut σ .value n.kind := by
    rw [h.form]
    rcases value with is | is <;> rw [is]
    cases n.form <;> rfl
  have head (other : n.shape.isExpression = false) : (n.spellOut σ place).head = n.head := h.head (by
    rcases value with is | is <;> rw [is] <;> exact congrArg (!·) other)
  have name := name_of h
  have function := function_of h
  have classLike := classLike_of h
  have element := element_of h
  have list := listExpression_of h
  rw [Print.settled, Print.settled, form, h.kind, h.isSynthesized]
  cases is : n.form
  case literal text raw flags =>
    have : Agrees σ (Print.literal (n.spellOut σ place)) (Print.literal n) := literal_of h (by
      rcases value with is' | is' <;> rw [is', shape_of_literal is] <;> rfl)
    dsimp only [Form.spellOut]
    infer_instance
  case list multiLine l =>
    exact list multiLine l.items
  case token | identifier | templateLiteral | propertyAccess | elementAccess | call | taggedTemplate
      | typedExpression | typeAssertion | wrapped | functionLike | classLike | unary | binary | conditional
      | yieldLike | metaProperty | typeReference | jsxElement | jsxTag | jsxFragment =>
    dsimp only [Form.spellOut, NodeList.items_spellOut]
    infer_instance
  all_goals
    have := writeSource_of (σ := σ) (head (by rw [shape_of_form is rfl]; rfl))
    dsimp only [Form.spellOut]
    infer_instance

theorem substituted_run (isWhole : Bool) (m : Node) (p : Printing) : Print.substituted isWhole m p =
    (match p.substitution.expression m with
    | some replacement =>
      if !isWhole && replacement.kind == .binaryExpression && m.kind != .binaryExpression then
        Print.inParentheses (Print.expression replacement)
      else Print.expression replacement
    | none => Print.settled m : Print Unit) p :=
  rfl

/-- What stands in the place of an expression that is spelled out stands there still. -/
theorem substituted_of (isWhole : Bool) (h : n.IsSpelled σ place)
    (value : place.resolve n = .value ∨ place.resolve n = .kept)
    (other : n.isName = true → σ.expression n = none) :
    Agrees σ (Print.substituted isWhole (n.spellOut σ place)) (Print.substituted isWhole n) where
  holds p p' spells := by
    rw [substituted_run, substituted_run, spells.rest, spells.substitution,
      Substitution.rest_expression h other]
    suffices printed : Agrees σ _ _ from printed.holds spells
    cases σ.expression n with
    | none => exact settled_of h value
    | some replacement =>
      dsimp only [Option.map]
      rw [kind_spellOut_value (by decide) (by decide), h.kind]
      infer_instance

theorem substituted_value (isWhole : Bool) :
    Agrees σ (Print.substituted isWhole (n.spellOut σ .value)) (Print.substituted isWhole n) := by
  rcases value_cases σ n with spelled | ⟨a, name, found, is⟩
  · exact substituted_of isWhole spelled (.inl rfl) spelled.unreplaced
  · refine ⟨fun p p' spells => ?_⟩
    have access : IsAccess a := spells.accesses.access n a name found
    rw [is, substituted_run, substituted_run, spells.rest, spells.substitution, found]
    dsimp only
    rw [beq_false_of_ne access.kind_ne, Bool.and_false, Bool.false_and]
    exact spells.kept a access

end Agrees

end ScriptFrontend
