import ScriptFrontend.Grammar.Expression
import ScriptFrontend.Proofs.Making.Type
import ScriptFrontend.Proofs.Making.Statement

/-!
# Nodes of expressions

The operators of an expression make nodes of the operands that were read before them.
-/

namespace ScriptFrontend

open Diagnostic (Fault)
open Parse

set_option synthInstance.maxSize 4096

variable {W : Type} [Course W] {lo : Nat} {w : W} [AtMost W lo (Course.offset w)]

instance : Makes lo w arrayElement := by
  unfold arrayElement
  refine .seq_still inferInstance fun k => ?_
  split <;> infer_instance

instance : Makes lo w argument := by
  unfold argument
  infer_instance

instance : Makes lo w arguments := by
  unfold arguments
  infer_instance

instance : Makes lo w expressionTypeArguments? := by
  unfold expressionTypeArguments?
  infer_instance

instance : Makes lo w (templateExpression true) := by
  unfold templateExpression
  infer_instance

instance : MakesWhen (ParserState.IsOn .templateHead) lo w (templateExpression false) := by
  unfold templateExpression
  exact .spanning fun start => .form_seq (.seq (i := start.pos) (templateHead_makes false) fun head => inferInstance)

instance (pos : Nat) (tag : Node) (questionDot : Option Node) (typeArguments : Option NodeList)
    [AtMost W lo pos] [AtMost W pos (Course.offset w)] [Built pos w tag] [Built pos w questionDot]
    [Built pos w typeArguments] :
    Makes lo w (taggedTemplate pos tag questionDot typeArguments) := by
  unfold taggedTemplate
  refine .seq_tokenIs (.choose (fun _ => ?_) nofun) (.choose nofun fun _ => inferInstance)
  exact .rescan (f := fun _ => do
    drainErrors
    let _ ← token
    let template ← literal
    let n ← finish .taggedTemplateExpression pos (.taggedTemplate { tag, questionDot, typeArguments, template })
    return n.chainedIf (questionDot.isSome || tag.inChain)) nofun inferInstance

instance (e : Node) (questionDot : Option Node) [Built lo w e] : Built lo w (chained e questionDot).1 := by
  unfold chained
  split <;> infer_instance

instance (n : Node) [h : Built lo w n] : Built lo w n.instantiation? := by
  unfold Node.instantiation?
  split
  · split
    · rename_i e arguments form
      have slots := (h.slots form).lower h.starts
      have := slots.head.of_ofNode
      have := slots.tail.head.of_ofList?
      infer_instance
    · infer_instance
  · infer_instance

instance (pos : Nat) (e : Node) (questionDot : Option Node) [AtMost W lo pos] [AtMost W pos (Course.offset w)]
    [Built pos w e] [Built pos w questionDot] :
    Makes lo w (propertyAccess pos e questionDot) := by
  unfold propertyAccess
  dsimp only
  refine .seq_new inferInstance fun name => ?_
  split <;> infer_instance

instance (pos : Nat) (e : Node) (questionDot : Option Node) [AtMost W lo pos] [AtMost W pos (Course.offset w)]
    [Built pos w e] [Built pos w questionDot] :
    Makes lo w (elementAccess pos e questionDot) := by
  unfold elementAccess
  dsimp only
  refine .seq_still inferInstance fun closes => .choose (fun _ => inferInstance) fun _ => ?_
  refine .seq_new inferInstance fun index => .choose (fun _ => ?_) fun _ => inferInstance
  split <;> infer_instance

instance (allowChain : Bool) : Makes lo w (chainMark? allowChain) := by
  unfold chainMark?
  infer_instance

instance (pos : Nat) (e : Node) (allowChain : Bool) [AtMost W lo pos] [AtMost W pos (Course.offset w)]
    [Built pos w e] :
    Makes lo w (memberStep? pos e allowChain) := by
  unfold memberStep?
  refine .seq_new inferInstance fun dot => .seq_still inferInstance fun member => ?_
  refine .choose (fun _ => inferInstance) fun _ => .seq_still inferInstance fun element => ?_
  refine .choose (fun _ => inferInstance) fun _ => .seq_still inferInstance fun template => ?_
  refine .choose (fun _ => ?_) fun _ => inferInstance
  split
  · rename_i tag arguments _ found
    have parts : Built pos dot.stage (tag, arguments) := .of_some inferInstance found
    have : Built pos dot.stage tag := parts.fst
    have : Built pos dot.stage arguments := parts.snd
    infer_instance
  · infer_instance

instance (pos : Nat) (e : Node) (allowChain : Bool) [AtMost W lo pos] [AtMost W pos (Course.offset w)]
    [Built pos w e] :
    Makes lo w (memberRest pos e allowChain) := by
  unfold memberRest
  refine .lower (i := pos) ?_ inferInstance
  infer_instance

instance (pos : Nat) (e : Node) [AtMost W lo pos] [AtMost W pos (Course.offset w)] [Built pos w e] :
    Makes lo w (callRest pos e) := by
  unfold callRest
  dsimp only
  refine .seq (i := pos) (.loop inferInstance fun e => ?_) inferInstance
  refine .seq_on inferInstance fun e => .seq_new inferInstance fun dot => ?_
  refine .choose (fun _ => .seq_new inferInstance fun written => .seq_still inferInstance fun template =>
    .choose (fun _ => inferInstance) fun _ => ?_) fun _ => ?_
  all_goals
    refine .seq_still inferInstance fun called => .choose (fun _ => .choose (fun _ => ?_) fun _ =>
      inferInstance) fun _ => inferInstance
    split
    · rename_i callee given found
      have parts : Built pos e.stage (callee, given) := .of_some inferInstance found
      have : Built pos e.stage callee := parts.fst
      have : Built pos e.stage given := parts.snd
      infer_instance
    · infer_instance

instance : Makes lo w parenthesizedExpression := by
  unfold parenthesizedExpression
  infer_instance

instance : Makes lo w arrayLiteral := by
  unfold arrayLiteral
  infer_instance

instance : Makes lo w freeAssignment := by
  unfold freeAssignment
  infer_instance

instance (led : Lead) (mayBeShorthand : Bool) (name : Node) (question exclamation : Option Node)
    [AtMost W lo led.pos] [Leading w led] [Built led.pos w name] [Built led.pos w question]
    [Built led.pos w exclamation] :
    Makes lo w (propertyAssignment led mayBeShorthand name question exclamation) := by
  unfold propertyAssignment
  infer_instance

instance : Makes lo w objectMember := by
  unfold objectMember
  infer_instance

instance : Makes lo w objectLiteral := by
  unfold objectLiteral
  infer_instance

instance : Makes lo w classExpression := by
  unfold classExpression
  infer_instance

instance : Makes lo w decoratedExpression := by
  unfold decoratedExpression
  infer_instance

instance (primary : Parse Node) [∀ w : W, Makes (Course.offset w) w primary] : Makes lo w
    (newExpression primary) := by
  unfold newExpression
  refine .seq_from fun pos => .seq_still inferInstance fun _ => .seq_still inferInstance fun dot => ?_
  refine .choose (fun _ => inferInstance) fun _ => .seq_here fun start => .seq_new inferInstance fun operand => ?_
  refine .seq (i := start.pos) inferInstance fun e => ?_
  dsimp only
  infer_instance

instance : Makes lo w primary := by
  unfold primary
  refine .seq_token fun k => ?_
  split
  · refine .seq_flags fun flags => .choose (fun _ => ?_) fun _ => inferInstance
    exact .rescan (f := fun _ => do drainErrors; let _ ← token; literal) nofun inferInstance
  all_goals infer_instance

instance : Makes lo w asyncModifier? := by
  unfold asyncModifier?
  infer_instance

instance (mode : SignatureMode) (allowReturnType : Bool) : Makes lo w (arrowBody mode allowReturnType) := by
  unfold arrowBody
  infer_instance

instance (led : Lead) (name : Node) (allowReturnType : Bool) [AtMost W lo led.pos] [Leading w led]
    [built : Built led.pos w name] : Makes lo w (bareArrow led name allowReturnType) := by
  unfold bareArrow
  have := built.starts
  have := built.started
  have := built.itself
  refine .seq (i := led.pos) inferInstance fun p => ?_
  have range := Course.range p.built.node
  have : Built led.pos p.stage (NodeList.ofItems [p.value] p.value.pos p.value.stop) := by
    refine .of_list (Course.list.mpr ⟨range, List.forall_mem_singleton.mpr ⟨?_, fun _ => Nat.le_refl _⟩⟩)
    exact Course.start p.built.node
  infer_instance

instance : Makes lo w isBareAsyncArrow := by
  unfold isBareAsyncArrow
  infer_instance

instance (allowReturnType : Bool) : Makes lo w (bareAsyncArrow? allowReturnType) := by
  unfold bareAsyncArrow?
  infer_instance

instance (mode : SignatureMode) (guess : Bool) : Makes lo w (arrowParameters? mode guess) := by
  unfold arrowParameters?
  infer_instance

instance (guess allowReturnType : Bool) : Makes lo w (parenthesizedArrow? guess allowReturnType) := by
  unfold parenthesizedArrow?
  infer_instance

instance (allowReturnType : Bool) : Makes lo w (possibleArrow? allowReturnType) := by
  unfold possibleArrow?
  have (start : Nat) : Still W (modify fun s => { s with notArrows := start :: s.notArrows } : Parse Unit) :=
    .notes fun _ => ⟨rfl, rfl, rfl, rfl, fun _ => id, .refl _, rfl, id⟩
  dsimp only
  infer_instance

instance (allowReturnType : Bool) : Makes lo w (arrow? allowReturnType) := by
  unfold arrow?
  refine .seq_still inferInstance fun guess => ?_
  split <;> infer_instance

instance : Makes lo w superExpression := by
  unfold superExpression
  infer_instance

instance : Makes lo w memberExpression := by
  unfold memberExpression
  infer_instance

instance : Makes lo w importExpression := by
  unfold importExpression
  infer_instance

instance : Makes lo w leftHandSide := by
  unfold leftHandSide
  infer_instance

instance : Makes lo w decoratorExpression := by
  unfold decoratorExpression
  infer_instance

instance : Makes lo w updateExpression := by
  unfold updateExpression
  infer_instance

instance : Makes lo w prefixedExpression := by
  unfold prefixedExpression
  infer_instance

instance (kind : Kind) : Makes lo w (wordExpression kind) := by
  unfold wordExpression
  infer_instance

instance : Makes lo w typeAssertion := by
  unfold typeAssertion
  infer_instance

instance : Makes lo w simpleUnary := by
  unfold simpleUnary
  refine .seq_still inferInstance fun k => ?_
  split <;> infer_instance

instance (floor : Precedence) (left : Node) (pos : Nat) [AtMost W lo pos] [AtMost W pos (Course.offset w)]
    [Built pos w left] :
    Makes lo w (binaryRest floor left pos) := by
  unfold binaryRest
  refine .lower (i := pos) ?_ inferInstance
  infer_instance

instance : Makes lo w unary := by
  unfold unary
  infer_instance

instance (floor : Precedence) : Makes lo w (binary floor) := by
  unfold binary
  infer_instance

instance (condition : Node) (pos : Nat) (allowReturnType : Bool) [AtMost W lo pos]
    [AtMost W pos (Course.offset w)] [Built pos w condition] :
    Makes lo w (conditionalRest condition pos allowReturnType) := by
  unfold conditionalRest
  refine .lower (i := pos) ?_ inferInstance
  infer_instance

instance (e : Node) (pos : Nat) (allowReturnType : Bool) [AtMost W lo pos] [AtMost W pos (Course.offset w)]
    [Built pos w e] :
    Makes lo w (assignmentRest e pos allowReturnType) := by
  unfold assignmentRest
  infer_instance

instance : Makes lo w yieldExpression := by
  unfold yieldExpression
  infer_instance

instance (allowReturnType : Bool) : Makes lo w (openAssignment allowReturnType) := by
  unfold openAssignment
  infer_instance

instance (allowReturnType : Bool) : Makes lo w (assignmentAtDepth allowReturnType) := by
  unfold assignmentAtDepth
  infer_instance

end ScriptFrontend
