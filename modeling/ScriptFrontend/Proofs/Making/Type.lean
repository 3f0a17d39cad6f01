import ScriptFrontend.Grammar.Type
import ScriptFrontend.Grammar.TypeMember
import ScriptFrontend.Grammar.Binding
import ScriptFrontend.Proofs.Making.Lists

/-!
# Nodes of signatures and types

Parameters, blocks, the functions that hold them, and types make their nodes.
-/

namespace ScriptFrontend

open Diagnostic (Fault)
open Parse

set_option synthInstance.maxSize 4096

variable {W : Type} [Course W] {lo : Nat} {w : W} [AtMost W lo (Course.offset w)]

instance : Makes lo w type := by
  unfold type
  infer_instance

instance : Makes lo w typeAnnotation? := by
  unfold typeAnnotation?
  infer_instance

instance : Makes lo w predicateName? := by
  unfold predicateName?
  infer_instance

instance : Makes lo w typeOrPredicate := by
  unfold typeOrPredicate
  infer_instance

instance (mark : Kind) (isType : Bool) : Makes lo w (returnType? mark isType) := by
  unfold returnType?
  infer_instance

instance : Makes lo w docType := by
  unfold docType
  infer_instance

instance : Makes lo w docParameter := by
  unfold docParameter
  exact .spanning fun start => .form_seq (.seq_here fun pos => inferInstance)

instance : Makes lo w typeParameter := by
  unfold typeParameter
  infer_instance

instance : Makes lo w typeParameters? := by
  unfold typeParameters?
  infer_instance

instance : Makes lo w typeArgumentList := by
  unfold typeArgumentList
  infer_instance

instance : Makes lo w typeArguments? := by
  unfold typeArguments?
  infer_instance

instance : Makes lo w typeArgumentsOfName? := by
  unfold typeArgumentsOfName?
  infer_instance

instance (modifiers : Option NodeList) [Built lo w modifiers] : Makes lo w (parameterName modifiers) := by
  unfold parameterName
  infer_instance

instance (outerAwait guess : Bool) : Makes lo w (parameter? outerAwait guess) := by
  unfold parameter?
  infer_instance

instance (outerAwait : Bool) : Makes lo w (parameter outerAwait) := by
  unfold parameter
  infer_instance

instance (mode : SignatureMode) (guess : Bool) : Makes lo w (parameterList? mode guess) := by
  unfold parameterList?
  infer_instance

instance (mode : SignatureMode) : Makes lo w (parameters mode) := by
  unfold parameters
  infer_instance

instance (allowExclamation : Bool) : Makes lo w (variableDeclaration allowExclamation) := by
  unfold variableDeclaration
  infer_instance

instance : Makes lo w variableWord := by
  unfold variableWord
  refine .seq_still inferInstance fun k => ?_
  split <;> infer_instance

instance (inLoop : Bool) : Makes lo w (variableList inLoop) := by
  unfold variableList
  infer_instance

instance (led : Lead) [AtMost W lo led.pos] [Leading w led] : Makes lo w (variableStatement led) := by
  unfold variableStatement
  infer_instance

instance : Makes lo w statement := by
  unfold statement
  infer_instance

instance (ignoreMissingBrace : Bool) (fault : Option Fault) : Makes lo w (block ignoreMissingBrace fault) := by
  unfold block
  infer_instance

instance (mode : SignatureMode) (fault : Option Fault) : Makes lo w (functionBlock mode fault) := by
  unfold functionBlock
  infer_instance

instance (mode : SignatureMode) (fault : Option Fault) : Makes lo w (functionBody? mode fault) := by
  unfold functionBody?
  infer_instance

instance (led : Lead) (asterisk : Option Node) (name : Node) (question exclamation : Option Node)
    (fault : Option Fault) [AtMost W lo led.pos] [Leading w led] [Built led.pos w asterisk]
    [Built led.pos w name] [Built led.pos w question]
    [Built led.pos w exclamation] :
    Makes lo w (methodDeclaration led asterisk name question exclamation fault) := by
  unfold methodDeclaration
  infer_instance

instance (led : Lead) (kind : Kind) (mode : SignatureMode) [AtMost W lo led.pos] [Leading w led] :
    Makes lo w (accessorDeclaration led kind mode) := by
  unfold accessorDeclaration
  infer_instance

instance (led : Lead) (mode : SignatureMode) [AtMost W lo led.pos] [Leading w led] : Makes lo w
    (accessor? led mode) := by
  unfold accessor?
  infer_instance

instance (led : Lead) [AtMost W lo led.pos] [Leading w led] : Makes lo w (indexSignature led) := by
  unfold indexSignature
  infer_instance

instance (led : Lead) [AtMost W lo led.pos] [Leading w led] : Makes lo w (functionDeclaration led) := by
  unfold functionDeclaration
  infer_instance

instance : Makes lo w functionExpression := by
  unfold functionExpression
  infer_instance

instance (kind : Kind) : Makes lo w (signatureMember kind) := by
  unfold signatureMember
  infer_instance

instance (led : Lead) [AtMost W lo led.pos] [Leading w led] : Makes lo w (propertyOrMethodSignature led) := by
  unfold propertyOrMethodSignature
  infer_instance

instance : Makes lo w typeMember := by
  unfold typeMember
  infer_instance

instance : Makes lo w typeMembers := by
  unfold typeMembers
  infer_instance

/-! ## Types -/

instance : Makes lo w passParameterStart := by
  unfold passParameterStart
  infer_instance

instance : Makes lo w isFunctionTypeBody := by
  unfold isFunctionTypeBody
  infer_instance

instance : Makes lo w isFunctionTypeStart := by
  unfold isFunctionTypeStart
  refine .seq_still inferInstance fun k => ?_
  split <;> infer_instance

instance : Makes lo w abstractModifier? := by
  unfold abstractModifier?
  infer_instance

instance : Makes lo w functionType := by
  unfold functionType
  infer_instance

instance (negative : Bool) : Makes lo w (literalType negative) := by
  unfold literalType
  infer_instance

instance : Makes lo w typeReference := by
  unfold typeReference
  infer_instance

instance : Makes lo w typeQuery := by
  unfold typeQuery
  infer_instance

instance : Makes lo w wordWithoutDot? := by
  unfold wordWithoutDot?
  infer_instance

instance : Makes lo w thisType := by
  unfold thisType
  infer_instance

instance : Makes lo w thisTypeOrPredicate := by
  unfold thisTypeOrPredicate
  infer_instance

instance : Makes lo w assertsPredicate := by
  unfold assertsPredicate
  infer_instance

instance : Makes lo w importTypeAttributes := by
  unfold importTypeAttributes
  infer_instance

instance : Makes lo w importType := by
  unfold importType
  infer_instance

instance : Makes lo w (templateHead true) := by
  unfold templateHead
  exact .seq_still inferInstance fun _ => inferInstanceAs (Makes lo w literal)

theorem Parse.templateHead_makes (isTagged : Bool) :
    MakesWhen (ParserState.IsOn .templateHead) lo w (templateHead isTagged) := by
  unfold templateHead
  exact .seq_flags fun flags => .choose (fun _ => .rescan nofun inferInstance) fun _ => inferInstance

instance (isTagged : Bool) : Makes lo w (templatePiece isTagged) := by
  unfold templatePiece
  refine .seq_tokenIs (.choose (fun _ => ?_) nofun) (.choose nofun fun _ => inferInstance)
  exact .rescan (f := fun _ => do drainErrors; let _ ← token; literal) nofun inferInstance

instance (kind : Kind) (part : Parse Node) (isTagged : Bool) [∀ w : W, Makes (Course.offset w) w part] :
    Makes lo w (templateSpans kind part isTagged) := by
  unfold templateSpans
  infer_instance

instance : MakesWhen (ParserState.IsOn .templateHead) lo w templateType := by
  unfold templateType
  exact .spanning fun start => .form_seq (.seq (i := start.pos) (templateHead_makes false) fun head => inferInstance)

instance : Makes lo w mappedTypeParameter := by
  unfold mappedTypeParameter
  infer_instance

instance (kind : Kind) : Makes lo w (signedToken? kind) := by
  unfold signedToken?
  infer_instance

instance : Makes lo w mappedType := by
  unfold mappedType
  refine .spanning fun start => .form_seq <| .seq_still inferInstance fun _ => ?_
  refine .form_seq <| .seq_new inferInstance fun readonlyToken => .form_seq <| .seq_still inferInstance fun _ => ?_
  refine .form_seq <| .seq_new inferInstance fun parameter => .form_seq <| .seq_still inferInstance fun named => ?_
  exact .form_choose (fun _ => inferInstance) fun _ => inferInstance

instance : Makes lo w typeLiteral := by
  unfold typeLiteral
  infer_instance

instance : Makes lo w tupleElementType := by
  unfold tupleElementType
  refine .seq_from fun pos => .seq_still inferInstance fun dots => ?_
  refine .choose (fun _ => inferInstance) fun _ => .seq_on inferInstance fun t => ?_
  split
  · rename_i inner _ form
    refine .choose (fun _ => ?_) fun _ => inferInstance
    have range := Course.range t.built.node
    refine .finishAt (fun places => (range places).2) ?_ inferInstance
    exact List.forall_mem_singleton.mpr (t.built.parts_of_form form (List.mem_singleton_self _))
  · infer_instance

instance : Makes lo w tupleElement := by
  unfold tupleElement
  infer_instance

instance : Makes lo w tupleType := by
  unfold tupleType
  infer_instance

instance : Makes lo w parenthesizedType := by
  unfold parenthesizedType
  infer_instance

instance : Makes lo w docUnknownOrNullableType := by
  unfold docUnknownOrNullableType
  infer_instance

instance : Makes lo w docFunctionType := by
  unfold docFunctionType
  infer_instance

instance : Makes lo w simpleType := by
  unfold simpleType
  refine .seq_token fun k => ?_
  split <;> infer_instance

instance : Makes lo w markedType := by
  unfold markedType
  dsimp only
  refine .seq_from fun pos => .seq_on inferInstance fun t => .seq_on (.loop inferInstance fun t => ?_) inferInstance
  refine .seq_still inferInstance fun broken => ?_
  refine .choose (fun _ => inferInstance) fun _ => .seq_still inferInstance fun k => ?_
  split <;> infer_instance

instance : Makes lo w inferredBound? := by
  unfold inferredBound?
  infer_instance

instance : Makes lo w inferType := by
  unfold inferType
  infer_instance

instance : Makes lo w operatorType := by
  unfold operatorType
  refine .seq_still inferInstance fun k => ?_
  split <;> infer_instance

instance (inUnion : Bool) (read : Parse Node) [reads : ∀ w : W, Makes (Course.offset w) w read] :
    Makes lo w (typeAmong inUnion read) := by
  unfold typeAmong
  refine .seq_new inferInstance fun isStart => .choose (fun _ => inferInstance) fun _ => ?_
  exact (reads isStart.stage).lower inferInstance

instance (operator kind : Kind) (read : Parse Node) [∀ w : W, Makes (Course.offset w) w read] :
    Makes lo w (typesJoinedBy operator kind read) := by
  unfold typesJoinedBy
  infer_instance

instance : Makes lo w unionType := by
  unfold unionType
  infer_instance

instance : Makes lo w conditionalOrUnionType := by
  unfold conditionalOrUnionType
  infer_instance

instance : Makes lo w wholeType := by
  unfold wholeType
  infer_instance

end ScriptFrontend
