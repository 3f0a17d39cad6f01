import ScriptFrontend.Proofs.Context.Rules

/-!
# Types and expressions keep the context
-/

namespace ScriptFrontend

open Diagnostic (Fault)
open Parse

set_option synthInstance.maxSize 4096

/-! ## Types -/

instance : KeepsContext type := by
  unfold type
  infer_instance

instance : KeepsContext typeAnnotation? := by
  unfold typeAnnotation?
  infer_instance

instance : KeepsContext predicateName? := by
  unfold predicateName?
  infer_instance

instance : KeepsContext typeOrPredicate := by
  unfold typeOrPredicate
  infer_instance

instance (mark : Kind) (isType : Bool) : KeepsContext (returnType? mark isType) := by
  unfold returnType?
  infer_instance

instance : KeepsContext docType := by
  unfold docType
  infer_instance

instance : KeepsContext docParameter := by
  unfold docParameter
  infer_instance

instance : KeepsContext typeParameter := by
  unfold typeParameter
  infer_instance

instance : KeepsContext typeParameters? := by
  unfold typeParameters?
  infer_instance

instance : KeepsContext typeArgumentList := by
  unfold typeArgumentList
  infer_instance

instance : KeepsContext typeArguments? := by
  unfold typeArguments?
  infer_instance

instance : KeepsContext typeArgumentsOfName? := by
  unfold typeArgumentsOfName?
  infer_instance

instance (modifiers : Option NodeList) : KeepsContext (parameterName modifiers) := by
  unfold parameterName
  infer_instance

instance (outerAwait guess : Bool) : KeepsContext (parameter? outerAwait guess) := by
  unfold parameter?
  infer_instance

instance (outerAwait : Bool) : KeepsContext (parameter outerAwait) := by
  unfold parameter
  infer_instance

instance (mode : SignatureMode) (guess : Bool) : KeepsContext (parameterList? mode guess) := by
  unfold parameterList?
  infer_instance

instance (mode : SignatureMode) : KeepsContext (parameters mode) := by
  unfold parameters
  infer_instance

instance : KeepsContext statement := by
  unfold statement
  infer_instance

instance (ignoreMissingBrace : Bool) (fault : Option Fault) : KeepsContext (block ignoreMissingBrace fault) := by
  unfold block
  infer_instance

instance (mode : SignatureMode) (fault : Option Fault) : KeepsContext (functionBlock mode fault) := by
  unfold functionBlock
  infer_instance

instance (mode : SignatureMode) (fault : Option Fault) : KeepsContext (functionBody? mode fault) := by
  unfold functionBody?
  infer_instance

instance (l : Lead) (asterisk : Option Node) (name : Node) (question exclamation : Option Node) (fault : Option Fault) :
    KeepsContext (methodDeclaration l asterisk name question exclamation fault) := by
  unfold methodDeclaration
  infer_instance

instance (l : Lead) (kind : Kind) (mode : SignatureMode) : KeepsContext (accessorDeclaration l kind mode) := by
  unfold accessorDeclaration
  infer_instance

instance (l : Lead) (mode : SignatureMode) : KeepsContext (accessor? l mode) := by
  unfold accessor?
  infer_instance

instance (l : Lead) : KeepsContext (indexSignature l) := by
  unfold indexSignature
  infer_instance

instance (l : Lead) : KeepsContext (functionDeclaration l) := by
  unfold functionDeclaration
  infer_instance

instance : KeepsContext functionExpression := by
  unfold functionExpression
  infer_instance

instance (kind : Kind) : KeepsContext (signatureMember kind) := by
  unfold signatureMember
  infer_instance

instance (l : Lead) : KeepsContext (propertyOrMethodSignature l) := by
  unfold propertyOrMethodSignature
  infer_instance

instance : KeepsContext typeMember := by
  unfold typeMember
  infer_instance

instance : KeepsContext typeMembers := by
  unfold typeMembers
  infer_instance

instance : KeepsContext passParameterStart := by
  unfold passParameterStart
  infer_instance

instance : KeepsContext isFunctionTypeBody := by
  unfold isFunctionTypeBody
  infer_instance

instance : KeepsContext isFunctionTypeStart := by
  unfold isFunctionTypeStart
  refine .seq inferInstance fun k => ?_
  split <;> infer_instance

instance : KeepsContext abstractModifier? := by
  unfold abstractModifier?
  infer_instance

instance : KeepsContext functionType := by
  unfold functionType
  infer_instance

instance (negative : Bool) : KeepsContext (literalType negative) := by
  unfold literalType
  infer_instance

instance : KeepsContext typeReference := by
  unfold typeReference
  infer_instance

instance : KeepsContext typeQuery := by
  unfold typeQuery
  infer_instance

instance : KeepsContext wordWithoutDot? := by
  unfold wordWithoutDot?
  infer_instance

instance : KeepsContext thisType := by
  unfold thisType
  infer_instance

instance : KeepsContext thisTypeOrPredicate := by
  unfold thisTypeOrPredicate
  infer_instance

instance : KeepsContext assertsPredicate := by
  unfold assertsPredicate
  infer_instance

instance : KeepsContext importTypeAttributes := by
  unfold importTypeAttributes
  infer_instance

instance : KeepsContext importType := by
  unfold importType
  infer_instance

instance (isTagged : Bool) : KeepsContext (templateHead isTagged) := by
  unfold templateHead
  infer_instance

instance (isTagged : Bool) : KeepsContext (templatePiece isTagged) := by
  unfold templatePiece
  infer_instance

instance (kind : Kind) (part : Parse Node) (isTagged : Bool) [KeepsContext part] :
    KeepsContext (templateSpans kind part isTagged) := by
  unfold templateSpans
  infer_instance

instance : KeepsContext templateType := by
  unfold templateType
  infer_instance

instance : KeepsContext mappedTypeParameter := by
  unfold mappedTypeParameter
  infer_instance

instance (kind : Kind) : KeepsContext (signedToken? kind) := by
  unfold signedToken?
  infer_instance

instance : KeepsContext mappedType := by
  unfold mappedType
  infer_instance

instance : KeepsContext typeLiteral := by
  unfold typeLiteral
  infer_instance

instance : KeepsContext tupleElementType := by
  unfold tupleElementType
  refine .seq inferInstance fun pos => .seq inferInstance fun isRest => .choose (fun _ => inferInstance) fun _ => ?_
  refine .seq inferInstance fun t => ?_
  split <;> infer_instance

instance : KeepsContext tupleElement := by
  unfold tupleElement
  infer_instance

instance : KeepsContext tupleType := by
  unfold tupleType
  infer_instance

instance : KeepsContext parenthesizedType := by
  unfold parenthesizedType
  infer_instance

instance : KeepsContext docUnknownOrNullableType := by
  unfold docUnknownOrNullableType
  infer_instance

instance : KeepsContext docFunctionType := by
  unfold docFunctionType
  infer_instance

instance : KeepsContext simpleType := by
  unfold simpleType
  refine .seq inferInstance fun k => ?_
  split <;> infer_instance

instance : KeepsContext markedType := by
  unfold markedType
  refine .seq inferInstance fun pos => .seq inferInstance fun t => .seq (.loop fun t => ?_) fun _ => inferInstance
  refine .seq inferInstance fun ended => .choose (fun _ => inferInstance) fun _ => .seq inferInstance fun k => ?_
  split <;> infer_instance

instance : KeepsContext inferredBound? := by
  unfold inferredBound?
  infer_instance

instance : KeepsContext inferType := by
  unfold inferType
  infer_instance

instance : KeepsContext operatorType := by
  unfold operatorType
  refine .seq inferInstance fun k => ?_
  split <;> infer_instance

instance (inUnion : Bool) (read : Parse Node) [KeepsContext read] : KeepsContext (typeAmong inUnion read) := by
  unfold typeAmong
  infer_instance

instance (operator kind : Kind) (read : Parse Node) [KeepsContext read] :
    KeepsContext (typesJoinedBy operator kind read) := by
  unfold typesJoinedBy
  infer_instance

instance : KeepsContext unionType := by
  unfold unionType
  infer_instance

instance : KeepsContext conditionalOrUnionType := by
  unfold conditionalOrUnionType
  infer_instance

instance : KeepsContext wholeType := by
  unfold wholeType
  infer_instance

/-! ## Expressions -/

instance : KeepsContext arrayElement := by
  unfold arrayElement
  refine .seq inferInstance fun k => ?_
  split <;> infer_instance

instance : KeepsContext argument := by
  unfold argument
  infer_instance

instance : KeepsContext arguments := by
  unfold arguments
  infer_instance

instance : KeepsContext expressionTypeArguments? := by
  unfold expressionTypeArguments?
  infer_instance

instance (isTagged : Bool) : KeepsContext (templateExpression isTagged) := by
  unfold templateExpression
  infer_instance

instance (pos : Nat) (tag : Node) (questionDot : Option Node) (typeArguments : Option NodeList) :
    KeepsContext (taggedTemplate pos tag questionDot typeArguments) := by
  unfold taggedTemplate
  infer_instance

instance (pos : Nat) (e : Node) (questionDot : Option Node) : KeepsContext (propertyAccess pos e questionDot) := by
  unfold propertyAccess
  refine .seq inferInstance fun name => ?_
  dsimp only
  split <;> infer_instance

instance (pos : Nat) (e : Node) (questionDot : Option Node) : KeepsContext (elementAccess pos e questionDot) := by
  unfold elementAccess
  dsimp only
  refine .seq inferInstance fun closes => .choose (fun _ => inferInstance) fun _ => ?_
  refine .seq inferInstance fun index => .choose (fun _ => ?_) fun _ => inferInstance
  split <;> infer_instance

instance (allowChain : Bool) : KeepsContext (chainMark? allowChain) := by
  unfold chainMark?
  infer_instance

instance (pos : Nat) (e : Node) (allowChain : Bool) : KeepsContext (memberStep? pos e allowChain) := by
  unfold memberStep?
  refine .seq inferInstance fun dot => .seq inferInstance fun member => ?_
  refine .choose (fun _ => inferInstance) fun _ => .seq inferInstance fun element => ?_
  refine .choose (fun _ => inferInstance) fun _ => .seq inferInstance fun template => ?_
  refine .choose (fun _ => ?_) fun _ => inferInstance
  split <;> infer_instance

instance (pos : Nat) (e : Node) (allowChain : Bool) : KeepsContext (memberRest pos e allowChain) := by
  unfold memberRest
  infer_instance

instance (pos : Nat) (e : Node) : KeepsContext (callRest pos e) := by
  unfold callRest
  dsimp only
  refine .seq (.loop fun e => .seq inferInstance fun e => .seq inferInstance fun dot => ?_) fun _ => inferInstance
  refine .choose (fun _ => .seq inferInstance fun written => .seq inferInstance fun template =>
    .choose (fun _ => inferInstance) fun _ => ?_) fun _ => ?_
  all_goals
    refine .seq inferInstance fun called => .choose (fun _ => .choose (fun _ => ?_) fun _ => inferInstance)
      fun _ => inferInstance
    split <;> infer_instance

instance : KeepsContext passConstructorName := by
  unfold passConstructorName
  infer_instance

instance (l : Lead) : KeepsContext (constructor? l) := by
  unfold constructor?
  infer_instance

instance (l : Lead) (name : Node) (question : Option Node) : KeepsContext (propertyDeclaration l name question) := by
  unfold propertyDeclaration
  infer_instance

instance (l : Lead) : KeepsContext (propertyOrMethod l) := by
  unfold propertyOrMethod
  infer_instance

instance (l : Lead) : KeepsContext (staticBlock l) := by
  unfold staticBlock
  infer_instance

instance : KeepsContext classMember := by
  unfold classMember
  infer_instance

instance : KeepsContext heritageElement := by
  unfold heritageElement
  infer_instance

instance : KeepsContext heritageClause := by
  unfold heritageClause
  infer_instance

instance : KeepsContext heritageClauses? := by
  unfold heritageClauses?
  infer_instance

instance : KeepsContext className? := by
  unfold className?
  infer_instance

instance : KeepsContext classBody := by
  unfold classBody
  infer_instance

instance (l : Lead) (kind : Kind) : KeepsContext (classLike l kind) := by
  unfold classLike
  infer_instance

instance (l : Lead) : KeepsContext (interfaceDeclaration l) := by
  unfold interfaceDeclaration
  infer_instance

instance : KeepsContext asyncModifier? := by
  unfold asyncModifier?
  infer_instance

instance (mode : SignatureMode) (allowReturnType : Bool) : KeepsContext (arrowBody mode allowReturnType) := by
  unfold arrowBody
  infer_instance

instance (l : Lead) (name : Node) (allowReturnType : Bool) : KeepsContext (bareArrow l name allowReturnType) := by
  unfold bareArrow
  infer_instance

instance : KeepsContext isBareAsyncArrow := by
  unfold isBareAsyncArrow
  infer_instance

instance (allowReturnType : Bool) : KeepsContext (bareAsyncArrow? allowReturnType) := by
  unfold bareAsyncArrow?
  infer_instance

instance (mode : SignatureMode) (guess : Bool) : KeepsContext (arrowParameters? mode guess) := by
  unfold arrowParameters?
  infer_instance

instance (guess allowReturnType : Bool) : KeepsContext (parenthesizedArrow? guess allowReturnType) := by
  unfold parenthesizedArrow?
  infer_instance

instance (allowReturnType : Bool) : KeepsContext (possibleArrow? allowReturnType) := by
  unfold possibleArrow?
  have notes (start : Nat) : KeepsContext (modify fun s => { s with notArrows := start :: s.notArrows } : Parse Unit) :=
    ⟨fun _ _ => rfl⟩
  infer_instance

instance (allowReturnType : Bool) : KeepsContext (arrow? allowReturnType) := by
  unfold arrow?
  refine .seq inferInstance fun guess => ?_
  split <;> infer_instance

instance : KeepsContext parenthesizedExpression := by
  unfold parenthesizedExpression
  infer_instance

instance : KeepsContext arrayLiteral := by
  unfold arrayLiteral
  infer_instance

instance : KeepsContext freeAssignment := by
  unfold freeAssignment
  infer_instance

instance (l : Lead) (mayBeShorthand : Bool) (name : Node) (question exclamation : Option Node) :
    KeepsContext (propertyAssignment l mayBeShorthand name question exclamation) := by
  unfold propertyAssignment
  infer_instance

instance : KeepsContext objectMember := by
  unfold objectMember
  infer_instance

instance : KeepsContext objectLiteral := by
  unfold objectLiteral
  infer_instance

instance : KeepsContext classExpression := by
  unfold classExpression
  infer_instance

instance : KeepsContext decoratedExpression := by
  unfold decoratedExpression
  infer_instance

instance (primary : Parse Node) [KeepsContext primary] : KeepsContext (newExpression primary) := by
  unfold newExpression
  infer_instance

instance : KeepsContext primary := by
  unfold primary
  refine .seq inferInstance fun k => ?_
  split <;> infer_instance

instance : KeepsContext superExpression := by
  unfold superExpression
  infer_instance

instance : KeepsContext memberExpression := by
  unfold memberExpression
  infer_instance

instance : KeepsContext importExpression := by
  unfold importExpression
  infer_instance

instance : KeepsContext leftHandSide := by
  unfold leftHandSide
  infer_instance

instance : KeepsContext decoratorExpression := by
  unfold decoratorExpression
  infer_instance

instance : KeepsContext updateExpression := by
  unfold updateExpression
  infer_instance

instance : KeepsContext prefixedExpression := by
  unfold prefixedExpression
  infer_instance

instance (kind : Kind) : KeepsContext (wordExpression kind) := by
  unfold wordExpression
  infer_instance

instance : KeepsContext typeAssertion := by
  unfold typeAssertion
  infer_instance

instance : KeepsContext simpleUnary := by
  unfold simpleUnary
  refine .seq inferInstance fun k => ?_
  split <;> infer_instance

instance (floor : Precedence) (left : Node) (pos : Nat) : KeepsContext (binaryRest floor left pos) := by
  unfold binaryRest
  infer_instance

instance : KeepsContext unary := by
  unfold unary
  infer_instance

instance (floor : Precedence) : KeepsContext (binary floor) := by
  unfold binary
  infer_instance

instance (condition : Node) (pos : Nat) (allowReturnType : Bool) :
    KeepsContext (conditionalRest condition pos allowReturnType) := by
  unfold conditionalRest
  infer_instance

instance (e : Node) (pos : Nat) (allowReturnType : Bool) : KeepsContext (assignmentRest e pos allowReturnType) := by
  unfold assignmentRest
  infer_instance

instance : KeepsContext yieldExpression := by
  unfold yieldExpression
  infer_instance

instance (allowReturnType : Bool) : KeepsContext (openAssignment allowReturnType) := by
  unfold openAssignment
  infer_instance

instance (allowReturnType : Bool) : KeepsContext (assignmentAtDepth allowReturnType) := by
  unfold assignmentAtDepth
  infer_instance

end ScriptFrontend
