import ScriptFrontend.Grammar.Lead
import ScriptFrontend.Grammar.Reuse
import ScriptFrontend.Grammar.Spelling
import ScriptFrontend.Grammar.Start
import ScriptFrontend.Proofs.Motion.Rules

/-!
# Steps of the state

Looking at the current token, moving on from it, reporting and going back make no nodes. What the current
token may start is told by looking at it and at the tokens behind it.
-/

namespace ScriptFrontend

open Diagnostic (Fault)
open Parse

variable {α : Type} {R : ParserState → ParserState → Prop}

instance [FreeMotion R] (on : Bool) (flags : NodeFlags) : Goes R (setContext on flags) :=
  .turns (c := fun s => { s.context with flags := s.contextFlags.set flags on })

variable [Motion R]

/-! ## Steps that make no nodes -/

instance : Goes R token := .of_look fun _ _ => rfl
instance : Goes R nodePos := .of_look fun _ _ => rfl
instance : Goes R tokenStart := .of_look fun _ _ => rfl
instance : Goes R tokenEnd := .of_look fun _ _ => rfl
instance : Goes R tokenValue := .of_look fun _ _ => rfl
instance : Goes R tokenText := .of_look fun _ _ => rfl
instance : Goes R tokenFlags := .of_look fun _ _ => rfl
instance : Goes R isElementVariant := .of_look fun _ _ => rfl
instance : Goes R diagnosticCount := .of_look fun _ _ => rfl
instance : Goes R afterLineBreak := .of_look fun _ _ => rfl
instance : Goes R sourceText := .of_look fun _ _ => rfl
instance : Goes R (get : Parse ParserState) := .of_look fun _ _ => rfl
instance (k : Kind) : Goes R (tokenIs k) := .of_look fun _ _ => rfl
instance (ks : List Kind) : Goes R (tokenIn ks) := .of_look fun _ _ => rfl
instance (flags : NodeFlags) : Goes R (inContext flags) := .of_look fun _ _ => rfl
instance : Goes R isJavaScript := .of_look fun _ _ => rfl
instance : Goes R stall := .notes fun _ => ⟨rfl, rfl, rfl, rfl, fun _ => id, .refl _, rfl, fun _ => rfl⟩
instance (start length : Nat) (fault : Fault) (args : List String) :
    Goes R (errorAtSpan start length fault args) :=
  .notes fun _ => ⟨rfl, rfl, rfl, rfl, fun _ => id, .addUniqueStart _ _, rfl, id⟩
instance (flag : NodeFlags) : Goes R (noteFileFlag flag) :=
  .notes fun _ => ⟨rfl, rfl, rfl, rfl, fun _ => id, .refl _, rfl, id⟩
instance : Goes R countIdentifier := .notes fun _ => ⟨rfl, rfl, rfl, rfl, fun _ => id, .refl _, rfl, id⟩
instance (torn : Bool) : Goes R (noteTorn torn) := .notes fun _ => ⟨rfl, rfl, rfl, rfl, fun _ => id, .refl _, rfl, id⟩
instance (text : String) : Goes R (noteIdentifier text) :=
  .notes fun _ => ⟨rfl, rfl, rfl, rfl, fun _ => List.mem_cons_of_mem _, .refl _, rfl, id⟩

/-! ## The scanner -/

instance : Goes R (modifyScanner Scanner.scan) := .scanner Scanner.goesTo_scan
instance : Goes R (modifyScanner Scanner.scanDoc) := .scanner Scanner.goesTo_scanDoc
instance : Goes R (modifyScanner Scanner.rescanGreater) := .scanner Scanner.goesTo_rescanGreater
instance : Goes R (modifyScanner Scanner.rescanLess) := .scanner Scanner.goesTo_rescanLess
instance : Goes R (modifyScanner Scanner.rescanSlash) := .scanner Scanner.goesTo_rescanSlash
instance : Goes R (modifyScanner Scanner.scanElementName) := .scanner Scanner.goesTo_scanElementName
instance : Goes R (modifyScanner Scanner.scanAttributeValue) := .scanner Scanner.goesTo_scanAttributeValue
instance : Goes R (modifyScanner Scanner.forgetErrors) := .scanner Scanner.goesTo_forgetErrors
instance : Goes R (modifyScanner Scanner.enterDocType) := .scanner Scanner.goesTo_enterDocType
instance : Goes R (modifyScanner Scanner.leaveDocType) := .scanner Scanner.goesTo_leaveDocType
instance (overLines : Bool) : Goes R (modifyScanner fun s => s.scanElementContent overLines) :=
  .scanner (Scanner.goesTo_scanElementContent overLines)
instance (overLines : Bool) : Goes R (modifyScanner fun s => s.rescanElementContent overLines) :=
  .scanner (Scanner.goesTo_rescanElementContent overLines)

instance (start stop : Nat) (fault : Fault) (args : List String) : Goes R (errorAt start stop fault args) := by
  unfold errorAt
  infer_instance

instance (fault : Fault) (args : List String) : Goes R (errorHere fault args) := by
  unfold errorHere
  infer_instance

instance (n : Node) (fault : Fault) (args : List String) : Goes R (errorAtNode n fault args) := by
  unfold errorAtNode
  infer_instance

instance : Goes R drainErrors := by
  unfold drainErrors
  infer_instance

instance : Goes R nextTokenUnchecked := by
  unfold nextTokenUnchecked
  infer_instance

instance : Goes R nextToken := by
  unfold nextToken
  infer_instance

instance : Goes R skipToken := by
  unfold skipToken
  infer_instance

instance : Goes R nextDocToken := by
  unfold nextDocToken
  infer_instance

instance : Goes R rescanGreater := by
  unfold rescanGreater
  infer_instance

instance : Goes R rescanLess := by
  unfold rescanLess
  infer_instance

instance : Goes R rescanSlash := by
  unfold rescanSlash
  infer_instance

/-! ## Going back -/

instance (p : Parse Bool) [Goes R p] : Goes R (attemptTest p) := by
  unfold attemptTest
  infer_instance

/-! ## Expected tokens -/

instance (k : Kind) : Goes R (nextTokenIs k) := by
  unfold nextTokenIs
  infer_instance

instance (kind : Kind) (fault : Option Fault) : Goes R (errorExpected kind fault) := by
  unfold errorExpected
  split <;> infer_instance

instance (kind : Kind) (fault : Option Fault) (advance : Bool) : Goes R (expectWith kind fault advance) := by
  unfold expectWith
  infer_instance

instance (kind : Kind) : Goes R (expect kind) := by
  unfold expect
  infer_instance

instance (kind : Kind) : Goes R (require kind) := by
  unfold require
  infer_instance

theorem Goes.explaining {test : Bool} {f : Diagnostic → Diagnostic} {p : Parse Unit} (goes : Goes R p)
    (same : ∀ d, (f d).start? = d.start?) : Goes R (Parse.explaining test f p) := by
  unfold Parse.explaining
  have : Goes R (modify fun s => { s with diagnostics := (s.diagnostics.modifyLast f).2 } : Parse Unit) :=
    .notes fun _ => ⟨rfl, rfl, rfl, rfl, fun _ => id, .modifyLast same _, rfl, id⟩
  infer_instance

instance (opening closing : Kind) (wasOpened : Bool) (openPos : Nat) :
    Goes R (requireMatching opening closing wasOpened openPos) := by
  unfold requireMatching
  have related : Goes R (explaining wasOpened
      (·.addRelated ⟨openPos, 1⟩ Fault.matchingTokenExpected.message [tokenName closing, tokenName opening])
      (errorHere .expected [tokenName closing])) :=
    .explaining inferInstance fun _ => rfl
  infer_instance

instance (kind : Kind) : Goes R (Parse.optional kind) := by
  unfold Parse.optional
  infer_instance

instance : Goes R canEndStatement := by
  unfold canEndStatement
  infer_instance

instance : Goes R trySemicolon := by
  unfold trySemicolon
  infer_instance

instance : Goes R semicolon := by
  unfold semicolon
  infer_instance

instance : Goes R isIdentifier := by
  unfold isIdentifier
  infer_instance

instance : Goes R isAnyWord := by
  unfold isAnyWord
  infer_instance

/-! ## Tests of what begins -/

set_option synthInstance.maxSize 4096

instance : Goes R nextIsIdentifierOrWordOnLine := by
  unfold nextIsIdentifierOrWordOnLine
  infer_instance

instance : Goes R nextIsIdentifier := by
  unfold nextIsIdentifier
  infer_instance

instance : Goes R nextIsIdentifierOrWord := by
  unfold nextIsIdentifierOrWord
  infer_instance

instance : Goes R nextIsIdentifierOrStringOnLine := by
  unfold nextIsIdentifierOrStringOnLine
  infer_instance

instance : Goes R nextIsClassOnLine := by
  unfold nextIsClassOnLine
  infer_instance

instance : Goes R nextIsFunctionOnLine := by
  unfold nextIsFunctionOnLine
  infer_instance

instance : Goes R nextIsWordOrLiteralOnLine := by
  unfold nextIsWordOrLiteralOnLine
  infer_instance

instance : Goes R isLiteralPropertyName := by
  unfold isLiteralPropertyName
  infer_instance

instance : Goes R nextIsNumber := by
  unfold nextIsNumber
  infer_instance

instance (kinds : List Kind) : Goes R (nextIsIn kinds) := by
  unfold nextIsIn
  infer_instance

instance : Goes R isBindingIdentifier := by
  unfold isBindingIdentifier
  infer_instance

instance : Goes R isBindingStart := by
  unfold isBindingStart
  infer_instance

instance : Goes R isLeftHandSideStart := by
  unfold isLeftHandSideStart
  infer_instance

instance : Goes R isBinaryOperator := by
  unfold isBinaryOperator
  infer_instance

instance : Goes R isExpressionStart := by
  unfold isExpressionStart
  infer_instance

instance : Goes R isExpressionStatementStart := by
  unfold isExpressionStatementStart
  infer_instance

instance (amongParameters : Bool) : Goes R (isOpenTypeStart amongParameters) := by
  unfold isOpenTypeStart
  refine .seq inferInstance fun k => ?_
  split
  · infer_instance
  · split <;> infer_instance

instance : Goes R isUntypedParameterStart := by
  unfold isUntypedParameterStart
  infer_instance

instance : Goes R afterParenIsTypeStart := by
  unfold afterParenIsTypeStart
  refine .seq inferInstance fun found => ?_
  dsimp only
  split <;> infer_instance

instance (amongParameters : Bool) : Goes R (isTypeStart amongParameters) := by
  unfold isTypeStart
  infer_instance

instance (isDoc : Bool) : Goes R (isParameterStart isDoc) := by
  unfold isParameterStart
  infer_instance

instance : Goes R canFollowModifier := by
  unfold canFollowModifier
  infer_instance

instance : Goes R nextOnLineCanFollowModifier := by
  unfold nextOnLineCanFollowModifier
  infer_instance

instance : Goes R canFollowExport := by
  unfold canFollowExport
  infer_instance

instance : Goes R nextCanFollowExport := by
  unfold nextCanFollowExport
  infer_instance

instance : Goes R nextCanFollowDefault := by
  unfold nextCanFollowDefault
  refine .seq inferInstance fun k => ?_
  split <;> infer_instance

instance : Goes R nextCanFollowModifier := by
  unfold nextCanFollowModifier
  refine .seq inferInstance fun k => ?_
  split
  case h_2 =>
    refine .seq inferInstance fun next => ?_
    split <;> infer_instance
  all_goals infer_instance

instance : Goes R isTypeMemberStart := by
  unfold isTypeMemberStart
  dsimp only
  infer_instance

instance (name : Option Kind) : Goes R (isMemberAfter name) := by
  unfold isMemberAfter
  split <;> infer_instance

instance : Goes R isClassMemberStart := by
  unfold isClassMemberStart
  refine .seq inferInstance fun k => ?_
  split
  · infer_instance
  refine .seq inferInstance fun found => ?_
  dsimp only
  split <;> infer_instance

instance : Goes R isIndexSignatureBody := by
  unfold isIndexSignatureBody
  infer_instance

instance : Goes R isIndexSignature := by
  unfold isIndexSignature
  infer_instance

instance : Goes R isHeritageClause := by
  unfold isHeritageClause
  infer_instance

instance : Goes R isHeritageClauseWithExpression := by
  unfold isHeritageClauseWithExpression
  infer_instance

instance : Goes R isHeritageObject := by
  unfold isHeritageObject
  infer_instance

instance (exceptOf : Bool) : Goes R (nextIsBindingOnLine exceptOf) := by
  unfold nextIsBindingOnLine
  infer_instance

instance : Goes R nextIsUsingOnLine := by
  unfold nextIsUsingOnLine
  infer_instance

instance : Goes R isUsingDeclaration := by
  unfold isUsingDeclaration
  infer_instance

instance : Goes R isAwaitUsingDeclaration := by
  unfold isAwaitUsingDeclaration
  infer_instance

instance : Goes R isLetDeclaration := by
  unfold isLetDeclaration
  infer_instance

instance : Goes R isDeclarationAhead := by
  unfold isDeclarationAhead
  refine .seq (.loop fun found => ?_) fun found => ?_
  · refine .seq inferInstance fun k => ?_
    split <;> infer_instance
  · dsimp only
    split <;> infer_instance

instance : Goes R isDeclarationStart := by
  unfold isDeclarationStart
  infer_instance

instance : Goes R isStatementStart := by
  unfold isStatementStart
  refine .seq inferInstance fun k => ?_
  split
  · infer_instance
  · split <;> infer_instance

instance (nameFault blankFault : Fault) (tokenIfBlank : Kind) :
    Goes R (errorInvalidName nameFault blankFault tokenIfBlank) := by
  unfold errorInvalidName
  infer_instance

instance (n : Node) : Goes R (errorMissingSemicolon n) := by
  unfold errorMissingSemicolon
  refine .seq inferInstance fun source => ?_
  split
  · infer_instance
  dsimp only
  split
  case h_11 => split <;> infer_instance
  all_goals infer_instance

end ScriptFrontend
