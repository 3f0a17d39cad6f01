import ScriptFrontend.Grammar.Lists
import ScriptFrontend.Proofs.Motion.State
import ScriptFrontend.Source.File

/-!
# Steps of the grammar

Whether an element begins, and whether a list goes on or ends, is told without making nodes. So are guesses
of what follows, and reports of what is wrong, between the nodes that a production makes.
-/

namespace ScriptFrontend

open Diagnostic (Fault)
open Parse

set_option synthInstance.maxSize 4096

variable {R : ParserState → ParserState → Prop} [Motion R]

/-! ## Elements of an old tree -/

theorem Parse.oldElement?_run (context : ListContext) (g : Productions) (s : ParserState) :
    oldElement? context g s = (none, s) ∨ ∃ c, s.cursor = some c ∧
      (oldElement? context g s).2 = { s with cursor := some (c.nodeAt s.scanner.fullStart).2 } ∧
      ∀ n ∈ (oldElement? context g s).1, ∃ o, (c.nodeAt s.scanner.fullStart).1 = some o ∧
        o.isMissing = false ∧ o.head.touched = false ∧ n = o.checkErrors.2 := by
  have run : oldElement? context g s =
      (if !context.isReusable || s.errorPending then pure none else _ : Parse (Option Node)) g s := rfl
  rw [run]
  by_cases closed : (!context.isReusable || s.errorPending) = true
  · rw [if_pos closed]
    exact .inl rfl
  rw [if_neg closed]
  cases held : s.cursor with
  | none => exact .inl rfl
  | some c =>
    refine .inr ⟨c, rfl, ?_⟩
    dsimp only
    rcases c.nodeAt s.scanner.fullStart with ⟨_ | n, cursor⟩
    · exact ⟨rfl, fun _ mem => absurd mem (Option.not_mem_none _)⟩
    · dsimp only
      by_cases touched : (n.isMissing || n.head.touched) = true
      · simp only [if_pos touched]
        exact ⟨rfl, fun _ mem => absurd mem (Option.not_mem_none _)⟩
      · simp only [if_neg touched]
        obtain ⟨present, untouched⟩ := Bool.or_eq_false_iff.mp (Bool.not_eq_true _ ▸ touched)
        repeat' split
        all_goals refine ⟨rfl, fun x mem => ?_⟩
        all_goals cases mem
        exact ⟨n, rfl, present, untouched, rfl⟩

instance (context : ListContext) : Goes R (oldElement? context) where
  leads g s := by
    rcases oldElement?_run context g s with same | ⟨c, held, state, _⟩
    · rw [same]
      exact Motion.refl s
    · rw [state]
      exact Motion.asks _ held

instance (context : ListContext) (test : Parse Bool) [Goes R test] : Goes R (startsElement context test) := by
  unfold startsElement
  infer_instance

/-! ## Where lists go on and where they end -/

instance (context : ListContext) (recovering : Bool) : Goes R (isElementToken context recovering) := by
  unfold isElementToken
  cases context <;> dsimp only <;> infer_instance

instance (context : ListContext) (recovering : Bool) : Goes R (isElementStart context recovering) := by
  unfold isElementStart
  infer_instance

instance (context : ListContext) : Goes R (isTerminator context) := by
  unfold isTerminator
  cases context <;> dsimp only <;> infer_instance

instance : Goes R isWantedByOpenList := by
  unfold isWantedByOpenList
  refine .seq inferInstance fun s => .seq inferInstance fun found => ?_
  dsimp only
  split <;> infer_instance

instance (context : ListContext) : Goes R (errorInList context) := by
  unfold errorInList
  cases context <;> dsimp only <;> infer_instance

instance (context : ListContext) : Goes R (endsAtStrayToken context) := by
  unfold endsAtStrayToken
  infer_instance

instance (context : ListContext) (allowSemicolons : Bool) : Goes R (expectComma context allowSemicolons) := by
  unfold expectComma
  infer_instance

/-! ## Names -/

instance (kind : Kind) : Goes R (contextualModifier kind) := by
  unfold contextualModifier
  infer_instance

instance (mode : ModifierMode) (seenStatic : Bool) : Goes R (passModifier mode seenStatic) := by
  unfold passModifier
  infer_instance

instance (modifiers : Option NodeList) (fault : Fault) : Goes R (errorAtFirst modifiers fault) := by
  unfold errorAtFirst
  split <;> infer_instance

instance (kind : Kind) : Goes R (templateText kind) := by
  unfold templateText
  infer_instance

/-! ## Signatures and types -/

instance (mark : Kind) (isType : Bool) : Goes R (passReturnMark mark isType) := by
  unfold passReturnMark
  infer_instance

instance : Goes R typeMemberEnd := by
  unfold typeMemberEnd
  infer_instance

instance : Goes R isMappedTypeBody := by
  unfold isMappedTypeBody
  infer_instance

instance : Goes R nextIsColonAfterName := by
  unfold nextIsColonAfterName
  infer_instance

instance : Goes R isNamedTupleMember := by
  unfold isNamedTupleMember
  infer_instance

/-! ## Classes -/

instance (name : Node) (hasType hasValue : Bool) : Goes R (propertyEnd name hasType hasValue) := by
  unfold propertyEnd
  infer_instance

instance : Goes R isMemberName := by
  unfold isMemberName
  infer_instance

/-! ## Expressions -/

instance : Goes R isTemplateStart := by
  unfold isTemplateStart
  infer_instance

instance : Goes R isOptionalAccess := by
  unfold isOptionalAccess
  infer_instance

instance (chained : Bool) : Goes R (passMemberDot chained) := by
  unfold passMemberDot
  infer_instance

instance (chained : Bool) : Goes R (passElementBracket chained) := by
  unfold passElementBracket
  infer_instance

instance (second : Kind) : Goes R (guessAfterParen second) := by
  unfold guessAfterParen
  split
  case h_5 =>
    refine .seq inferInstance fun modified => .choose (fun _ => inferInstance) fun _ => ?_
    refine .seq inferInstance fun named => .choose (fun _ => ?_) fun _ => inferInstance
    refine .seq inferInstance fun next => ?_
    split <;> infer_instance
  all_goals infer_instance

instance : Goes R isGenericArrow := by
  unfold isGenericArrow
  refine .seq inferInstance fun _ => .seq inferInstance fun next => ?_
  split <;> infer_instance

instance : Goes R guessAfterAngle := by
  unfold guessAfterAngle
  infer_instance

instance : Goes R guessArrowAhead := by
  unfold guessArrowAhead
  infer_instance

instance : Goes R guessArrow := by
  unfold guessArrow
  refine .seq inferInstance fun k => ?_
  split <;> infer_instance

instance : Goes R isAwaitExpression := by
  unfold isAwaitExpression
  infer_instance

instance : Goes R isUpdateStart := by
  unfold isUpdateStart
  refine .seq inferInstance fun k => ?_
  split <;> infer_instance

instance (floor : Precedence) : Goes R (operatorLevel? floor) := by
  unfold operatorLevel?
  refine .seq inferInstance fun operator => ?_
  split
  · infer_instance
  · refine .choose (fun _ => ?_) fun _ => inferInstance
    refine .seq inferInstance fun k => ?_
    split <;> infer_instance

instance : Goes R isYieldExpression := by
  unfold isYieldExpression
  infer_instance

/-! ## Elements -/

instance : Goes R nextElementToken := by
  unfold nextElementToken
  infer_instance

instance : Goes R rescanElementToken := by
  unfold rescanElementToken
  infer_instance

instance : Goes R skipElementToken := by
  unfold skipElementToken
  infer_instance

instance (toTokens : Bool) : Goes R (leaveTag toTokens) := by
  unfold leaveTag
  infer_instance

instance (opening : Node) : Goes R (errorNotClosed opening) := by
  unfold errorNotClosed
  refine .choose (fun _ => inferInstance) fun _ => ?_
  split <;> infer_instance

instance (opening closing : Node) (parentTag : Option Node) :
    Goes R (errorClosingMismatch opening closing parentTag) := by
  unfold errorClosingMismatch
  dsimp only
  refine .choose (fun _ => inferInstance) fun _ => .seq inferInstance fun source => ?_
  split <;> infer_instance

/-! ## Statements -/

instance : Goes R isTypeImport := by
  unfold isTypeImport
  infer_instance

instance : Goes R startsVariables := by
  unfold startsVariables
  refine .seq inferInstance fun k => ?_
  split <;> infer_instance

/-! ## Files -/

instance : Goes R isJsonLiteral := by
  unfold isJsonLiteral
  infer_instance

instance : Goes R isNegativeNumber := by
  unfold isNegativeNumber
  infer_instance

/-! ## Documentation -/

instance : Goes R skipDocToken := by
  unfold skipDocToken
  infer_instance

instance : Goes R isBlankToken := by
  unfold isBlankToken
  infer_instance

instance : Goes R isOnlyBlanks := by
  unfold isOnlyBlanks
  refine .seq (.loop fun found => ?_) fun found => ?_
  · refine .seq inferInstance fun k => ?_
    split <;> infer_instance
  · dsimp only
    split <;> infer_instance

instance : Goes R isAtLastBlanks := by
  unfold isAtLastBlanks
  infer_instance

instance : Goes R skipBlanks := by
  unfold skipBlanks
  infer_instance

instance : Goes R skipBlanksAndAsterisks := by
  unfold skipBlanksAndAsterisks
  dsimp only
  refine .seq inferInstance fun last => .choose (fun _ => inferInstance) fun _ => ?_
  refine .seq inferInstance fun broken => .seq inferInstance fun start => ?_
  refine .seq (.loop fun state => .seq inferInstance fun k => ?_) inferInstance
  split <;> infer_instance

instance (kind : Kind) : Goes R (optionalDoc kind) := by
  unfold optionalDoc
  infer_instance

instance (kind : Kind) : Goes R (requireDoc kind) := by
  unfold requireDoc
  infer_instance

instance : Goes R skipEmptyBrackets := by
  unfold skipEmptyBrackets
  infer_instance

instance (state : DocState) (afterBlank : Bool) : Goes R (isAtSignText state afterBlank) := by
  unfold isAtSignText
  infer_instance

instance (indent : Nat) (margin : Option String) : Goes R (tagText? indent margin) := by
  unfold tagText?
  infer_instance

instance (h : TagHead) (earlier : List Node) (kind : Kind) : Goes R (errorIfRepeated h earlier kind) := by
  unfold errorIfRepeated
  infer_instance

instance : Goes R isLinkNext := by
  unfold isLinkNext
  infer_instance

instance : Goes R goToTag := by
  unfold goToTag
  dsimp only
  refine .seq (.loop fun found => ?_) fun found => ?_
  · refine .seq inferInstance fun k => ?_
    split <;> infer_instance
  · split <;> infer_instance

instance (start stop indent : Nat) (indentText : String) :
    Goes R (trailingText? start stop indent indentText) := by
  unfold trailingText?
  infer_instance

end ScriptFrontend
