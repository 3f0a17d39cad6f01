import ScriptFrontend.Grammar.Binding
import ScriptFrontend.Grammar.Block
import ScriptFrontend.Grammar.Class
import ScriptFrontend.Proofs.Reading.Name

/-!
# Reading blocks, members and classes

Patterns and blocks begin with an opening bracket, and functions with their word; what is in them is
read behind that. Members are read behind the brace of their type or class. A list of variables begins
with its word.
-/

namespace ScriptFrontend

open Diagnostic (Fault)
open Parse

set_option synthInstance.maxSize 4096

variable {D : Discipline} {m : World D}

/-! ## Bindings -/

instance [m.Free] : Runs D m objectBindingElement := by
  unfold objectBindingElement
  infer_instance

instance [m.Free] : Runs D m arrayBindingElement := by
  unfold arrayBindingElement
  infer_instance

instance (kind : Kind) (context : ListContext) (read : Parse Node) (opening closing : Kind)
    [Holds opening.isSolid] [m.Ready opening] [r : ∀ w : Freed m, RunsOn D w.world read] :
    Runs D m (bindingPattern kind context read opening closing) := by
  unfold bindingPattern
  infer_instance

instance (privateFault : Option Fault) : Runs D m (nameOrPattern privateFault) := by
  unfold nameOrPattern
  refine .seq_token ?_
  split
  · have : m.Shows .openBracketToken := ⟨‹_›⟩
    infer_instance
  · have : m.Shows .openBraceToken := ⟨‹_›⟩
    infer_instance
  · cases privateFault <;> infer_instance
  · infer_instance

/-! ## Blocks -/

instance [m.Allows .statement] : Runs D m statement := by
  unfold statement
  infer_instance

/-- Without a brace nothing is read unless that is to be ignored. -/
instance (fault : Option Fault) : Runs D m (block false fault) := by
  unfold block
  refine @Reads.bind_lead _ _ _ _ _ fun l => .seq_peeks inferInstance fun openPos =>
    .seq_passes inferInstance (fun w => ?opened) ?missing
  · simp only [Bool.not_true, Bool.false_and, Bool.false_eq_true, if_false]
    infer_instance
  · simp only [Bool.not_false, Bool.and_self, if_true]
    infer_instance

instance (ignoreMissingBrace : Bool) (fault : Option Fault) [m.Free] :
    Runs D m (block ignoreMissingBrace fault) := by
  unfold block
  dsimp only
  infer_instance

instance (ignoreMissingBrace : Bool) (fault : Option Fault) [m.Shows .openBraceToken] :
    Runs D m (block ignoreMissingBrace fault) := by
  unfold block
  dsimp only
  infer_instance

instance (mode : SignatureMode) (fault : Option Fault) [m.Free] :
    Runs D m (functionBlock mode fault) := by
  unfold functionBlock
  infer_instance

instance (mode : SignatureMode) (fault : Option Fault) [m.Shows .openBraceToken] :
    Runs D m (functionBlock mode fault) := by
  unfold functionBlock
  infer_instance

instance : Runs D m typeMemberEnd := by
  unfold typeMemberEnd
  infer_instance

instance (mode : SignatureMode) (fault : Option Fault) [m.Free] :
    Runs D m (functionBody? mode fault) := by
  unfold functionBody?
  dsimp only
  infer_instance

/-! ## Functions with names -/

section

variable (l : Lead) [D.Leads l]

instance (asterisk : Option Node) (name : Node) (question exclamation : Option Node)
    (fault : Option Fault) [m.Free] :
    Runs D m (methodDeclaration l asterisk name question exclamation fault) := by
  unfold methodDeclaration
  infer_instance

instance (kind : Kind) (mode : SignatureMode) [m.Free] :
    Runs D m (accessorDeclaration l kind mode) := by
  unfold accessorDeclaration
  infer_instance

instance (kind : Kind) : Runs D m (contextualModifier kind) := by
  unfold contextualModifier
  infer_instance

instance (mode : SignatureMode) [m.Free] : Runs D m (accessor? l mode) := by
  unfold accessor?
  infer_instance

instance [m.Free] : Runs D m (indexSignature l) := by
  unfold indexSignature
  infer_instance

instance [m.Ready .functionKeyword] : Runs D m (functionDeclaration l) := by
  unfold functionDeclaration
  dsimp only
  infer_instance

end

/-! ## Members of types -/

instance (kind : Kind) [m.Free] : Runs D m (signatureMember kind) := by
  unfold signatureMember
  dsimp only
  infer_instance

section

variable (l : Lead) [D.Leads l]

instance [m.Free] : Runs D m (propertyOrMethodSignature l) := by
  unfold propertyOrMethodSignature
  infer_instance

end

instance [m.Free] : Runs D m typeMember := by
  unfold typeMember
  dsimp only
  infer_instance

instance : Runs D m typeMembers := by
  unfold typeMembers
  infer_instance

/-! ## Members of classes -/

instance (nameFault blankFault : Fault) (tokenIfBlank : Kind) :
    Peeks D m (errorInvalidName nameFault blankFault tokenIfBlank) := by
  unfold errorInvalidName
  infer_instance

instance (n : Node) : Peeks D m (errorMissingSemicolon n) := by
  unfold errorMissingSemicolon
  dsimp only
  refine @Peeks.bind _ _ _ _ _ _ inferInstance fun source => ?_
  split
  · infer_instance
  · split
    case h_11 => split <;> infer_instance
    all_goals infer_instance

section

variable (l : Lead) [D.Leads l]

instance : Runs D m passConstructorName := by
  unfold passConstructorName
  infer_instance

instance [m.Free] : Runs D m (constructor? l) := by
  unfold constructor?
  infer_instance

instance (name : Node) (hasType hasValue : Bool) : Runs D m (propertyEnd name hasType hasValue) := by
  unfold propertyEnd
  infer_instance

instance (name : Node) (question : Option Node) [m.Free] :
    Runs D m (propertyDeclaration l name question) := by
  unfold propertyDeclaration
  dsimp only
  infer_instance

instance [m.Free] : Runs D m (propertyOrMethod l) := by
  unfold propertyOrMethod
  infer_instance

instance : Runs D m (staticBlock l) := by
  unfold staticBlock
  infer_instance

end

instance : Peeks D m isMemberName := by
  unfold isMemberName
  infer_instance

instance [m.Free] : Runs D m classMember := by
  unfold classMember
  dsimp only
  infer_instance

/-! ## Classes -/

instance [m.Allows .leftHandSide] : Runs D m heritageElement := by
  unfold heritageElement
  infer_instance

instance [m.Free] : Runs D m heritageClause := by
  unfold heritageClause
  infer_instance

instance [m.Free] : Runs D m heritageClauses? := by
  unfold heritageClauses?
  infer_instance

instance : Runs D m className? := by
  unfold className?
  infer_instance

instance [m.Free] : Runs D m classBody := by
  unfold classBody
  infer_instance

section

variable (l : Lead) [D.Leads l]

instance (kind : Kind) [m.Ready .classKeyword] : Runs D m (classLike l kind) := by
  unfold classLike
  infer_instance

instance [m.Ready .interfaceKeyword] : Runs D m (interfaceDeclaration l) := by
  unfold interfaceDeclaration
  infer_instance

/-! ## Variables -/

instance (allowExclamation : Bool) [m.Free] : Runs D m (variableDeclaration allowExclamation) := by
  unfold variableDeclaration
  dsimp only
  infer_instance

instance : Runs D m variableWord := by
  unfold variableWord
  dsimp only
  refine .seq_token ?_
  split <;> infer_instance

instance [m.Live] : Steps D m variableWord := by
  unfold variableWord
  dsimp only
  refine ⟨.seq_token ?_⟩
  split <;> infer_instance

instance (inLoop : Bool) [m.Live] : Runs D m (variableList inLoop) := by
  unfold variableList
  dsimp only
  infer_instance

instance (inLoop : Bool) [m.Free] : Runs D m (variableList inLoop) := by
  unfold variableList
  dsimp only
  infer_instance

instance [m.Live] : Runs D m (variableStatement l) := by
  unfold variableStatement
  infer_instance

end

end ScriptFrontend
