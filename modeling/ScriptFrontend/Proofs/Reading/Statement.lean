import ScriptFrontend.Grammar.Declaration
import ScriptFrontend.Grammar.Statement
import ScriptFrontend.Proofs.Reading.Type

/-!
# Reading declarations and statements

A declaration begins with its word, and what it is made of is read behind that. Most statements begin with
a word of their own. One that begins with an expression reads that where the statement began, and what
follows a label behind its colon.
-/

namespace ScriptFrontend

open Diagnostic (Fault)
open Parse

set_option synthInstance.maxSize 4096

variable {D : Discipline} {m : World D}

/-! ## Namespaces -/

instance : Runs D m moduleBlock := by
  unfold moduleBlock
  infer_instance

section

variable (l : Lead) [D.Leads l]

instance (flags : NodeFlags) : Runs D m (namespaceFromName l flags) := by
  have finished (w : World D) (name : Node) (body : Option Node) :
      Peeks D w (do
        let n ← finish .moduleDeclaration l.pos (.module l.modifiers name body)
        withDocs l.hasDoc (n.addFlags flags)) :=
    finishedHere_peeks _ _ _ (·.addFlags flags) fun n => n.addFlags_pos flags
  unfold namespaceFromName
  dsimp only
  infer_instance

instance : Runs D m (ambientModule l) := by
  have finished (w : World D) (isGlobal : Bool) (name : Node) (body : Option Node) :
      Peeks D w (do
        let n ← finish .moduleDeclaration l.pos (.module l.modifiers name body)
        withDocs l.hasDoc (if isGlobal = true then n.addFlags NodeFlags.globalAugmentation else n)) :=
    finishedHere_peeks _ _ _
      (fun n => if isGlobal = true then n.addFlags NodeFlags.globalAugmentation else n) fun n => by
        split
        · exact n.addFlags_pos _
        · rfl
  unfold ambientModule
  dsimp only
  infer_instance

instance : Runs D m (moduleDeclaration l) := by
  unfold moduleDeclaration
  infer_instance

end

instance (flags : NodeFlags) : Runs D m (innerNamespace flags) := by
  unfold innerNamespace
  infer_instance

/-! ## Names of modules and of what they export -/

instance [m.Allows (.assignment true)] : Runs D m moduleSpecifier := by
  unfold moduleSpecifier
  infer_instance

instance (before : Option (Nat × Nat)) : Runs D m (exportedName before) := by
  unfold exportedName
  infer_instance

instance (first : ExportedName) : Runs D m (specifierAfterType first) := by
  unfold specifierAfterType
  infer_instance

instance (name : ExportedName) : Peeks D m (localName name) := by
  unfold localName
  dsimp only
  split
  · infer_instance
  · split <;> infer_instance

instance (kind : Kind) : Runs D m (specifier kind) := by
  unfold specifier
  dsimp only
  infer_instance

instance (kind specifierKind : Kind) : Runs D m (specifiers kind specifierKind) := by
  unfold specifiers
  infer_instance

/-! ## Imports -/

section

variable (l : Lead) [D.Leads l]

instance [m.Ready .requireKeyword] : Runs D m externalReference := by
  unfold externalReference
  infer_instance

instance (name : Node) (typeOnly : Bool) [m.Free] : Runs D m (importEquals l name typeOnly) := by
  unfold importEquals
  infer_instance

instance : Runs D m namespaceImport := by
  unfold namespaceImport
  infer_instance

instance (name : Option Node) (pos : Nat) (typeOnly : Bool) :
    Runs D m (importClause name pos typeOnly) := by
  unfold importClause
  infer_instance

instance (name : Option Node) (pos : Nat) (typeOnly : Bool) :
    Runs D m (importClause? name pos typeOnly) := by
  unfold importClause?
  infer_instance

instance : Peeks D m isTypeImport := by
  unfold isTypeImport
  dsimp only
  infer_instance

instance : Runs D m identifier? := by
  unfold identifier?
  infer_instance

instance [m.Ready .importKeyword] : Runs D m (importDeclaration l) := by
  unfold importDeclaration
  dsimp only
  infer_instance

/-! ## Exports -/

instance : Runs D m (namespaceExportDeclaration l) := by
  unfold namespaceExportDeclaration
  infer_instance

instance (pos : Nat) [m.Free] : Runs D m (exportAll pos) := by
  unfold exportAll
  dsimp only
  infer_instance

instance [m.Free] : Runs D m exportSome := by
  unfold exportSome
  infer_instance

instance [m.Free] : Runs D m (exportDeclaration l) := by
  unfold exportDeclaration
  infer_instance

instance [m.Free] : Runs D m (exportAssignment l) := by
  unfold exportAssignment
  infer_instance

instance [m.Live] : Runs D m (exportForm l) := by
  unfold exportForm
  refine @Reads.bind_skips _ _ _ _ _ _ inferInstance fun w => ?_
  split <;> infer_instance

/-! ## Declarations -/

instance : Runs D m intrinsic? := by
  unfold intrinsic?
  infer_instance

instance [m.Ready .typeKeyword] : Runs D m (typeAliasDeclaration l) := by
  unfold typeAliasDeclaration
  dsimp only
  infer_instance

instance [m.Free] : Runs D m enumMember := by
  unfold enumMember
  infer_instance

instance : Runs D m (enumDeclaration l) := by
  unfold enumDeclaration
  infer_instance

instance : Peeks D m (missingDeclaration l) := by
  have finished (stop : Nat) : Peeks D m
      (finishAt .missingDeclaration l.pos stop (.missingDeclaration l.modifiers) >>= fun n =>
        withDocs l.hasDoc n) :=
    finishedLed_peeks _ _ _ _ id fun _ => rfl
  unfold missingDeclaration
  infer_instance

instance : Runs D m (declarationAfter l) := by
  unfold declarationAfter
  refine .seq_token ?_
  split
  all_goals first
    | infer_instance
    | have : m.Live := .of_token ‹_›
      infer_instance
    | have : m.Shows _ := ⟨‹m.token = _›⟩
      infer_instance

instance : Runs D m declaration := by
  unfold declaration
  dsimp only
  infer_instance

end

/-! ## Conditions and loops -/

instance [m.Free] : Runs D m condition := by
  unfold condition
  infer_instance

instance [m.Ready .ifKeyword] : Runs D m ifStatement := by
  unfold ifStatement
  dsimp only
  infer_instance

instance [m.Ready .doKeyword] : Runs D m doStatement := by
  unfold doStatement
  infer_instance

instance [m.Ready .whileKeyword] : Runs D m whileStatement := by
  unfold whileStatement
  infer_instance

instance [m.Free] : Runs D m loopStart := by
  unfold loopStart
  dsimp only
  refine .seq_token ?_
  split <;> infer_instance

section

variable (l : Lead) [D.Leads l]

instance (awaiting : Option Node) (start : Node) (isOf : Bool) [m.Free] :
    Runs D m (forEachRest l awaiting start isOf) := by
  unfold forEachRest
  dsimp only
  infer_instance

instance (start : Option Node) [m.Free] : Runs D m (forRest l start) := by
  unfold forRest
  dsimp only
  infer_instance

end

instance [m.Ready .forKeyword] : Runs D m forStatement := by
  unfold forStatement
  dsimp only
  infer_instance

/-! ## Leaving a statement -/

instance (kind word : Kind) : Runs D m (jumpStatement kind word) := by
  unfold jumpStatement
  dsimp only
  infer_instance

instance [m.Ready .returnKeyword] : Runs D m returnStatement := by
  unfold returnStatement
  dsimp only
  infer_instance

instance [m.Free] : Runs D m thrown := by
  unfold thrown
  infer_instance

instance [m.Ready .throwKeyword] : Runs D m throwStatement := by
  unfold throwStatement
  infer_instance

/-! ## Other statements -/

instance : Runs D m emptyStatement := by
  unfold emptyStatement
  infer_instance

instance : Runs D m debuggerStatement := by
  unfold debuggerStatement
  infer_instance

instance [m.Ready .withKeyword] : Runs D m withStatement := by
  unfold withStatement
  infer_instance

instance [m.Free] : Runs D m switchClause := by
  unfold switchClause
  dsimp only
  infer_instance

instance [m.Free] : Runs D m switchBlock := by
  unfold switchBlock
  infer_instance

instance [m.Ready .switchKeyword] : Runs D m switchStatement := by
  unfold switchStatement
  infer_instance

instance : Runs D m catchClause := by
  unfold catchClause
  dsimp only
  infer_instance

instance : Runs D m tryStatement := by
  unfold tryStatement
  dsimp only
  infer_instance

instance [m.Allows (.assignment true)] : Runs D m expressionOrLabeledStatement := by
  unfold expressionOrLabeledStatement
  infer_instance

theorem Parse.startsVariables_reads :
    Reads D (fun w x => w = m ∧ (x = true → m.Live)) m startsVariables := by
  have test (p : Parse Bool) [h : Peeks D m p] (alive : m.Live) :
      Reads D (fun w x => w = m ∧ (x = true → m.Live)) m p :=
    h.reads fun _ _ _ => alive
  unfold startsVariables
  refine .seq_token ?_
  split
  case h_5 => exact ⟨fun _ => .pure ⟨rfl, fun starts => Bool.noConfusion starts⟩⟩
  all_goals exact test _ (.of_token ‹_›)

instance [m.Allows (.assignment true)] : Runs D m anyStatement := by
  unfold anyStatement
  refine .seq startsVariables_reads fun w starts ⟨same, live⟩ => ?_
  rw [same]
  refine .choose (fun declares => ?_) fun _ => .seq_token ?_
  · have : m.Live := live declares
    infer_instance
  split
  all_goals first
    | infer_instance
    | have : m.Shows _ := ⟨‹m.token = _›⟩
      infer_instance

instance : Peeks D m noStatement := by
  unfold noStatement
  infer_instance

instance [m.Allows (.assignment true)] : Runs D m statementAtDepth := by
  unfold statementAtDepth
  infer_instance

end ScriptFrontend
