import ScriptFrontend.Grammar.Class
import ScriptFrontend.Grammar.Statement
import ScriptFrontend.Proofs.Making.Type

/-!
# Nodes of classes and statements

Classes, statements and declarations make their nodes; those of imports and exports have the kinds that
belong to them.
-/

namespace ScriptFrontend

open Diagnostic (Fault)
open Parse

set_option synthInstance.maxSize 4096

variable {W : Type} [Course W] {lo : Nat} {w : W} [AtMost W lo (Course.offset w)]

instance : Makes lo w passConstructorName := by
  unfold passConstructorName
  infer_instance

instance (led : Lead) [AtMost W lo led.pos] [Leading w led] : Makes lo w (constructor? led) := by
  unfold constructor?
  infer_instance

instance (led : Lead) (name : Node) (question : Option Node) [AtMost W lo led.pos] [Leading w led]
    [Built led.pos w name]
    [Built led.pos w question] :
    Makes lo w (propertyDeclaration led name question) := by
  unfold propertyDeclaration
  infer_instance

instance (led : Lead) [AtMost W lo led.pos] [Leading w led] : Makes lo w (propertyOrMethod led) := by
  unfold propertyOrMethod
  infer_instance

instance (led : Lead) [AtMost W lo led.pos] [Leading w led] : Makes lo w (staticBlock led) := by
  unfold staticBlock
  infer_instance

instance : Makes lo w classMember := by
  unfold classMember
  infer_instance

instance : Makes lo w heritageElement := by
  unfold heritageElement
  infer_instance

instance : Makes lo w heritageClause := by
  unfold heritageClause
  infer_instance

instance : Makes lo w heritageClauses? := by
  unfold heritageClauses?
  infer_instance

instance : Makes lo w className? := by
  unfold className?
  infer_instance

instance : Makes lo w classBody := by
  unfold classBody
  infer_instance

instance (led : Lead) (kind : Kind) [AtMost W lo led.pos] [Leading w led] : Makes lo w (classLike led kind) := by
  unfold classLike
  infer_instance

instance (led : Lead) [AtMost W lo led.pos] [Leading w led] : Makes lo w (interfaceDeclaration led) := by
  unfold interfaceDeclaration
  infer_instance

/-! ## Statements -/

instance : Makes lo w moduleBlock := by
  unfold moduleBlock
  infer_instance

instance (led : Lead) (flags : NodeFlags) [AtMost W lo led.pos] [Leading w led] : Makes lo w
    (namespaceFromName led flags) := by
  unfold namespaceFromName
  infer_instance

instance (flags : NodeFlags) : Makes lo w (innerNamespace flags) := by
  unfold innerNamespace
  infer_instance

instance (led : Lead) [AtMost W lo led.pos] [Leading w led] : Makes lo w (ambientModule led) := by
  unfold ambientModule
  infer_instance

instance (led : Lead) [AtMost W lo led.pos] [Leading w led] : Makes lo w (moduleDeclaration led) := by
  unfold moduleDeclaration
  infer_instance

instance : Makes lo w moduleSpecifier := by
  unfold moduleSpecifier
  infer_instance

instance : Parted ExportedName := ⟨fun x => parts x.node⟩

instance (x : ExportedName) [h : Built lo w x] : Built lo w x.node := ⟨h.holds⟩

instance (node : Node) (badWord : Option (Nat × Nat)) [h : Built lo w node] :
    Built lo w (⟨node, badWord⟩ : ExportedName) :=
  ⟨h.holds⟩

instance (before : Option (Nat × Nat)) : Makes lo w (exportedName before) := by
  unfold exportedName
  infer_instance

instance : Parted SpecifierParts := ⟨fun x => parts x.propertyName ++ parts x.name⟩

instance (x : SpecifierParts) [h : Built lo w x] : Built lo w x.propertyName :=
  ⟨(List.forall_mem_append.mp h.holds).1⟩

instance (x : SpecifierParts) [h : Built lo w x] : Built lo w x.name := ⟨(List.forall_mem_append.mp h.holds).2⟩

instance (typeOnly : Bool) (propertyName : Option Node) (name : ExportedName) (mayRename : Bool)
    [h : Built lo w propertyName] [h' : Built lo w name] :
    Built lo w (⟨typeOnly, propertyName, name, mayRename⟩ : SpecifierParts) :=
  ⟨List.forall_mem_append.mpr ⟨h.holds, h'.holds⟩⟩

instance (first : ExportedName) [Built lo w first] : Makes lo w (specifierAfterType first) := by
  unfold specifierAfterType
  infer_instance

instance (name : ExportedName) [built : Built lo w name] : Makes lo w (localName name) := by
  unfold localName
  dsimp only
  have node : Built lo w name.node := inferInstance
  have := node.starts
  have := node.started
  refine .choose (fun _ => inferInstance) fun _ => ?_
  split <;> infer_instance

instance (kind : Kind) : Makes lo w (specifier kind) := by
  unfold specifier
  infer_instance

instance (kind specifierKind : Kind) : Makes lo w (specifiers kind specifierKind) := by
  unfold specifiers
  infer_instance

instance : Makes lo w externalReference := by
  unfold externalReference
  infer_instance

instance (led : Lead) (name : Node) (typeOnly : Bool) [AtMost W lo led.pos] [Leading w led]
    [Built led.pos w name] :
    Makes lo w (importEquals led name typeOnly) := by
  unfold importEquals
  infer_instance

instance : Makes lo w namespaceImport := by
  unfold namespaceImport
  infer_instance

instance (name : Option Node) (pos : Nat) (typeOnly : Bool) [AtMost W lo pos] [AtMost W pos (Course.offset w)]
    [Built pos w name] :
    Makes lo w (importClause name pos typeOnly) := by
  unfold importClause
  infer_instance

instance (name : Option Node) (pos : Nat) (typeOnly : Bool) [AtMost W lo pos] [AtMost W pos (Course.offset w)]
    [Built pos w name] :
    Makes lo w (importClause? name pos typeOnly) := by
  unfold importClause?
  infer_instance

instance : Makes lo w identifier? := by
  unfold identifier?
  infer_instance

instance (led : Lead) [AtMost W lo led.pos] [Leading w led] : Makes lo w (importDeclaration led) := by
  unfold importDeclaration
  refine .lower (i := led.pos) (.seq_still inferInstance fun _ => .seq_here fun pos => ?_) inferInstance
  refine .seq_option (i := pos.pos) inferInstance (fun _ => ?_) fun name => ?_
  all_goals
    dsimp only
    infer_instance

instance (led : Lead) [AtMost W lo led.pos] [Leading w led] : Makes lo w (namespaceExportDeclaration led) := by
  unfold namespaceExportDeclaration
  infer_instance

instance (pos : Nat)[AtMost W lo pos] [AtMost W pos (Course.offset w)]  : Makes lo w (exportAll pos) := by
  unfold exportAll
  infer_instance

instance : Makes lo w exportSome := by
  unfold exportSome
  infer_instance

instance (led : Lead) [AtMost W lo led.pos] [Leading w led] : Makes lo w (exportDeclaration led) := by
  unfold exportDeclaration
  refine .lower (i := led.pos) (.inside_form fun added => ?_) inferInstance
  refine .form_seq <| .seq_still inferInstance fun typeOnly => .form_seq <| .seq_here fun pos => .form_seq ?_
  infer_instance

instance (led : Lead) [AtMost W lo led.pos] [Leading w led] : Makes lo w (exportAssignment led) := by
  unfold exportAssignment
  infer_instance

instance (led : Lead) [AtMost W lo led.pos] [Leading w led] : Makes lo w (exportForm led) := by
  unfold exportForm
  refine .seq_still inferInstance fun k => ?_
  split <;> infer_instance

instance : Makes lo w intrinsic? := by
  unfold intrinsic?
  infer_instance

instance (led : Lead) [AtMost W lo led.pos] [Leading w led] : Makes lo w (typeAliasDeclaration led) := by
  unfold typeAliasDeclaration
  infer_instance

instance : Makes lo w enumMember := by
  unfold enumMember
  infer_instance

instance (led : Lead) [AtMost W lo led.pos] [Leading w led] : Makes lo w (enumDeclaration led) := by
  unfold enumDeclaration
  infer_instance

instance (led : Lead) [AtMost W lo led.pos] [Leading w led] : Makes lo w (missingDeclaration led) := by
  unfold missingDeclaration
  infer_instance

instance (led : Lead) [AtMost W lo led.pos] [Leading w led] : Makes lo w (declarationAfter led) := by
  unfold declarationAfter
  refine .seq_still inferInstance fun k => ?_
  split <;> infer_instance

instance : Makes lo w declaration := by
  unfold declaration
  infer_instance

instance : Makes lo w condition := by
  unfold condition
  infer_instance

instance : Makes lo w ifStatement := by
  unfold ifStatement
  infer_instance

instance : Makes lo w doStatement := by
  unfold doStatement
  infer_instance

instance : Makes lo w whileStatement := by
  unfold whileStatement
  infer_instance

instance : Makes lo w loopStart := by
  unfold loopStart
  refine .seq_still inferInstance fun k => ?_
  split <;> infer_instance

instance (led : Lead) (awaiting : Option Node) (start : Node) (isOf : Bool) [AtMost W lo led.pos] [Leading w led]
    [Built led.pos w awaiting] [Built led.pos w start] :
    Makes lo w (forEachRest led awaiting start isOf) := by
  unfold forEachRest
  infer_instance

instance (led : Lead) (start : Option Node) [AtMost W lo led.pos] [Leading w led] [Built led.pos w start] :
    Makes lo w (forRest led start) := by
  unfold forRest
  infer_instance

instance : Makes lo w forStatement := by
  unfold forStatement
  infer_instance

instance (kind word : Kind) : Makes lo w (jumpStatement kind word) := by
  unfold jumpStatement
  infer_instance

instance : Makes lo w returnStatement := by
  unfold returnStatement
  infer_instance

instance : Makes lo w thrown := by
  unfold thrown
  infer_instance

instance : Makes lo w throwStatement := by
  unfold throwStatement
  infer_instance

instance : Makes lo w emptyStatement := by
  unfold emptyStatement
  infer_instance

instance : Makes lo w debuggerStatement := by
  unfold debuggerStatement
  infer_instance

instance : Makes lo w withStatement := by
  unfold withStatement
  infer_instance

instance : Makes lo w switchClause := by
  unfold switchClause
  infer_instance

instance : Makes lo w switchBlock := by
  unfold switchBlock
  infer_instance

instance : Makes lo w switchStatement := by
  unfold switchStatement
  infer_instance

instance : Makes lo w catchClause := by
  unfold catchClause
  infer_instance

instance : Makes lo w tryStatement := by
  unfold tryStatement
  infer_instance

instance : Makes lo w expressionOrLabeledStatement := by
  unfold expressionOrLabeledStatement
  infer_instance

instance : Makes lo w anyStatement := by
  unfold anyStatement
  refine .seq_still inferInstance fun declares => .choose (fun _ => inferInstance) fun _ => ?_
  refine .seq_still inferInstance fun k => ?_
  split <;> infer_instance

instance : Makes lo w noStatement := by
  unfold noStatement
  infer_instance

instance : Makes lo w statementAtDepth := by
  unfold statementAtDepth
  infer_instance

end ScriptFrontend
