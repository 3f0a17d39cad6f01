import ScriptFrontend.Proofs.Context.Expression
import ScriptFrontend.Source.File

/-!
# Productions keep the context

Each production leaves the context that it found if those that it calls do. So all of them do, however deep
calls may be nested, from every state and on every path; and so do the readings of whole texts.
-/

namespace ScriptFrontend

open Diagnostic (Fault)
open Parse

set_option synthInstance.maxSize 4096

/-! ## Statements and declarations -/

instance : KeepsContext moduleBlock := by
  unfold moduleBlock
  infer_instance

instance (l : Lead) (flags : NodeFlags) : KeepsContext (namespaceFromName l flags) := by
  unfold namespaceFromName
  infer_instance

instance (flags : NodeFlags) : KeepsContext (innerNamespace flags) := by
  unfold innerNamespace
  infer_instance

instance (l : Lead) : KeepsContext (ambientModule l) := by
  unfold ambientModule
  infer_instance

instance (l : Lead) : KeepsContext (moduleDeclaration l) := by
  unfold moduleDeclaration
  infer_instance

instance : KeepsContext moduleSpecifier := by
  unfold moduleSpecifier
  infer_instance

instance (before : Option (Nat × Nat)) : KeepsContext (exportedName before) := by
  unfold exportedName
  infer_instance

instance (first : ExportedName) : KeepsContext (specifierAfterType first) := by
  unfold specifierAfterType
  infer_instance

instance (name : ExportedName) : KeepsContext (localName name) := by
  unfold localName
  dsimp only
  refine .choose (fun _ => inferInstance) fun _ => ?_
  split <;> infer_instance

instance (kind : Kind) : KeepsContext (specifier kind) := by
  unfold specifier
  infer_instance

instance (kind specifierKind : Kind) : KeepsContext (specifiers kind specifierKind) := by
  unfold specifiers
  infer_instance

instance : KeepsContext externalReference := by
  unfold externalReference
  infer_instance

instance (l : Lead) (name : Node) (typeOnly : Bool) : KeepsContext (importEquals l name typeOnly) := by
  unfold importEquals
  infer_instance

instance : KeepsContext namespaceImport := by
  unfold namespaceImport
  infer_instance

instance (name : Option Node) (pos : Nat) (typeOnly : Bool) : KeepsContext (importClause name pos typeOnly) := by
  unfold importClause
  infer_instance

instance (name : Option Node) (pos : Nat) (typeOnly : Bool) : KeepsContext (importClause? name pos typeOnly) := by
  unfold importClause?
  infer_instance

instance : KeepsContext identifier? := by
  unfold identifier?
  infer_instance

instance (l : Lead) : KeepsContext (importDeclaration l) := by
  unfold importDeclaration
  infer_instance

instance (l : Lead) : KeepsContext (namespaceExportDeclaration l) := by
  unfold namespaceExportDeclaration
  infer_instance

instance (pos : Nat) : KeepsContext (exportAll pos) := by
  unfold exportAll
  infer_instance

instance : KeepsContext exportSome := by
  unfold exportSome
  infer_instance

instance (l : Lead) : KeepsContext (exportDeclaration l) := by
  unfold exportDeclaration
  infer_instance

instance (l : Lead) : KeepsContext (exportAssignment l) := by
  unfold exportAssignment
  infer_instance

instance (l : Lead) : KeepsContext (exportForm l) := by
  unfold exportForm
  refine .seq inferInstance fun k => ?_
  split <;> infer_instance

instance : KeepsContext objectBindingElement := by
  unfold objectBindingElement
  infer_instance

instance : KeepsContext arrayBindingElement := by
  unfold arrayBindingElement
  infer_instance

instance (kind : Kind) (context : ListContext) (read : Parse Node) (opening closing : Kind) [KeepsContext read] :
    KeepsContext (bindingPattern kind context read opening closing) := by
  unfold bindingPattern
  infer_instance

instance (privateFault : Option Fault) : KeepsContext (nameOrPattern privateFault) := by
  unfold nameOrPattern
  refine .seq inferInstance fun k => ?_
  split
  case h_3 => cases privateFault <;> infer_instance
  all_goals infer_instance

instance (allowExclamation : Bool) : KeepsContext (variableDeclaration allowExclamation) := by
  unfold variableDeclaration
  infer_instance

instance : KeepsContext variableWord := by
  unfold variableWord
  refine .seq inferInstance fun k => ?_
  dsimp only
  split <;> infer_instance

instance (inLoop : Bool) : KeepsContext (variableList inLoop) := by
  unfold variableList
  infer_instance

instance (l : Lead) : KeepsContext (variableStatement l) := by
  unfold variableStatement
  infer_instance

instance : KeepsContext intrinsic? := by
  unfold intrinsic?
  infer_instance

instance (l : Lead) : KeepsContext (typeAliasDeclaration l) := by
  unfold typeAliasDeclaration
  infer_instance

instance : KeepsContext enumMember := by
  unfold enumMember
  infer_instance

instance (l : Lead) : KeepsContext (enumDeclaration l) := by
  unfold enumDeclaration
  infer_instance

instance (l : Lead) : KeepsContext (missingDeclaration l) := by
  unfold missingDeclaration
  infer_instance

instance (l : Lead) : KeepsContext (declarationAfter l) := by
  unfold declarationAfter
  refine .seq inferInstance fun k => ?_
  split <;> infer_instance

instance : KeepsContext declaration := by
  unfold declaration
  infer_instance

instance : KeepsContext condition := by
  unfold condition
  infer_instance

instance : KeepsContext ifStatement := by
  unfold ifStatement
  infer_instance

instance : KeepsContext doStatement := by
  unfold doStatement
  infer_instance

instance : KeepsContext whileStatement := by
  unfold whileStatement
  infer_instance

instance : KeepsContext loopStart := by
  unfold loopStart
  refine .seq inferInstance fun k => ?_
  dsimp only
  split <;> infer_instance

instance (l : Lead) (awaiting : Option Node) (start : Node) (isOf : Bool) :
    KeepsContext (forEachRest l awaiting start isOf) := by
  unfold forEachRest
  infer_instance

instance (l : Lead) (start : Option Node) : KeepsContext (forRest l start) := by
  unfold forRest
  infer_instance

instance : KeepsContext forStatement := by
  unfold forStatement
  infer_instance

instance (kind word : Kind) : KeepsContext (jumpStatement kind word) := by
  unfold jumpStatement
  infer_instance

instance : KeepsContext returnStatement := by
  unfold returnStatement
  infer_instance

instance : KeepsContext thrown := by
  unfold thrown
  infer_instance

instance : KeepsContext throwStatement := by
  unfold throwStatement
  infer_instance

instance : KeepsContext emptyStatement := by
  unfold emptyStatement
  infer_instance

instance : KeepsContext debuggerStatement := by
  unfold debuggerStatement
  infer_instance

instance : KeepsContext withStatement := by
  unfold withStatement
  infer_instance

instance : KeepsContext switchClause := by
  unfold switchClause
  infer_instance

instance : KeepsContext switchBlock := by
  unfold switchBlock
  infer_instance

instance : KeepsContext switchStatement := by
  unfold switchStatement
  infer_instance

instance : KeepsContext catchClause := by
  unfold catchClause
  infer_instance

instance : KeepsContext tryStatement := by
  unfold tryStatement
  infer_instance

instance : KeepsContext expressionOrLabeledStatement := by
  unfold expressionOrLabeledStatement
  infer_instance

instance : KeepsContext anyStatement := by
  unfold anyStatement
  refine .seq inferInstance fun declares => .choose (fun _ => inferInstance) fun _ => .seq inferInstance fun k => ?_
  split <;> infer_instance

instance : KeepsContext noStatement := by
  unfold noStatement
  infer_instance

instance : KeepsContext statementAtDepth := by
  unfold statementAtDepth
  infer_instance

/-! ## Elements and documentation -/

instance : KeepsContext hyphenatedName := by
  unfold hyphenatedName
  infer_instance

instance : KeepsContext simpleTagName := by
  unfold simpleTagName
  infer_instance

instance : KeepsContext tagName := by
  unfold tagName
  infer_instance

instance (isValue : Bool) : KeepsContext (bracedExpression? isValue) := by
  unfold bracedExpression?
  infer_instance

instance : KeepsContext attributeValue? := by
  unfold attributeValue?
  refine .seq inferInstance fun equals => .choose (fun _ => ?_) fun _ => inferInstance
  refine .seq inferInstance fun _ => .seq inferInstance fun _ => .seq inferInstance fun k => ?_
  split <;> infer_instance

instance : KeepsContext tagAttribute := by
  unfold tagAttribute
  infer_instance

instance : KeepsContext tagAttributes := by
  unfold tagAttributes
  infer_instance

instance (inExpression : Bool) : KeepsContext (openingTag inExpression) := by
  unfold openingTag
  infer_instance

instance (opening : Node) (inExpression : Bool) : KeepsContext (closingTag opening inExpression) := by
  unfold closingTag
  infer_instance

instance (inExpression : Bool) : KeepsContext (closingFragment inExpression) := by
  unfold closingFragment
  infer_instance

instance : KeepsContext elementText := by
  unfold elementText
  infer_instance

instance (opening : Node) (kind : Kind) : KeepsContext (child? opening kind) := by
  unfold child?
  split <;> infer_instance

instance (opening : Node) : KeepsContext (children opening) := by
  unfold children
  infer_instance

instance (opening : Node) (inner : NodeList) : KeepsContext (withoutTakenTag opening inner) := by
  unfold withoutTakenTag
  infer_instance

instance (pos : Nat) (opening : Node) (place : ElementPlace) : KeepsContext (elementRest pos opening place) := by
  unfold elementRest
  refine .seq inferInstance fun l => ?_
  split <;> infer_instance

instance (place : ElementPlace) : KeepsContext (oneElement place) := by
  unfold oneElement
  refine .seq inferInstance fun pos => .seq inferInstance fun opening => ?_
  split <;> infer_instance

instance (place : ElementPlace) : KeepsContext (element place) := by
  unfold element
  infer_instance

instance (fault : Option Fault) : KeepsContext (docNameOr fault) := by
  unfold docNameOr
  infer_instance

instance : KeepsContext docName := by
  unfold docName
  infer_instance

instance : KeepsContext docEntityName := by
  unfold docEntityName
  infer_instance

instance : KeepsContext docDeclaredName? := by
  unfold docDeclaredName?
  infer_instance

instance (bracesOptional : Bool) : KeepsContext (docTypeExpression bracesOptional) := by
  unfold docTypeExpression
  infer_instance

instance : KeepsContext docTypeExpression? := by
  unfold docTypeExpression?
  infer_instance

instance (h : TagHead) (kind : Kind) (parts : Form.DocTag) : KeepsContext (finishTag h kind parts) := by
  unfold finishTag
  infer_instance

instance (h : TagHead) (kind : Kind) : KeepsContext (plainTag h kind) := by
  unfold plainTag
  infer_instance

instance (h : TagHead) (kind : Kind) (bracesOptional : Bool) : KeepsContext (typeTag h kind bracesOptional) := by
  unfold typeTag
  infer_instance

instance (h : TagHead) (kind : Kind) : KeepsContext (optionalTypeTag h kind) := by
  unfold optionalTypeTag
  infer_instance

instance : KeepsContext baseName := by
  unfold baseName
  infer_instance

instance (h : TagHead) (kind : Kind) : KeepsContext (heritageTag h kind) := by
  unfold heritageTag
  infer_instance

instance : KeepsContext nameReference := by
  unfold nameReference
  infer_instance

instance (h : TagHead) : KeepsContext (seeTag h) := by
  unfold seeTag
  infer_instance

instance : KeepsContext tagTypeParameter? := by
  unfold tagTypeParameter?
  infer_instance

instance (h : TagHead) : KeepsContext (templateTag h) := by
  unfold templateTag
  infer_instance

instance (targets : DocTargets) (indent : Nat) (parent : Option Node) :
    KeepsContext (docChild? targets indent parent) := by
  unfold docChild?
  infer_instance

instance (targets : DocTargets) (indent : Nat) (parent : Option Node) :
    KeepsContext (docChildren targets indent parent) := by
  unfold docChildren
  infer_instance

instance (type : Option Node) (name : Node) (targets : DocTargets) (indent : Nat) :
    KeepsContext (nestedShape? type name targets indent) := by
  unfold nestedShape?
  cases type <;> infer_instance

instance : KeepsContext bracketedName := by
  unfold bracketedName
  infer_instance

instance (start : Nat) (tagName : Node) (targets : DocTargets) (indent : Nat) :
    KeepsContext (namedTag start tagName targets indent) := by
  unfold namedTag
  infer_instance

instance (targets : DocTargets) (indent : Nat) : KeepsContext (ownTag? targets indent) := by
  unfold ownTag?
  infer_instance

instance (targets : DocTargets) (indent : Nat) (parent : Option Node) :
    KeepsContext (docChild targets indent parent) := by
  unfold docChild
  infer_instance

instance (indent : Nat) : KeepsContext (definitionTags indent) := by
  unfold definitionTags
  infer_instance

instance (start indent : Nat) (type : Option Node) : KeepsContext (definedType? start indent type) := by
  unfold definedType?
  refine .choose (fun _ => ?_) fun _ => inferInstance
  refine .seq inferInstance fun found => .choose (fun _ => inferInstance) fun _ => ?_
  dsimp only
  split <;> infer_instance

instance (h : TagHead) : KeepsContext (typedefTag h) := by
  unfold typedefTag
  infer_instance

instance (indent : Nat) : KeepsContext (returnTag? indent) := by
  unfold returnTag?
  infer_instance

instance (start indent : Nat) : KeepsContext (docSignature start indent) := by
  unfold docSignature
  infer_instance

instance (h : TagHead) : KeepsContext (callbackTag h) := by
  unfold callbackTag
  infer_instance

instance (earlier : List Node) (indent : Nat) : KeepsContext (docTag earlier indent) := by
  unfold docTag
  refine .seq inferInstance fun start => .seq inferInstance fun _ => .seq inferInstance fun name => ?_
  refine .seq inferInstance fun margin => ?_
  dsimp only
  split <;> infer_instance

instance (d : DocText) : KeepsContext (skipFirstLine d) := by
  unfold skipFirstLine
  infer_instance

instance (start stop : Nat) (first : DocText) : KeepsContext (commentText start stop first) := by
  unfold commentText
  infer_instance

instance (start stop : Nat) : KeepsContext (commentAt start stop) := by
  unfold commentAt
  infer_instance

/-! ## Nonterminals -/

instance (n : Nonterminal) : KeepsContext n.production := by
  cases n
  all_goals
    unfold Nonterminal.production
    dsimp only
    infer_instance

theorem Productions.keepContext_upTo (depth : Nat) : (upTo depth).KeepContext := by
  induction depth with
  | zero => exact fun _ _ => rfl
  | succ depth ih => exact fun n s => KeepsContext.holds (p := n.production) ih s

/-! ## Texts -/

instance (statements : NodeList) (endOfFile : Node) : KeepsContext (rootNode statements endOfFile) := by
  unfold rootNode
  infer_instance

instance : KeepsContext script := by
  unfold script
  infer_instance

instance : KeepsContext jsonValue := by
  unfold jsonValue
  refine .seq inferInstance fun k => ?_
  split <;> infer_instance

instance : KeepsContext jsonValues := by
  unfold jsonValues
  infer_instance

instance : KeepsContext json := by
  unfold json
  refine .seq inferInstance fun _ => .seq inferInstance fun pos => .seq inferInstance fun atEnd => ?_
  refine .choose (fun _ => inferInstance) fun _ => .seq inferInstance fun values => ?_
  dsimp only
  split <;> infer_instance

instance : KeepsContext wholeEntityName? := by
  unfold wholeEntityName?
  infer_instance

instance (start stop : Nat) : KeepsContext (wholeDocType start stop) := by
  unfold wholeDocType
  infer_instance

theorem Parse.run_sameContext {α : Type} (p : Parse α) [r : KeepsContext p] (s : ParserState) :
    SameContext s (p.run s).2 :=
  r.holds (Productions.keepContext_upTo _) s

/-! ## What is restored -/

/-- Wherever it begins, and however deep calls may be nested, the reading ends with the flags, the open lists,
the depth and the level that it began with. -/
def Parse.Restores {α : Type} (p : Parse α) : Prop := ∀ (depth : Nat) (s : ParserState),
  (p (.upTo depth) s).2.contextFlags = s.contextFlags ∧ (p (.upTo depth) s).2.openLists = s.openLists ∧
    (p (.upTo depth) s).2.depth = s.depth ∧ (p (.upTo depth) s).2.topLevel = s.topLevel

theorem Parse.Restores.of_keeps {α : Type} {p : Parse α} [r : KeepsContext p] : p.Restores := by
  intro depth s
  have same : (p (.upTo depth) s).2.context = s.context := r.holds (Productions.keepContext_upTo depth) s
  obtain ⟨-, -, -, flags, openLists, topLevel, nesting⟩ := ParserState.Context.mk.inj same
  exact ⟨flags, openLists, nesting, topLevel⟩

/-- Every nonterminal and the reading of every whole text restore the context, and so do the readings in them
that change it: those in other flags or on another level, lists, parameters, the bodies of functions, loops,
and documentation. -/
theorem Parse.all_restore_context :
    (∀ n, (call? n).Restores) ∧ (∀ n : Nonterminal, n.production.Restores) ∧
      (script.Restores ∧ json.Restores ∧ wholeEntityName?.Restores ∧
        ∀ start stop, (wholeDocType start stop).Restores) ∧
      (∀ flags n, (inside flags (call? n)).Restores ∧ (outside flags (call? n)).Restores) ∧
      (∀ isGenerator isAsync n, (inSignature isGenerator isAsync (call? n)).Restores) ∧
      (∀ n m, (deeper (call? n) (call? m)).Restores ∧ (beneathTop (call? m)).Restores) ∧
      (∀ n, (lookAhead (call? n)).Restores ∧ (attempt (call? n)).Restores) ∧
      (∀ context n, (listOf context (call n)).Restores) ∧
      (∀ context n allowSemicolons, (commaListOf? context (call? n) allowSemicolons).Restores) ∧
      (∀ context n opening closing, (bracketedList context (call n) opening closing).Restores) ∧
      (∀ mode guess, (parameterList? mode guess).Restores) ∧
      (∀ ignoreMissingBrace fault, (block ignoreMissingBrace fault).Restores) ∧
      (∀ mode fault, (functionBlock mode fault).Restores ∧ (functionBody? mode fault).Restores) ∧
      (∀ mode allowReturnType, (arrowBody mode allowReturnType).Restores) ∧
      (doStatement.Restores ∧ whileStatement.Restores ∧ forStatement.Restores ∧ withStatement.Restores) ∧
      ∀ hasDoc n, (withDocs hasDoc n).Restores := by
  refine ⟨fun n => .of_keeps, fun n => .of_keeps, ?texts, fun flags n => ⟨.of_keeps, .of_keeps⟩,
    fun isGenerator isAsync n => .of_keeps, fun n m => ⟨.of_keeps, .of_keeps⟩,
    fun n => ⟨.of_keeps, .of_keeps⟩, fun context n => .of_keeps, fun context n semicolons => .of_keeps,
    fun context n opening closing => .of_keeps, fun mode guess => .of_keeps,
    fun ignoreMissingBrace fault => .of_keeps, fun mode fault => ⟨.of_keeps, .of_keeps⟩,
    fun mode allowReturnType => .of_keeps, ?loops, fun hasDoc n => .of_keeps⟩
  case texts => exact ⟨.of_keeps, .of_keeps, .of_keeps, fun start stop => .of_keeps⟩
  case loops => exact ⟨.of_keeps, .of_keeps, .of_keeps, .of_keeps⟩

end ScriptFrontend
