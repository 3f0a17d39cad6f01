import ScriptFrontend.Tree.Node

/-!
# Forms of nodes

The form of a node names its children by what they are: the operands of an operator, the clauses
of a statement. `Form.shape` and `Form.slots` lay a form out as a node keeps it, and `Node.form`
reads it back.
-/

namespace ScriptFrontend

namespace Form

structure TypeParameter where
  modifiers : Option NodeList := none
  name : Node
  bound : Option Node := none
  fallback : Option Node := none
  expression : Option Node := none

structure Parameter where
  modifiers : Option NodeList := none
  dots : Option Node := none
  name : Node
  question : Option Node := none
  type : Option Node := none
  value : Option Node := none

structure Property where
  modifiers : Option NodeList := none
  name : Node
  question : Option Node := none
  exclamation : Option Node := none
  type : Option Node := none
  value : Option Node := none

structure FunctionLike where
  modifiers : Option NodeList := none
  asterisk : Option Node := none
  name : Option Node := none
  question : Option Node := none
  exclamation : Option Node := none
  typeParameters : Option NodeList := none
  parameters : NodeList
  type : Option Node := none
  arrow : Option Node := none
  body : Option Node := none

structure ClassLike where
  modifiers : Option NodeList := none
  name : Option Node := none
  typeParameters : Option NodeList := none
  heritage : Option NodeList := none
  members : NodeList

structure ConditionalType where
  check : Node
  bound : Node
  yes : Node
  no : Node

structure MappedType where
  readonlyToken : Option Node := none
  parameter : Node
  nameType : Option Node := none
  question : Option Node := none
  type : Option Node := none
  members : Option NodeList := none

structure NamedTupleMember where
  dots : Option Node := none
  name : Node
  question : Option Node := none
  type : Node

structure ImportType where
  isTypeOf : Bool
  argument : Node
  attributes : Option Node := none
  qualifier : Option Node := none
  typeArguments : Option NodeList := none

structure BindingElement where
  dots : Option Node := none
  propertyName : Option Node := none
  name : Node
  value : Option Node := none

structure Call where
  expression : Node
  questionDot : Option Node := none
  typeArguments : Option NodeList := none
  arguments : Option NodeList := none

structure TaggedTemplate where
  tag : Node
  questionDot : Option Node := none
  typeArguments : Option NodeList := none
  template : Node

structure Conditional where
  condition : Node
  question : Node
  yes : Node
  colon : Node
  no : Node

structure VariableDeclaration where
  name : Node
  exclamation : Option Node := none
  type : Option Node := none
  value : Option Node := none

structure ForLoop where
  start : Option Node := none
  condition : Option Node := none
  update : Option Node := none
  body : Node

structure ForEach where
  awaiting : Option Node := none
  start : Node
  expression : Node
  body : Node

structure TypeAlias where
  modifiers : Option NodeList := none
  name : Node
  typeParameters : Option NodeList := none
  type : Node

structure ImportEquals where
  typeOnly : Bool
  modifiers : Option NodeList := none
  name : Node
  reference : Node

structure ImportDeclaration where
  modifiers : Option NodeList := none
  clause : Option Node := none
  source : Node
  attributes : Option Node := none

structure ExportDeclaration where
  typeOnly : Bool
  modifiers : Option NodeList := none
  clause : Option Node := none
  source : Option Node := none
  attributes : Option Node := none

structure DocTag where
  comment : Option String := none
  bracketed : Bool := false
  nameFirst : Bool := false
  tagName : Node
  type : Option Node := none
  name : Option Node := none
  typeParameters : Option NodeList := none
  base : Option Node := none

end Form

open Form

inductive Form where
  | token
  | identifier (text : String) (word : Option Kind)
  | literal (text : String) (raw : Option String) (flags : TokenFlags)
  | qualifiedName (left : Node) (right : Node)
  | wrapped (expression : Node)
  | optionalExpression (expression : Option Node)
  | typeParameter (parts : TypeParameter)
  | parameter (parts : Parameter)
  | property (parts : Property)
  | functionLike (parts : FunctionLike)
  | classStaticBlock (modifiers : Option NodeList) (body : Node)
  | classLike (parts : ClassLike)
  | typePredicate (asserts : Option Node) (parameter : Node) (type : Option Node)
  | typeReference (name : Node) (arguments : Option NodeList)
  | wrappedType (after : Bool) (type : Node)
  | list (multiLine : Bool) (elements : NodeList)
  | conditionalType (parts : ConditionalType)
  | inferType (parameter : Node)
  | typeOperator (operator : Kind) (type : Node)
  | indexedAccessType (object : Node) (index : Node)
  | mappedType (parts : MappedType)
  | literalType (literal : Node)
  | namedTupleMember (parts : NamedTupleMember)
  | templateLiteral (head : Node) (spans : NodeList)
  | templateSpan (expression : Node) (literal : Node)
  | importType (parts : ImportType)
  | bindingElement (parts : BindingElement)
  | propertyAccess (expression : Node) (questionDot : Option Node) (name : Node)
  | elementAccess (expression : Node) (questionDot : Option Node) (argument : Node)
  | call (parts : Call)
  | taggedTemplate (parts : TaggedTemplate)
  | typeAssertion (type : Node) (expression : Node)
  | typedExpression (expression : Node) (type : Node)
  | unary (operator : Kind) (operand : Node)
  | binary (left : Node) (operator : Node) (right : Node)
  | conditional (parts : Conditional)
  | yieldLike (asterisk : Option Node) (expression : Option Node)
  | metaProperty (word : Kind) (name : Node)
  | block (multiLine : Bool) (statements : NodeList)
  | variableStatement (modifiers : Option NodeList) (declarations : Node)
  | variableDeclaration (parts : VariableDeclaration)
  | ifElse (condition : Node) (yes : Node) (no : Option Node)
  | doLoop (body : Node) (condition : Node)
  | whileLoop (condition : Node) (body : Node)
  | forLoop (parts : ForLoop)
  | forEach (parts : ForEach)
  | jump (label : Option Node)
  | withObject (expression : Node) (body : Node)
  | switch (expression : Node) (cases : Node)
  | caseClause (expression : Option Node) (statements : NodeList)
  | labeled (label : Node) (statement : Node)
  | tryCatch (body : Node) (handler : Option Node) (finalizer : Option Node)
  | catchClause (binding : Option Node) (body : Node)
  | typeAlias (parts : TypeAlias)
  | enumeration (modifiers : Option NodeList) (name : Node) (members : NodeList)
  | enumMember (name : Node) (value : Option Node)
  | module (modifiers : Option NodeList) (name : Node) (body : Option Node)
  | named (name : Node)
  | importEquals (parts : ImportEquals)
  | importDeclaration (parts : ImportDeclaration)
  | importClause (typeOnly : Bool) (name : Option Node) (bindings : Option Node)
  | specifier (typeOnly : Bool) (propertyName : Option Node) (name : Node)
  | exportAssignment (isEquals : Bool) (modifiers : Option NodeList) (expression : Node)
  | exportDeclaration (parts : ExportDeclaration)
  | missingDeclaration (modifiers : Option NodeList)
  | heritageClause (word : Kind) (types : NodeList)
  | importAttribute (name : Node) (value : Node)
  | shorthand (name : Node) (equals : Option Node) (value : Option Node)
  | jsxElement (opening : Node) (children : NodeList) (closing : Node)
  | jsxTag (name : Node) (typeArguments : Option NodeList) (attributes : Node)
  | jsxFragment (opening : Node) (children : NodeList) (closing : Node)
  | jsxAttribute (name : Node) (value : Option Node)
  | jsxExpression (dots : Option Node) (expression : Option Node)
  | jsxNamespacedName (space : Node) (name : Node)
  | doc (comment : Option String) (tags : Option NodeList)
  | docTag (parts : DocTag)
  | docTypeLiteral (isArray : Bool) (tags : Option NodeList)
  | sourceFile (statements : NodeList) (endOfFile : Node)
  | marker

namespace Form

@[reducible]
def shape : Form → Shape
  | .token => .token
  | .identifier text word => .identifier text word
  | .literal text raw flags => .literal text raw flags
  | .qualifiedName _ _ => .qualifiedName
  | .wrapped _ => .wrapped
  | .optionalExpression _ => .optionalExpression
  | .typeParameter _ => .typeParameter
  | .parameter _ => .parameter
  | .property _ => .property
  | .functionLike _ => .functionLike
  | .classStaticBlock _ _ => .classStaticBlock
  | .classLike _ => .classLike
  | .typePredicate _ _ _ => .typePredicate
  | .typeReference _ _ => .typeReference
  | .wrappedType after _ => .wrappedType after
  | .list multiLine _ => .list multiLine
  | .conditionalType _ => .conditionalType
  | .inferType _ => .inferType
  | .typeOperator operator _ => .typeOperator operator
  | .indexedAccessType _ _ => .indexedAccessType
  | .mappedType _ => .mappedType
  | .literalType _ => .literalType
  | .namedTupleMember _ => .namedTupleMember
  | .templateLiteral _ _ => .templateLiteral
  | .templateSpan _ _ => .templateSpan
  | .importType p => .importType p.isTypeOf
  | .bindingElement _ => .bindingElement
  | .propertyAccess _ _ _ => .propertyAccess
  | .elementAccess _ _ _ => .elementAccess
  | .call _ => .call
  | .taggedTemplate _ => .taggedTemplate
  | .typeAssertion _ _ => .typeAssertion
  | .typedExpression _ _ => .typedExpression
  | .unary operator _ => .unary operator
  | .binary _ _ _ => .binary
  | .conditional _ => .conditional
  | .yieldLike _ _ => .yieldLike
  | .metaProperty word _ => .metaProperty word
  | .block multiLine _ => .block multiLine
  | .variableStatement _ _ => .variableStatement
  | .variableDeclaration _ => .variableDeclaration
  | .ifElse _ _ _ => .ifElse
  | .doLoop _ _ => .doLoop
  | .whileLoop _ _ => .whileLoop
  | .forLoop _ => .forLoop
  | .forEach _ => .forEach
  | .jump _ => .jump
  | .withObject _ _ => .withObject
  | .switch _ _ => .switch
  | .caseClause _ _ => .caseClause
  | .labeled _ _ => .labeled
  | .tryCatch _ _ _ => .tryCatch
  | .catchClause _ _ => .catchClause
  | .typeAlias _ => .typeAlias
  | .enumeration _ _ _ => .enumeration
  | .enumMember _ _ => .enumMember
  | .module _ _ _ => .module
  | .named _ => .named
  | .importEquals p => .importEquals p.typeOnly
  | .importDeclaration _ => .importDeclaration
  | .importClause typeOnly _ _ => .importClause typeOnly
  | .specifier typeOnly _ _ => .specifier typeOnly
  | .exportAssignment isEquals _ _ => .exportAssignment isEquals
  | .exportDeclaration p => .exportDeclaration p.typeOnly
  | .missingDeclaration _ => .missingDeclaration
  | .heritageClause word _ => .heritageClause word
  | .importAttribute _ _ => .importAttribute
  | .shorthand _ _ _ => .shorthand
  | .jsxElement _ _ _ => .jsxElement
  | .jsxTag _ _ _ => .jsxTag
  | .jsxFragment _ _ _ => .jsxFragment
  | .jsxAttribute _ _ => .jsxAttribute
  | .jsxExpression _ _ => .jsxExpression
  | .jsxNamespacedName _ _ => .jsxNamespacedName
  | .doc comment _ => .doc comment
  | .docTag p => .docTag p.comment p.bracketed p.nameFirst
  | .docTypeLiteral isArray _ => .docTypeLiteral isArray
  | .sourceFile _ _ => .sourceFile
  | .marker => .marker

@[reducible]
def slots : Form → List Slot
  | .token => []
  | .identifier _ _ => []
  | .literal _ _ _ => []
  | .qualifiedName a b => [.ofNode a, .ofNode b]
  | .wrapped a => [.ofNode a]
  | .optionalExpression a => [.ofNode? a]
  | .typeParameter p =>
    [.ofList? p.modifiers, .ofNode p.name, .ofNode? p.bound, .ofNode? p.fallback,
      .ofNode? p.expression]
  | .parameter p =>
    [.ofList? p.modifiers, .ofNode? p.dots, .ofNode p.name, .ofNode? p.question,
      .ofNode? p.type, .ofNode? p.value]
  | .property p =>
    [.ofList? p.modifiers, .ofNode p.name, .ofNode? p.question, .ofNode? p.exclamation,
      .ofNode? p.type, .ofNode? p.value]
  | .functionLike p =>
    [.ofList? p.modifiers, .ofNode? p.asterisk, .ofNode? p.name, .ofNode? p.question,
      .ofNode? p.exclamation, .ofList? p.typeParameters, .ofList p.parameters, .ofNode? p.type,
      .ofNode? p.arrow, .ofNode? p.body]
  | .classStaticBlock a b => [.ofList? a, .ofNode b]
  | .classLike p =>
    [.ofList? p.modifiers, .ofNode? p.name, .ofList? p.typeParameters, .ofList? p.heritage,
      .ofList p.members]
  | .typePredicate a b c => [.ofNode? a, .ofNode b, .ofNode? c]
  | .typeReference a b => [.ofNode a, .ofList? b]
  | .wrappedType _ a => [.ofNode a]
  | .list _ a => [.ofList a]
  | .conditionalType p => [.ofNode p.check, .ofNode p.bound, .ofNode p.yes, .ofNode p.no]
  | .inferType a => [.ofNode a]
  | .typeOperator _ a => [.ofNode a]
  | .indexedAccessType a b => [.ofNode a, .ofNode b]
  | .mappedType p =>
    [.ofNode? p.readonlyToken, .ofNode p.parameter, .ofNode? p.nameType, .ofNode? p.question,
      .ofNode? p.type, .ofList? p.members]
  | .literalType a => [.ofNode a]
  | .namedTupleMember p => [.ofNode? p.dots, .ofNode p.name, .ofNode? p.question, .ofNode p.type]
  | .templateLiteral a b => [.ofNode a, .ofList b]
  | .templateSpan a b => [.ofNode a, .ofNode b]
  | .importType p =>
    [.ofNode p.argument, .ofNode? p.attributes, .ofNode? p.qualifier, .ofList? p.typeArguments]
  | .bindingElement p =>
    [.ofNode? p.dots, .ofNode? p.propertyName, .ofNode p.name, .ofNode? p.value]
  | .propertyAccess a b c => [.ofNode a, .ofNode? b, .ofNode c]
  | .elementAccess a b c => [.ofNode a, .ofNode? b, .ofNode c]
  | .call p =>
    [.ofNode p.expression, .ofNode? p.questionDot, .ofList? p.typeArguments,
      .ofList? p.arguments]
  | .taggedTemplate p =>
    [.ofNode p.tag, .ofNode? p.questionDot, .ofList? p.typeArguments, .ofNode p.template]
  | .typeAssertion a b => [.ofNode a, .ofNode b]
  | .typedExpression a b => [.ofNode a, .ofNode b]
  | .unary _ a => [.ofNode a]
  | .binary a b c => [.ofNode a, .ofNode b, .ofNode c]
  | .conditional p =>
    [.ofNode p.condition, .ofNode p.question, .ofNode p.yes, .ofNode p.colon, .ofNode p.no]
  | .yieldLike a b => [.ofNode? a, .ofNode? b]
  | .metaProperty _ a => [.ofNode a]
  | .block _ a => [.ofList a]
  | .variableStatement a b => [.ofList? a, .ofNode b]
  | .variableDeclaration p =>
    [.ofNode p.name, .ofNode? p.exclamation, .ofNode? p.type, .ofNode? p.value]
  | .ifElse a b c => [.ofNode a, .ofNode b, .ofNode? c]
  | .doLoop a b => [.ofNode a, .ofNode b]
  | .whileLoop a b => [.ofNode a, .ofNode b]
  | .forLoop p => [.ofNode? p.start, .ofNode? p.condition, .ofNode? p.update, .ofNode p.body]
  | .forEach p => [.ofNode? p.awaiting, .ofNode p.start, .ofNode p.expression, .ofNode p.body]
  | .jump a => [.ofNode? a]
  | .withObject a b => [.ofNode a, .ofNode b]
  | .switch a b => [.ofNode a, .ofNode b]
  | .caseClause a b => [.ofNode? a, .ofList b]
  | .labeled a b => [.ofNode a, .ofNode b]
  | .tryCatch a b c => [.ofNode a, .ofNode? b, .ofNode? c]
  | .catchClause a b => [.ofNode? a, .ofNode b]
  | .typeAlias p =>
    [.ofList? p.modifiers, .ofNode p.name, .ofList? p.typeParameters, .ofNode p.type]
  | .enumeration a b c => [.ofList? a, .ofNode b, .ofList c]
  | .enumMember a b => [.ofNode a, .ofNode? b]
  | .module a b c => [.ofList? a, .ofNode b, .ofNode? c]
  | .named a => [.ofNode a]
  | .importEquals p => [.ofList? p.modifiers, .ofNode p.name, .ofNode p.reference]
  | .importDeclaration p =>
    [.ofList? p.modifiers, .ofNode? p.clause, .ofNode p.source, .ofNode? p.attributes]
  | .importClause _ a b => [.ofNode? a, .ofNode? b]
  | .specifier _ a b => [.ofNode? a, .ofNode b]
  | .exportAssignment _ a b => [.ofList? a, .ofNode b]
  | .exportDeclaration p =>
    [.ofList? p.modifiers, .ofNode? p.clause, .ofNode? p.source, .ofNode? p.attributes]
  | .missingDeclaration a => [.ofList? a]
  | .heritageClause _ a => [.ofList a]
  | .importAttribute a b => [.ofNode a, .ofNode b]
  | .shorthand a b c => [.ofNode a, .ofNode? b, .ofNode? c]
  | .jsxElement a b c => [.ofNode a, .ofList b, .ofNode c]
  | .jsxTag a b c => [.ofNode a, .ofList? b, .ofNode c]
  | .jsxFragment a b c => [.ofNode a, .ofList b, .ofNode c]
  | .jsxAttribute a b => [.ofNode a, .ofNode? b]
  | .jsxExpression a b => [.ofNode? a, .ofNode? b]
  | .jsxNamespacedName a b => [.ofNode a, .ofNode b]
  | .doc _ a => [.ofList? a]
  | .docTag p =>
    if p.nameFirst then
      [.ofNode p.tagName, .ofNode? p.name, .ofNode? p.type, .ofList? p.typeParameters, .ofNode? p.base]
    else
      [.ofNode p.tagName, .ofNode? p.type, .ofNode? p.name, .ofList? p.typeParameters, .ofNode? p.base]
  | .docTypeLiteral _ a => [.ofList? a]
  | .sourceFile a b => [.ofList a, .ofNode b]
  | .marker => []

def ofLayout (shape : Shape) (slots : List Slot) : Form :=
  match shape with
  | .token => .token
  | .identifier text word => if let [] := slots then .identifier text word else .token
  | .literal text raw flags => if let [] := slots then .literal text raw flags else .token
  | .qualifiedName => if let [.node a, .node b] := slots then .qualifiedName a b else .token
  | .wrapped => if let [.node a] := slots then .wrapped a else .token
  | .optionalExpression => if let [a] := slots then .optionalExpression a.node? else .token
  | .typeParameter =>
    if let [a, .node b, c, d, e] := slots then
      .typeParameter ⟨a.list?, b, c.node?, d.node?, e.node?⟩
    else .token
  | .parameter =>
    if let [a, b, .node c, d, e, f] := slots then
      .parameter ⟨a.list?, b.node?, c, d.node?, e.node?, f.node?⟩
    else .token
  | .property =>
    if let [a, .node b, c, d, e, f] := slots then
      .property ⟨a.list?, b, c.node?, d.node?, e.node?, f.node?⟩
    else .token
  | .functionLike =>
    if let [a, b, c, d, e, f, .list gi g, h, i, j] := slots then
      .functionLike ⟨a.list?, b.node?, c.node?, d.node?, e.node?,
        f.list?, ⟨gi, g⟩, h.node?, i.node?, j.node?⟩
    else .token
  | .classStaticBlock => if let [a, .node b] := slots then .classStaticBlock a.list? b else .token
  | .classLike =>
    if let [a, b, c, d, .list ei e] := slots then
      .classLike ⟨a.list?, b.node?, c.list?, d.list?, ⟨ei, e⟩⟩
    else .token
  | .typePredicate =>
    if let [a, .node b, c] := slots then .typePredicate a.node? b c.node? else .token
  | .typeReference => if let [.node a, b] := slots then .typeReference a b.list? else .token
  | .wrappedType after => if let [.node a] := slots then .wrappedType after a else .token
  | .list multiLine => if let [.list ai a] := slots then .list multiLine ⟨ai, a⟩ else .token
  | .conditionalType =>
    if let [.node a, .node b, .node c, .node d] := slots then
      .conditionalType ⟨a, b, c, d⟩
    else .token
  | .inferType => if let [.node a] := slots then .inferType a else .token
  | .typeOperator operator => if let [.node a] := slots then .typeOperator operator a else .token
  | .indexedAccessType => if let [.node a, .node b] := slots then .indexedAccessType a b else .token
  | .mappedType =>
    if let [a, .node b, c, d, e, f] := slots then
      .mappedType ⟨a.node?, b, c.node?, d.node?, e.node?, f.list?⟩
    else .token
  | .literalType => if let [.node a] := slots then .literalType a else .token
  | .namedTupleMember =>
    if let [a, .node b, c, .node d] := slots then
      .namedTupleMember ⟨a.node?, b, c.node?, d⟩
    else .token
  | .templateLiteral =>
    if let [.node a, .list bi b] := slots then .templateLiteral a ⟨bi, b⟩ else .token
  | .templateSpan => if let [.node a, .node b] := slots then .templateSpan a b else .token
  | .importType isTypeOf =>
    if let [.node a, b, c, d] := slots then
      .importType ⟨isTypeOf, a, b.node?, c.node?, d.list?⟩
    else .token
  | .bindingElement =>
    if let [a, b, .node c, d] := slots then
      .bindingElement ⟨a.node?, b.node?, c, d.node?⟩
    else .token
  | .propertyAccess =>
    if let [.node a, b, .node c] := slots then .propertyAccess a b.node? c else .token
  | .elementAccess =>
    if let [.node a, b, .node c] := slots then .elementAccess a b.node? c else .token
  | .call =>
    if let [.node a, b, c, d] := slots then .call ⟨a, b.node?, c.list?, d.list?⟩ else .token
  | .taggedTemplate =>
    if let [.node a, b, c, .node d] := slots then
      .taggedTemplate ⟨a, b.node?, c.list?, d⟩
    else .token
  | .typeAssertion => if let [.node a, .node b] := slots then .typeAssertion a b else .token
  | .typedExpression => if let [.node a, .node b] := slots then .typedExpression a b else .token
  | .unary operator => if let [.node a] := slots then .unary operator a else .token
  | .binary => if let [.node a, .node b, .node c] := slots then .binary a b c else .token
  | .conditional =>
    if let [.node a, .node b, .node c, .node d, .node e] := slots then
      .conditional ⟨a, b, c, d, e⟩
    else .token
  | .yieldLike => if let [a, b] := slots then .yieldLike a.node? b.node? else .token
  | .metaProperty word => if let [.node a] := slots then .metaProperty word a else .token
  | .block multiLine => if let [.list ai a] := slots then .block multiLine ⟨ai, a⟩ else .token
  | .variableStatement => if let [a, .node b] := slots then .variableStatement a.list? b else .token
  | .variableDeclaration =>
    if let [.node a, b, c, d] := slots then
      .variableDeclaration ⟨a, b.node?, c.node?, d.node?⟩
    else .token
  | .ifElse => if let [.node a, .node b, c] := slots then .ifElse a b c.node? else .token
  | .doLoop => if let [.node a, .node b] := slots then .doLoop a b else .token
  | .whileLoop => if let [.node a, .node b] := slots then .whileLoop a b else .token
  | .forLoop =>
    if let [a, b, c, .node d] := slots then .forLoop ⟨a.node?, b.node?, c.node?, d⟩ else .token
  | .forEach =>
    if let [a, .node b, .node c, .node d] := slots then .forEach ⟨a.node?, b, c, d⟩ else .token
  | .jump => if let [a] := slots then .jump a.node? else .token
  | .withObject => if let [.node a, .node b] := slots then .withObject a b else .token
  | .switch => if let [.node a, .node b] := slots then .switch a b else .token
  | .caseClause => if let [a, .list bi b] := slots then .caseClause a.node? ⟨bi, b⟩ else .token
  | .labeled => if let [.node a, .node b] := slots then .labeled a b else .token
  | .tryCatch => if let [.node a, b, c] := slots then .tryCatch a b.node? c.node? else .token
  | .catchClause => if let [a, .node b] := slots then .catchClause a.node? b else .token
  | .typeAlias =>
    if let [a, .node b, c, .node d] := slots then .typeAlias ⟨a.list?, b, c.list?, d⟩ else .token
  | .enumeration =>
    if let [a, .node b, .list ci c] := slots then .enumeration a.list? b ⟨ci, c⟩ else .token
  | .enumMember => if let [.node a, b] := slots then .enumMember a b.node? else .token
  | .module => if let [a, .node b, c] := slots then .module a.list? b c.node? else .token
  | .named => if let [.node a] := slots then .named a else .token
  | .importEquals typeOnly =>
    if let [a, .node b, .node c] := slots then .importEquals ⟨typeOnly, a.list?, b, c⟩ else .token
  | .importDeclaration =>
    if let [a, b, .node c, d] := slots then
      .importDeclaration ⟨a.list?, b.node?, c, d.node?⟩
    else .token
  | .importClause typeOnly =>
    if let [a, b] := slots then .importClause typeOnly a.node? b.node? else .token
  | .specifier typeOnly =>
    if let [a, .node b] := slots then .specifier typeOnly a.node? b else .token
  | .exportAssignment isEquals =>
    if let [a, .node b] := slots then .exportAssignment isEquals a.list? b else .token
  | .exportDeclaration typeOnly =>
    if let [a, b, c, d] := slots then
      .exportDeclaration ⟨typeOnly, a.list?, b.node?, c.node?, d.node?⟩
    else .token
  | .missingDeclaration => if let [a] := slots then .missingDeclaration a.list? else .token
  | .heritageClause word =>
    if let [.list ai a] := slots then .heritageClause word ⟨ai, a⟩ else .token
  | .importAttribute => if let [.node a, .node b] := slots then .importAttribute a b else .token
  | .shorthand => if let [.node a, b, c] := slots then .shorthand a b.node? c.node? else .token
  | .jsxElement =>
    if let [.node a, .list bi b, .node c] := slots then .jsxElement a ⟨bi, b⟩ c else .token
  | .jsxTag => if let [.node a, b, .node c] := slots then .jsxTag a b.list? c else .token
  | .jsxFragment =>
    if let [.node a, .list bi b, .node c] := slots then .jsxFragment a ⟨bi, b⟩ c else .token
  | .jsxAttribute => if let [.node a, b] := slots then .jsxAttribute a b.node? else .token
  | .jsxExpression => if let [a, b] := slots then .jsxExpression a.node? b.node? else .token
  | .jsxNamespacedName => if let [.node a, .node b] := slots then .jsxNamespacedName a b else .token
  | .doc comment => if let [a] := slots then .doc comment a.list? else .token
  | .docTag comment bracketed true =>
    if let [.node a, b, c, d, e] := slots then
      .docTag ⟨comment, bracketed, true, a, c.node?, b.node?, d.list?, e.node?⟩
    else .token
  | .docTag comment bracketed false =>
    if let [.node a, b, c, d, e] := slots then
      .docTag ⟨comment, bracketed, false, a, b.node?, c.node?, d.list?, e.node?⟩
    else .token
  | .docTypeLiteral isArray => if let [a] := slots then .docTypeLiteral isArray a.list? else .token
  | .sourceFile => if let [.list ai a, .node b] := slots then .sourceFile ⟨ai, a⟩ b else .token
  | .marker => if let [] := slots then .marker else .token

end Form

namespace Node

def form (n : Node) : Form := Form.ofLayout n.shape n.slots

def ofForm (head : Head) (form : Form) : Node := .mk head form.shape form.slots [] none

end Node

end ScriptFrontend
