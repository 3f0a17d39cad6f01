import ScriptFrontend.Tree.Kind
import ScriptFrontend.Tree.Flags
import ScriptFrontend.Text.Span

/-!
# The tree of a source text

A node has a head (kind, number, range, flags), a shape with the facts that are not nodes, and its
child slots in the order in which they stand in the text. A slot is empty, one node, or a list with
a range of its own. Documentation comments hang on a node beside its children, and a node made
while lowering a tree may name the node it stands for.

Everything that treats children alike goes through the slots. What a slot means is said by the form
of a node, in the next module.
-/

namespace ScriptFrontend

def noPos : Nat := 4294967295

structure Head where
  kind : Kind
  id : Nat
  pos : Nat
  stop : Nat
  flags : NodeFlags
  touched : Bool := false
deriving DecidableEq, Repr, Inhabited

/-- What tells the slots of a node apart, with the facts about it that are not nodes. -/
inductive Shape where
  /-- A token, a word that is a whole expression or type, or another leaf. -/
  | token
  /-- A name. The kind of word is kept where the name was written as a word. -/
  | identifier (text : String) (word : Option Kind)
  | literal (text : String) (raw : Option String) (flags : TokenFlags)
  | qualifiedName
  /-- One expression inside a wrapper such as parentheses. -/
  | wrapped
  | optionalExpression
  | typeParameter
  | parameter
  | property
  | functionLike
  | classStaticBlock
  | classLike
  | typePredicate
  | typeReference
  | wrappedType (after : Bool)
  | list (multiLine : Bool)
  | conditionalType
  | inferType
  | typeOperator (operator : Kind)
  | indexedAccessType
  | mappedType
  | literalType
  | namedTupleMember
  | templateLiteral
  | templateSpan
  | importType (isTypeOf : Bool)
  | bindingElement
  | propertyAccess
  | elementAccess
  | call
  | taggedTemplate
  | typeAssertion
  | typedExpression
  | unary (operator : Kind)
  | binary
  | conditional
  | yieldLike
  | metaProperty (word : Kind)
  | block (multiLine : Bool)
  | variableStatement
  | variableDeclaration
  | ifElse
  | doLoop
  | whileLoop
  | forLoop
  | forEach
  | jump
  | withObject
  | switch
  | caseClause
  | labeled
  | tryCatch
  | catchClause
  | typeAlias
  | enumeration
  | enumMember
  | module
  | named
  | importEquals (typeOnly : Bool)
  | importDeclaration
  | importClause (typeOnly : Bool)
  /-- A name that is imported or exported, under another one where that is written. -/
  | specifier (typeOnly : Bool)
  | exportAssignment (isEquals : Bool)
  | exportDeclaration (typeOnly : Bool)
  | missingDeclaration
  | heritageClause (word : Kind)
  | importAttribute
  | shorthand
  | jsxElement
  | jsxTag
  | jsxFragment
  | jsxAttribute
  | jsxExpression
  | jsxNamespacedName
  | doc (comment : Option String)
  | docTag (comment : Option String) (bracketed : Bool) (nameFirst : Bool)
  | docTypeLiteral (isArray : Bool)
  | sourceFile
  | marker
deriving DecidableEq, Repr, Inhabited

structure ListHead where
  pos : Nat
  stop : Nat
  trailingComma : Bool := false
  missing : Bool := false
  touched : Bool := false
deriving DecidableEq, Repr, Inhabited

mutual

inductive Node where
  | mk (head : Head) (shape : Shape) (slots : List Slot) (docs : List Node) (origin : Option Node)

inductive Slot where
  | absent
  | node (n : Node)
  | list (head : ListHead) (items : List Node)

end

instance : Inhabited Node := ⟨.mk default default [] [] none⟩

instance : Inhabited Slot := ⟨.absent⟩

structure NodeList where
  head : ListHead
  items : List Node
deriving Inhabited

namespace NodeList

def ofItems (items : List Node) (pos stop : Nat) : NodeList := ⟨⟨pos, stop, false, false, false⟩, items⟩

def missingAt (pos : Nat) : NodeList := ⟨⟨pos, pos, false, true, false⟩, []⟩

def pos (l : NodeList) : Nat := l.head.pos

def stop (l : NodeList) : Nat := l.head.stop

def isEmpty (l : NodeList) : Bool := l.items.isEmpty

end NodeList

namespace Slot

def ofNode (n : Node) : Slot := .node n

def ofNode? : Option Node → Slot
  | some n => .node n
  | none => .absent

def ofList (l : NodeList) : Slot := .list l.head l.items

def ofList? : Option NodeList → Slot
  | some l => .list l.head l.items
  | none => .absent

def node? : Slot → Option Node
  | .node n => some n
  | _ => none

def list? : Slot → Option NodeList
  | .list head items => some ⟨head, items⟩
  | _ => none

def nodes : Slot → List Node
  | .absent => []
  | .node n => [n]
  | .list _ items => items

end Slot

namespace Node

def head : Node → Head
  | .mk h _ _ _ _ => h

def shape : Node → Shape
  | .mk _ s _ _ _ => s

def slots : Node → List Slot
  | .mk _ _ s _ _ => s

def docs : Node → List Node
  | .mk _ _ _ d _ => d

def origin : Node → Option Node
  | .mk _ _ _ _ o => o

def kind (n : Node) : Kind := n.head.kind

def id (n : Node) : Nat := n.head.id

def pos (n : Node) : Nat := n.head.pos

def stop (n : Node) : Nat := n.head.stop

def flags (n : Node) : NodeFlags := n.head.flags

def withHead (n : Node) (h : Head) : Node :=
  match n with
  | .mk _ s slots docs origin => .mk h s slots docs origin

def withFlags (n : Node) (flags : NodeFlags) : Node := n.withHead { n.head with flags := flags }

def addFlags (n : Node) (flags : NodeFlags) : Node := n.withFlags (n.flags ||| flags)

def withRange (n : Node) (pos stop : Nat) : Node := n.withHead { n.head with pos := pos, stop := stop }

def emptyAt (pos : Nat) : Node := (default : Node).withRange pos pos

def withDocs (n : Node) (docs : List Node) : Node :=
  match n with
  | .mk h s slots _ origin => .mk h s slots docs origin

def withOrigin (n original : Node) : Node :=
  match n with
  | .mk h s slots docs _ => .mk h s slots docs (some original)

def children (n : Node) : List Node := n.slots.flatMap Slot.nodes

def range (n : Node) : Text.Range := ⟨n.pos, n.stop⟩

def contextFlags (n : Node) : NodeFlags := n.flags &&& NodeFlags.context

def isSynthesized (n : Node) : Bool := n.flags.has NodeFlags.synthesized

def isMissing (n : Node) : Bool :=
  n.pos == n.stop && !n.isSynthesized && n.kind != .endOfFileToken

end Node

end ScriptFrontend
