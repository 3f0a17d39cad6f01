import ScriptFrontend.Print.Statement
import ScriptFrontend.Tree.Made

/-!
# Spelling names out

A substitution says what stands in the place of the names in a tree. Spelled out, a tree has that in
the place of each name that is a value: an operand, what is called, a tag, the base of a class. Names
that are declared, names of members and labels are no values. A shorthand member whose name is spelled
out becomes a member with a value. What a tree is made of has no text of its own then, but for the
pieces that are copied.
-/

namespace ScriptFrontend

/-- The place that a node has in the node above it. -/
inductive Position where
  | copied
  /-- A statement, a clause, a member, or what binds names. -/
  | part
  | key
  | kept
  | value
  | member
  | shorthand
  /-- The name of a tag: a value, unless it is the name of an element of the page. -/
  | tag
  | reference
  | body
  | attributes
deriving DecidableEq

namespace Position

/-- What a node is, as far as its place leaves that open. -/
def resolve (place : Position) (n : Node) : Position :=
  match place with
  | .key =>
    match n.form with
    | .wrapped _ => .part
    | _ => .kept
  | .member =>
    match n.form with
    | .property _ => .part
    | .shorthand _ _ _ => .member
    | _ => .value
  | .tag => if n.identifierText?.any Node.isIntrinsicName then .kept else .value
  | .reference => if n.kind == .externalModuleReference then .copied else .value
  | .body => if n.kind == .block then .part else .value
  | place => place

end Position

/-- The place of the items of a list of a kind. Only a list that is a value itself holds values. -/
def Position.item (place : Position) (k : Kind) : Position :=
  match place with
  | .part | .attributes => .part
  | _ =>
    match k with
    | .arrayLiteralExpression | .commaListExpression => .value
    | .objectLiteralExpression => .member
    | _ => .part

/-- The place of what a node of a kind is put around. -/
def Position.inside (place : Position) (k : Kind) : Position :=
  if k == .partiallyEmittedExpression && place != .part then .kept else .value

namespace Shape

def places (s : Shape) (place : Position) (k : Kind) : List Position :=
  match s with
  | .qualifiedName => [.value, .copied]
  | .wrapped => [place.inside k]
  | .optionalExpression => [.value]
  | .parameter => [.copied, .copied, .part, .copied, .copied, .value]
  | .property => [.part, .key, .copied, .copied, .copied, .value]
  | .functionLike =>
    [.part, .copied, .key, .copied, .copied, .copied, .part, .copied, .copied, .body]
  | .classStaticBlock => [.copied, .part]
  | .classLike => [.part, .copied, .copied, .part, .part]
  | .typeReference => [.value, .copied]
  | .list _ => [place.item k]
  | .templateLiteral => [.copied, .part]
  | .templateSpan => [.value, .copied]
  | .bindingElement => [.copied, .key, .part, .value]
  | .propertyAccess => [.value, .copied, .copied]
  | .elementAccess => [.value, .copied, .value]
  | .call => [.value, .copied, .copied, .value]
  | .taggedTemplate => [.value, .copied, .copied, .value]
  | .typeAssertion => [.copied, .value]
  | .typedExpression => [.value, .copied]
  | .unary _ => [.value]
  | .binary => [.value, .copied, .value]
  | .conditional => [.value, .copied, .value, .copied, .value]
  | .yieldLike => [.copied, .value]
  | .block _ => [.part]
  | .variableStatement => [.copied, .part]
  | .variableDeclaration => [.part, .copied, .copied, .value]
  | .ifElse => [.value, .part, .part]
  | .doLoop => [.part, .value]
  | .whileLoop => [.value, .part]
  | .forLoop => [.value, .value, .value, .part]
  | .forEach => [.copied, .value, .value, .part]
  | .withObject => [.value, .part]
  | .switch => [.value, .part]
  | .caseClause => [.value, .part]
  | .labeled => [.copied, .part]
  | .tryCatch => [.part, .part, .part]
  | .catchClause => [.part, .part]
  | .importEquals _ => [.copied, .copied, .reference]
  | .importDeclaration => [.copied, .copied, .copied, .attributes]
  | .exportAssignment _ => [.copied, .value]
  | .exportDeclaration _ => [.copied, .copied, .copied, .attributes]
  | .heritageClause _ => [.value]
  | .importAttribute => [.key, .value]
  | .shorthand => [.shorthand, .copied, .value]
  | .jsxElement => [.part, .part, .copied]
  | .jsxTag => [.tag, .copied, .part]
  | .jsxFragment => [.copied, .part, .copied]
  | .jsxAttribute => [.part, .part]
  | .jsxExpression => [.copied, .value]
  | _ => []

/-- Nodes of the shape are never printed as they were written where a value stands. -/
def isExpression (s : Shape) : Bool :=
  match s with
  | .wrapped | .functionLike | .classLike | .typeReference | .list _ | .templateLiteral
  | .propertyAccess | .elementAccess | .call | .taggedTemplate | .typeAssertion | .typedExpression
  | .unary _ | .binary | .conditional | .yieldLike | .metaProperty _ | .jsxElement | .jsxTag
  | .jsxFragment => true
  | _ => false

/-- Nodes of the shape are copied where a statement or a part of one stands. -/
def isCopied (s : Shape) : Bool :=
  match s with
  | .token | .identifier _ _ | .literal _ _ _ | .enumeration | .module => true
  | _ => false

/-- Nodes of the shape may be printed as they were written in a place. -/
def keepsText (s : Shape) (place : Position) : Bool :=
  match place with
  | .part => s.isCopied
  | .attributes => true
  | _ => !s.isExpression

end Shape

/-- The head of a node without a range, unless the text of the node may be asked for. -/
def Head.placed (h : Head) (place : Position) (s : Shape) : Head :=
  if s.keepsText place then h else { h with pos := noPos, stop := noPos }

def Node.isName (n : Node) : Bool :=
  n.kind == .identifier && n.form matches .identifier _ _

namespace Substitution

/-- A shorthand member without a default as a member with what stands for its name. -/
def spelledMember? (σ : Substitution) (n : Node) : Option Node :=
  match n.form with
  | .shorthand name _ .none =>
    if name.isName then
      (σ.expression name).map fun value =>
        Node.ofForm { n.head with kind := .propertyAssignment } (.property { name, value := some value })
    else .none
  | _ => .none

def whole? (σ : Substitution) (place : Position) (n : Node) : Option Node :=
  match place with
  | .copied => some n
  | .value => if n.isName then (σ.expression n).map Made.kept else .none
  | .member => σ.spelledMember? n
  | .shorthand => if n.isName then (σ.expression n).map (n.withOrigin <| Made.kept ·) else .none
  | _ => .none

end Substitution

namespace Node

mutual

/-- The node with what stands for the names in it. It stands for the node itself. -/
def spellOut (σ : Substitution) (place : Position) : Node → Node
  | .mk h s slots docs origin =>
    let n : Node := .mk h s slots docs origin
    let place := place.resolve n
    match σ.whole? place n with
    | some m => m
    | none => .mk (h.placed place s) s (spellOutSlots σ (s.places place h.kind) slots) docs (some n)

def spellOutSlots (σ : Substitution) : List Position → List Slot → List Slot
  | place :: places, slot :: rest => spellOutSlot σ place slot :: spellOutSlots σ places rest
  | [], slots => slots
  | _, [] => []

def spellOutSlot (σ : Substitution) (place : Position) : Slot → Slot
  | .absent => .absent
  | .node n => .node (n.spellOut σ place)
  | .list head items => .list head (spellOutItems σ place items)

def spellOutItems (σ : Substitution) (place : Position) : List Node → List Node
  | [] => []
  | n :: rest => n.spellOut σ place :: spellOutItems σ place rest

end

end Node

def Node.kept? (n : Node) : Option Node := if n.kind == .partiallyEmittedExpression then n.expression? else none

/-- What is left of a substitution for trees whose names are spelled out. It replaces no name but that of
a member with a default, by what the tree has it stand for. -/
def Substitution.rest (σ : Substitution) : Substitution where
  expression n := n.origin.bind fun m =>
    if n.isName then m.kept? else (σ.expression m).map (·.spellOut σ .value)
  statement n := n.origin.bind fun n => (σ.statement n).map (·.map (·.spellOut σ .part))

end ScriptFrontend
