import ScriptFrontend.Tree.Form
import ScriptFrontend.Text.Trivia

/-!
# Questions about nodes

The parts that many kinds of nodes share, such as a name, modifiers or a body; the part of the text
that a node covers; and whether a node or one below it was read with an error. The answer to the
last question is kept in the flags of every node that was looked at.
-/

namespace ScriptFrontend

namespace Node

def identifierText? (n : Node) : Option String :=
  match n.shape with
  | .identifier text _ => some text
  | _ => none

def literalText? (n : Node) : Option String :=
  match n.shape with
  | .literal text _ _ => some text
  | _ => none

def nameText? (n : Node) : Option String := n.identifierText? <|> n.literalText?

def modifiers? (n : Node) : Option NodeList :=
  match n.form with
  | .typeParameter p => p.modifiers
  | .parameter p => p.modifiers
  | .property p => p.modifiers
  | .functionLike p => p.modifiers
  | .classStaticBlock m _ => m
  | .classLike p => p.modifiers
  | .variableStatement m _ => m
  | .typeAlias p => p.modifiers
  | .enumeration m _ _ => m
  | .module m _ _ => m
  | .importEquals p => p.modifiers
  | .importDeclaration p => p.modifiers
  | .exportAssignment _ m _ => m
  | .exportDeclaration p => p.modifiers
  | .missingDeclaration m => m
  | _ => none

def flagsOf (modifiers : List Node) : ModifierFlags :=
  modifiers.foldl (fun flags m => flags ||| ModifierFlags.ofKind m.kind) .empty

def modifierFlags (n : Node) : ModifierFlags :=
  match n.modifiers? with
  | some l => flagsOf l.items
  | none => .empty

def hasModifier (n : Node) (flags : ModifierFlags) : Bool := n.modifierFlags.meets flags

def name? (n : Node) : Option Node :=
  match n.form with
  | .typeParameter p => some p.name
  | .parameter p => some p.name
  | .property p => some p.name
  | .functionLike p => p.name
  | .classLike p => p.name
  | .bindingElement p => some p.name
  | .propertyAccess _ _ name => some name
  | .variableDeclaration p => some p.name
  | .typeAlias p => some p.name
  | .enumeration _ name _ => some name
  | .enumMember name _ => some name
  | .module _ name _ => some name
  | .named name => some name
  | .importEquals p => some p.name
  | .importClause _ name _ => name
  | .specifier _ _ name => some name
  | .shorthand name _ _ => some name
  | .jsxAttribute name _ => some name
  | .docTag p => p.name
  | _ => none

def body? (n : Node) : Option Node :=
  match n.form with
  | .functionLike p => p.body
  | .module _ _ body => body
  | .classStaticBlock _ body => some body
  | _ => none

def statements? (n : Node) : Option NodeList :=
  match n.form with
  | .block _ statements => some statements
  | .sourceFile statements _ => some statements
  | .caseClause _ statements => some statements
  | _ => none

def expression? (n : Node) : Option Node :=
  match n.form with
  | .wrapped e => some e
  | .optionalExpression e => e
  | .typedExpression e _ => some e
  | .typeAssertion _ e => some e
  | .propertyAccess e _ _ => some e
  | .elementAccess e _ _ => some e
  | .call p => some p.expression
  | .exportAssignment _ _ e => some e
  | _ => none

/-- The parsed node at the end of the chain of nodes that made nodes stand for. -/
def parsed : Node → Node
  | .mk _ _ _ _ (some origin) => origin.parsed
  | .mk h s slots docs none => .mk h s slots docs none

def fullText (n : Node) (text : String) : String := Text.slice text n.pos n.stop

def textIn (n : Node) (text : String) : String :=
  if n.isSynthesized then ""
  else Text.slice text (min (Text.skipTrivia text n.pos) n.stop) n.stop

def startIn (n : Node) (text : String) : Nat :=
  if n.isMissing || n.isSynthesized then n.pos
  else min (Text.skipTrivia text n.pos) n.stop

/-- The flags of a node once it is known whether its subtree has an error. -/
def checkedFlags (flags : NodeFlags) (hasError : Bool) : NodeFlags :=
  flags ||| NodeFlags.subtreeChecked ||| (if hasError then NodeFlags.subtreeHasError else .empty)

mutual

/-- Whether a node or one below it was read with an error, and the node with the answer kept in its
flags. The nodes below a node with an error of its own are not looked at. -/
def checkErrors : Node → Bool × Node
  | .mk h s slots docs origin =>
    if h.flags.has NodeFlags.subtreeChecked then
      (h.flags.has NodeFlags.subtreeHasError, .mk h s slots docs origin)
    else if h.flags.has NodeFlags.thisNodeHasError then
      (true, .mk { h with flags := checkedFlags h.flags true } s slots docs origin)
    else
      let r := checkSlots slots
      let flags := checkedFlags h.flags r.1
      (flags.has NodeFlags.subtreeHasError, .mk { h with flags := flags } s r.2 docs origin)

def checkSlots : List Slot → Bool × List Slot
  | [] => (false, [])
  | slot :: rest =>
    let r := checkSlot slot
    let rs := checkSlots rest
    (r.1 || rs.1, r.2 :: rs.2)

def checkSlot : Slot → Bool × Slot
  | .absent => (false, .absent)
  | .node n =>
    let r := n.checkErrors
    (r.1, .node r.2)
  | .list head items =>
    let r := checkItems items
    (r.1, .list head r.2)

def checkItems : List Node → Bool × List Node
  | [] => (false, [])
  | n :: rest =>
    let r := n.checkErrors
    if r.1 then (true, r.2 :: rest)
    else
      let rs := checkItems rest
      (rs.1, r.2 :: rs.2)

end

def containsParseError (n : Node) : Bool := n.checkErrors.1

mutual

/-- The node and all below it, in the order of the text, without documentation comments. -/
def preorder : Node → List Node
  | .mk h s slots docs origin => .mk h s slots docs origin :: preorderSlots slots

def preorderSlots : List Slot → List Node
  | [] => []
  | slot :: rest => preorderSlot slot ++ preorderSlots rest

def preorderSlot : Slot → List Node
  | .absent => []
  | .node n => n.preorder
  | .list _ items => preorderItems items

def preorderItems : List Node → List Node
  | [] => []
  | n :: rest => n.preorder ++ preorderItems rest

end

mutual

def preorderWithDocs : Node → List Node
  | .mk h s slots docs origin =>
    .mk h s slots docs origin :: (preorderWithDocsSlots slots ++ preorderWithDocsItems docs)

def preorderWithDocsSlots : List Slot → List Node
  | [] => []
  | slot :: rest => preorderWithDocsSlot slot ++ preorderWithDocsSlots rest

def preorderWithDocsSlot : Slot → List Node
  | .absent => []
  | .node n => n.preorderWithDocs
  | .list _ items => preorderWithDocsItems items

def preorderWithDocsItems : List Node → List Node
  | [] => []
  | n :: rest => n.preorderWithDocs ++ preorderWithDocsItems rest

end

end Node

end ScriptFrontend
