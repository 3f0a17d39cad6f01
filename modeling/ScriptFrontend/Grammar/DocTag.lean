import ScriptFrontend.Grammar.DocToken
import ScriptFrontend.Tree.Query

/-!
# Documentation comments and their tags

A documentation comment is a text and then tags. A tag is an at sign and a word; the word decides
what follows: a type between braces, a name, a base class, or text alone. The tags of properties and
parameters may belong to the tag before them: an object type gets its shape from them, and a callback
its signature.
-/

namespace ScriptFrontend

namespace Node

def docInnerType (n : Node) : Node :=
  match n.form with
  | .wrappedType _ t => if n.kind == .docTypeExpression then t else n
  | _ => n

def isAnyObjectType (n : Node) : Bool :=
  match n.form with
  | .typeReference name typeArguments =>
    n.kind == .typeReference && typeArguments.isNone && name.identifierText? == some "Object"
  | _ => n.kind == .objectKeyword

/-- A type of objects, or of arrays of them, whose shape the tags that follow tell. -/
def takesShape (n : Node) : Bool :=
  match n with
  | .mk head (.wrappedType _) [.node t] _ _ => head.kind == .arrayType && t.takesShape
  | n => n.isAnyObjectType

def isSameName : Node → Node → Bool
  | .mk _ (.identifier a _) _ _ _, .mk _ (.identifier b _) _ _ _ => a == b
  | .mk _ .qualifiedName [.node a, .node b] _ _, .mk _ .qualifiedName [.node c, .node d] _ _ =>
    a.isSameName c && b.isSameName d
  | _, _ => false

/-- The tag of a parameter or a property whose name is a member of another name. -/
def isTagUnder (tag name : Node) : Bool :=
  match tag.form with
  | .docTag p =>
    match p.name.map Node.form with
    | some (.qualifiedName left _) => name.isSameName left
    | _ => false
  | _ => false

def isNamedDocTag (n : Node) : Bool := n.kind == .docParameterTag || n.kind == .docPropertyTag

def docTagType? (n : Node) : Option Node :=
  match n.form with
  | .docTag p => p.type
  | _ => none

end Node

structure TagHead where
  start : Nat
  name : Node
  indent : Nat
  /-- What stood before the first token behind the name, on the line of the token. -/
  margin : String
deriving Inhabited

namespace Parse

open Diagnostic (Fault)

/-! ## Tags with one part -/

def finishTag (h : TagHead) (kind : Kind) (parts : Form.DocTag) : Parse Node := do
  let comment ← trailingText? h.start (← nodePos) h.indent h.margin
  finishAt kind h.start (← nodePos) (.docTag { parts with comment })

def plainTag (h : TagHead) (kind : Kind) : Parse Node := finishTag h kind { tagName := h.name }

def typeTag (h : TagHead) (kind : Kind) (bracesOptional : Bool) : Parse Node := do
  let t ← docTypeExpression bracesOptional
  skipBlanks
  finishTag h kind { tagName := h.name, type := some t }

def optionalTypeTag (h : TagHead) (kind : Kind) : Parse Node := do
  finishTag h kind { tagName := h.name, type := ← docTypeExpression? }

def errorIfRepeated (h : TagHead) (earlier : List Node) (kind : Kind) : Parse Unit := do
  if earlier.any (·.kind == kind) then
    errorAt h.name.pos (← tokenStart) .repeatedTag [h.name.identifierText?.getD ""]

def baseName : Parse Node := do
  let pos ← nodePos
  let mut e ← docName
  for _ in rounds do
    unless ← optional .dotToken do break
    e ← finish .propertyAccessExpression pos (.propertyAccess e none (← docName))
  return e

def heritageTag (h : TagHead) (kind : Kind) : Parse Node := do
  let braced ← optional .openBraceToken
  let pos ← nodePos
  let name ← baseName
  modifyScanner Scanner.enterDocType
  let typeArguments ← typeArguments?
  modifyScanner Scanner.leaveDocType
  let base ← finish .expressionWithTypeArguments pos (.typeReference name typeArguments)
  if braced then require .closeBraceToken
  finishTag h kind { tagName := h.name, base := some base }

def isLinkNext : Parse Bool := do
  if (← nextDocToken) != .atToken then return false
  if !(← nextDocToken).isIdentifierOrWord then return false
  return ["link", "linkcode", "linkplain"].contains (← tokenText)

def nameReference : Parse Node := spanning .docNameReference do
  let braced ← optional .openBraceToken
  let name ← entityName false none
  if braced then requireDoc .closeBraceToken
  return .named name

/-- A tag that refers to a name; a link is a part of its text. -/
def seeTag (h : TagHead) : Parse Node := do
  let isLink ← tokenIs .openBracketToken <||> lookAhead isLinkNext
  let name ← if isLink then pure none else some <$> nameReference
  finishTag h .docSeeTag { tagName := h.name, name }

/-! ## Template tags -/

def tagTypeParameter? : Parse (Option Node) := do
  let pos ← nodePos
  let bracketed ← optionalDoc .openBracketToken
  if bracketed then skipBlanks
  let name ← docNameOr (some .bareTypeParameterExpected)
  let mut fallback := none
  if bracketed then
    skipBlanks
    require .equalsToken
    fallback := some (← inside NodeFlags.doc docType)
    require .closeBracketToken
  if name.isMissing then return none
  return some (← finish .typeParameter pos (.typeParameter { name, fallback }))

def templateTag (h : TagHead) : Parse Node := do
  let bound ←
    if ← tokenIs .openBraceToken then some <$> docTypeExpression false else pure none
  let pos ← nodePos
  let mut found : Array Node := #[]
  for _ in rounds do
    skipBlanks
    if let some p ← tagTypeParameter? then found := found.push p
    let _ ← skipBlanksAndAsterisks
    unless ← optionalDoc .commaToken do break
  let typeParameters ← listFrom found pos
  finishTag h .docTemplateTag
    { tagName := h.name, type := bound, typeParameters := some typeParameters }

/-! ## Tags that belong to the tag before them -/

def docChild? (targets : DocTargets) (indent : Nat) (parent : Option Node) : Parse (Option Node) :=
  attempt (call? (.docChild targets indent parent))

def docChildren (targets : DocTargets) (indent : Nat) (parent : Option Node) :
    Parse (Array Node) := do
  let mut children : Array Node := #[]
  for _ in rounds do
    match ← docChild? targets indent parent with
    | none => break
    | some child => children := children.push child
  return children

def nestedShape? (type : Option Node) (name : Node) (targets : DocTargets) (indent : Nat) :
    Parse (Option Node) := do
  let some type := type | return none
  let inner := type.docInnerType
  if !inner.takesShape then return none
  let pos ← nodePos
  let children := (← docChildren targets indent (some name)).filter Node.isNamedDocTag
  if children.isEmpty then return none
  let tags ← listFrom children pos
  let shape ← finish .docTypeLiteral pos (.docTypeLiteral (inner.kind == .arrayType) (some tags))
  return some (← finish .docTypeExpression pos (.wrappedType false shape))

/-- The name of a parameter or a property; in brackets it is optional and may have a default, which
is not kept. -/
def bracketedName : Parse (Node × Bool) := do
  let bracketed ← optionalDoc .openBracketToken
  if bracketed then skipBlanks
  let quoted ← optionalDoc .backtickToken
  let name ← docEntityName
  if quoted then requireDoc .backtickToken
  if bracketed then
    skipBlanks
    if (← optionalToken? .equalsToken).isSome then
      let _ ← expressionSequence
    require .closeBracketToken
  return (name, bracketed)

/-- A tag of a parameter or a property: its type and its name in either order. -/
def namedTag (start : Nat) (tagName : Node) (targets : DocTargets) (indent : Nat) : Parse Node := do
  let before ← docTypeExpression?
  let _ ← skipBlanksAndAsterisks
  let (name, bracketed) ← bracketedName
  let margin ← skipBlanksAndAsterisks
  let type ← if before.isNone then docTypeExpression? else pure before
  let comment ← trailingText? start (← nodePos) indent margin
  let shape ← nestedShape? type name targets indent
  let kind := if targets.isProperty then .docPropertyTag else .docParameterTag
  finishAt kind start (← nodePos) (.docTag
    { comment, bracketed, nameFirst := before.isNone || shape.isSome, tagName
      type := shape <|> type, name := some name })

def ownTag? (targets : DocTargets) (indent : Nat) : Parse (Option Node) := do
  let start ← tokenStart
  skipDocToken
  let tagName ← docName
  let margin ← skipBlanksAndAsterisks
  let word := tagName.identifierText?.getD ""
  let accepted :=
    if word == "prop" || word == "property" then targets.isProperty
    else if word == "arg" || word == "argument" || word == "param" then
      targets.isParameter || targets.isCallbackParameter
    else false
  if word == "type" && targets.isProperty then
    return some (← typeTag ⟨start, tagName, indent, margin⟩ .docTypeTag true)
  if accepted then return some (← namedTag start tagName targets indent)
  return none

/-- Goes on to the next at sign where a tag may begin: only blanks and one asterisk may stand before
it on its line. -/
def goToTag : Parse Bool := do
  let mut mayBegin := true
  let mut afterAsterisk := false
  for _ in rounds do
    match ← token with
    | .atToken =>
      if mayBegin then return true
      afterAsterisk := false
    | .newLineTrivia =>
      mayBegin := true
      afterAsterisk := false
    | .asteriskToken =>
      if afterAsterisk then mayBegin := false
      afterAsterisk := true
    | .identifier => mayBegin := false
    | .endOfFileToken => return false
    | _ => pure ()
    skipDocToken
  return false

/-- The next tag, if it belongs to the tag before it. Under a parameter, the tags of parameters name
its members. -/
def docChild (targets : DocTargets) (indent : Nat) (parent : Option Node) :
    Parse (Option Node) := do
  unless ← goToTag do return none
  let child ← ownTag? targets indent
  return child.filter fun c =>
    match parent with
    | some name => !c.isNamedDocTag || c.isTagUnder name
    | none => true

/-! ## Declarations in comments -/

/-- The tags that a type definition without a type of its own, or with that of any object, takes. -/
def definitionTags (indent : Nat) : Parse (Option Node × Array Node) := do
  let mut typeTag := none
  let mut properties : Array Node := #[]
  for _ in rounds do
    match ← docChild? { isProperty := true } indent none with
    | none => break
    | some child =>
      if child.kind == .docTypeTag then
        if typeTag.isSome then
          errorHere .repeatedTypeTag []
          break
        typeTag := some child
      else properties := properties.push child
  return (typeTag, properties)

def definedType? (start indent : Nat) (type : Option Node) : Parse (Option Node) := do
  unless type.all (·.docInnerType.takesShape) do return none
  let (typeTag, properties) ← definitionTags indent
  if typeTag.isNone && properties.isEmpty then return none
  let told := (typeTag.bind Node.docTagType?).filter fun t => !t.docInnerType.takesShape
  match told with
  | some t => return some t
  | none =>
    let isArray := type.any (·.docInnerType.kind == .arrayType)
    let tags ← listFrom properties ((properties[0]?.map Node.pos).getD start)
    return some (← finish .docTypeLiteral start (.docTypeLiteral isArray (some tags)))

def typedefTag (h : TagHead) : Parse Node := do
  let written ← docTypeExpression?
  let _ ← skipBlanksAndAsterisks
  let name ← docDeclaredName?
  skipBlanks
  let text ← tagText? h.indent none
  let told ← definedType? h.start h.indent written
  let type := told <|> written
  let stop ←
    if told.isSome || text.isSome then nodePos
    else pure ((name <|> type).getD h.name).stop
  let comment ←
    match text with
    | some t => pure (some t)
    | none => trailingText? h.start stop h.indent h.margin
  finishAt .docTypedefTag h.start stop (.docTag { comment, tagName := h.name, type, name })

def returnTag? (indent : Nat) : Parse (Option Node) := do
  unless ← tokenIs .atToken do return none
  return some (← call (.docTag [] indent)) |>.filter (·.kind == .docReturnTag)

def docSignature (start indent : Nat) : Parse Node := do
  let found ← docChildren { isCallbackParameter := true } indent none
  let returnTag ← attempt (returnTag? indent)
  let parameters ← listFrom found ((found[0]?.map Node.pos).getD start)
  finish .docSignature start (.functionLike { parameters, type := returnTag })

def callbackTag (h : TagHead) : Parse Node := do
  let name ← docDeclaredName?
  skipBlanks
  let text ← tagText? h.indent none
  let signature ← docSignature h.start h.indent
  let comment ←
    match text with
    | some t => pure (some t)
    | none => trailingText? h.start (← nodePos) h.indent h.margin
  let stop ← if comment.isSome then nodePos else pure signature.stop
  finishAt .docCallbackTag h.start stop
    (.docTag { comment, tagName := h.name, type := some signature, name })

/-! ## Tags and comments -/

def plainTagKind : String → Kind
  | "class" | "constructor" => .docClassTag
  | "public" => .docPublicTag
  | "private" => .docPrivateTag
  | "protected" => .docProtectedTag
  | "readonly" => .docReadonlyTag
  | "override" => .docOverrideTag
  | "deprecated" => .docDeprecatedTag
  | _ => .docTag

def docTag (earlier : List Node) (indent : Nat) : Parse Node := do
  let start ← tokenStart
  skipDocToken
  let name ← docName
  let h : TagHead := ⟨start, name, indent, ← skipBlanksAndAsterisks⟩
  match name.identifierText?.getD "" with
  | "implements" => heritageTag h .docImplementsTag
  | "augments" | "extends" => heritageTag h .docAugmentsTag
  | "this" => typeTag h .docThisTag true
  | "enum" => typeTag h .docEnumTag true
  | "satisfies" => typeTag h .docSatisfiesTag false
  | "arg" | "argument" | "param" => namedTag start name { isParameter := true } indent
  | "return" | "returns" =>
    errorIfRepeated h earlier .docReturnTag
    optionalTypeTag h .docReturnTag
  | "type" =>
    errorIfRepeated h earlier .docTypeTag
    typeTag h .docTypeTag true
  | "exception" | "throws" => optionalTypeTag h .docThrowsTag
  | "see" => seeTag h
  | "template" => templateTag h
  | "typedef" => typedefTag h
  | "callback" => callbackTag h
  | word => plainTag h (plainTagKind word)

/-- How far a comment's text is from the start of its line. -/
def commentIndent (text : String) (start : Nat) : Nat := start - Text.lineStart text start + 4

def skipFirstLine (d : DocText) : Parse DocText := do
  skipDocToken
  for _ in rounds do
    unless ← tokenIs .whitespaceTrivia do break
    skipDocToken
  if ← tokenIs .newLineTrivia then
    skipDocToken
    return { d with state := .lineStart, indent := 0 }
  return d

/-- Reads the text of the comment between two offsets, and its tags, from behind its first blanks
on. -/
def commentText (start stop : Nat) (first : DocText) : Parse Node := do
  let mut d := first
  let mut tags : Array Node := #[]
  let mut tagsPos := none
  for _ in rounds do
    let kind ← token
    if kind == .endOfFileToken then break
    let beginsTag := kind == .atToken && d.state != .inBackticks &&
      (d.state != .inText || d.endsInBlank)
    if beginsTag then
      tagsPos := tagsPos <|> some (← tokenStart)
      tags := tags.push (← call (.docTag tags.toList d.indent))
      d := { d.dropTrailingBlanks with state := .lineStart, margin := none }
    else
      d := d.step kind (← tokenText)
      skipDocToken
  noteTorn d.torn
  let tagList := do
    let pos ← tagsPos
    let last ← tags.back?
    return NodeList.ofItems tags.toList pos last.stop
  finishAt .doc start stop (.doc d.dropTrailingBlanks.finish tagList)

def commentAt (start stop : Nat) : Parse (Option Node) := do
  let text ← sourceText
  unless Text.startsAt text start "/**" do return none
  let first := start + 3
  let last := max (stop - 2) first
  noteTorn (first < last && !Text.isBoundary text last)
  modifyScanner fun s => s.restrict first last
  let d ← skipFirstLine { indent := commentIndent text start, state := .afterAsterisk }
  some <$> commentText start stop d

end Parse

end ScriptFrontend
