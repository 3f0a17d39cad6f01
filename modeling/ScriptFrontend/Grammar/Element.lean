import ScriptFrontend.Grammar.Signature

/-!
# Elements

Elements and fragments with their tags, attributes and children. The text between tags is scanned in
a mode of its own. A closing tag that belongs to an element further out is given back to it, and the
element that took it gets an empty one.
-/

namespace ScriptFrontend

namespace Node

def tagName? (n : Node) : Option Node :=
  match n.form with
  | .jsxTag name _ _ => some name
  | .named name => if n.kind == .jsxClosingElement then some name else none
  | _ => none

mutual

def sameTag : Node → Node → Bool
  | .mk h s slots _ _, .mk h' s' slots' _ _ =>
    h.kind == h'.kind &&
    match s, s' with
    | .identifier text _, .identifier text' _ => text == text'
    | .jsxNamespacedName, .jsxNamespacedName => sameTagParts slots slots'
    | .propertyAccess, .propertyAccess => sameAccess slots slots'
    | .token, .token => h.kind == .thisKeyword
    | _, _ => false

def sameTagParts : List Slot → List Slot → Bool
  | [.node a, .node b], [.node a', .node b'] => a.sameTag a' && b.sameTag b'
  | _, _ => false

def sameAccess : List Slot → List Slot → Bool
  | [.node a, _, .node b], [.node a', _, .node b'] =>
    b.identifierText? == b'.identifierText? && a.sameTag a'
  | _, _ => false

end

def sameTag? : Option Node → Option Node → Bool
  | some a, some b => a.sameTag b
  | _, _ => false

def elementNames? (n : Node) : Option (Option Node × Option Node) :=
  match n.form with
  | .jsxElement opening _ closing => some (opening.tagName?, closing.tagName?)
  | _ => none

end Node

namespace Parse

open Diagnostic (Fault)

/-! ## Tokens -/

def nextElementToken : Parse Kind := do
  modifyScanner fun s => s.scanElementContent true
  drainErrors
  token

def rescanElementToken : Parse Kind := do
  modifyScanner fun s => s.rescanElementContent true
  drainErrors
  token

def skipElementToken : Parse Unit := do let _ ← nextElementToken

/-- Moves past the end of a tag or of braces: on to the content around it, or back to tokens. -/
def leaveTag (toTokens : Bool) : Parse Unit :=
  if toTokens then skipToken else skipElementToken

/-! ## Names and attributes -/

def hyphenatedName : Parse Node := do
  let pos ← nodePos
  modifyScanner Scanner.scanElementName
  let first ← identifierName
  if ← optional .colonToken then
    modifyScanner Scanner.scanElementName
    let name ← identifierName
    finish .jsxNamespacedName pos (.jsxNamespacedName first name)
  else return first

def simpleTagName : Parse Node := do
  let pos ← nodePos
  modifyScanner Scanner.scanElementName
  let isThis ← tokenIs .thisKeyword
  let first ← identifierName
  if ← optional .colonToken then
    modifyScanner Scanner.scanElementName
    let name ← identifierName
    finish .jsxNamespacedName pos (.jsxNamespacedName first name)
  else if isThis then finish .thisKeyword pos .token
  else return first

def tagName : Parse Node := do
  let pos ← nodePos
  let mut e ← simpleTagName
  if e.kind == .jsxNamespacedName then return e
  for _ in rounds do
    unless ← optional .dotToken do break
    let name ← nameAfterDot true false
    e ← finish .propertyAccessExpression pos (.propertyAccess e none name)
  return e

def bracedExpression? (isValue : Bool) : Parse (Option Node) := do
  let pos ← nodePos
  unless ← expect .openBraceToken do return none
  let mut dots : Option Node := none
  let mut e : Option Node := none
  unless ← tokenIs .closeBraceToken do
    if !isValue then dots ← optionalToken? .dotDotDotToken
    e := some (← expressionSequence)
  if isValue then require .closeBraceToken
  else if ← expectWith .closeBraceToken none false then skipElementToken
  return some (← finish .jsxExpression pos (.jsxExpression dots e))

def attributeValue? : Parse (Option Node) := do
  unless ← tokenIs .equalsToken do return none
  modifyScanner Scanner.scanAttributeValue
  drainErrors
  match ← token with
  | .stringLiteral => some <$> literal
  | .openBraceToken => bracedExpression? true
  | .lessThanToken => some <$> call (.element { inExpression := true })
  | _ =>
    errorHere .braceOrElementExpected []
    return none

def tagAttribute : Parse Node := do
  if ← tokenIs .openBraceToken then
    spanning .jsxSpreadAttribute do
      require .openBraceToken
      require .dotDotDotToken
      let e ← expressionSequence
      require .closeBraceToken
      return .wrapped e
  else
    spanning .jsxAttribute do
      let name ← hyphenatedName
      return .jsxAttribute name (← attributeValue?)

def tagAttributes : Parse Node := spanning .jsxAttributes do
  return .list false (← listOf .jsxAttributes tagAttribute)

/-! ## Tags -/

def openingTag (inExpression : Bool) : Parse Node := do
  let pos ← nodePos
  require .lessThanToken
  if ← tokenIs .greaterThanToken then
    skipElementToken
    return ← finish .jsxOpeningFragment pos .token
  let name ← tagName
  let typeArguments ← if ← isJavaScript then pure none else typeArguments?
  let attributes ← tagAttributes
  if ← tokenIs .greaterThanToken then
    skipElementToken
    finish .jsxOpeningElement pos (.jsxTag name typeArguments attributes)
  else
    require .slashToken
    if ← expectWith .greaterThanToken none false then leaveTag inExpression
    finish .jsxSelfClosingElement pos (.jsxTag name typeArguments attributes)

/-- A closing tag. After one of another element the text goes on as tokens, for an element further
out to take up. -/
def closingTag (opening : Node) (inExpression : Bool) : Parse Node := spanning .jsxClosingElement do
  require .lessThanSlashToken
  let name ← tagName
  if ← expectWith .greaterThanToken none false then
    leaveTag (inExpression || !Node.sameTag? opening.tagName? (some name))
  return .named name

def closingFragment (inExpression : Bool) : Parse Node := spanning .jsxClosingFragment do
  require .lessThanSlashToken
  if ← expectWith .greaterThanToken (some .fragmentClosingExpected) false then leaveTag inExpression
  return .token

/-! ## Children -/

def elementText : Parse Node := do
  let pos ← nodePos
  let kind ← token
  let text ← tokenValue
  skipElementToken
  finish kind pos (.literal text none .empty)

def errorNotClosed (opening : Node) : Parse Unit := do
  if opening.kind == .jsxOpeningFragment then errorAtNode opening .fragmentNotClosed []
  else if let some name := opening.tagName? then
    errorAtNode name .elementNotClosed [name.textIn (← sourceText)]

def child? (opening : Node) (kind : Kind) : Parse (Option Node) := do
  match kind with
  | .endOfFileToken =>
    errorNotClosed opening
    return none
  | .jsxText | .jsxTextAllWhiteSpaces => some <$> elementText
  | .openBraceToken => bracedExpression? false
  | .lessThanToken => some <$> call (.element { inExpression := false, parentTag := some opening })
  | _ => return none

def tookClosingTag (opening child : Node) : Bool :=
  match child.elementNames? with
  | some (name, closing) =>
    !Node.sameTag? name closing && Node.sameTag? opening.tagName? closing
  | none => false

def children (opening : Node) : Parse NodeList := do
  let pos ← nodePos
  let items ← withOpenList .jsxChildren do
    let mut items : Array Node := #[]
    for _ in rounds do
      match ← child? opening (← rescanElementToken) with
      | none => break
      | some n =>
        items := items.push n
        if opening.kind == .jsxOpeningElement && tookClosingTag opening n then break
    return items
  listFrom items pos

/-! ## Elements -/

def withoutTakenTag (opening : Node) (inner : NodeList) : Parse Node := do
  let stop := inner.stop
  let name ← finishAt .identifier stop stop (.identifier "" none)
  let closing ← finishAt .jsxClosingElement stop stop (.named name)
  finishAt .jsxElement opening.pos stop (.jsxElement opening inner closing)

def takenTag? (opening : Node) (l : NodeList) : Option (Node × NodeList × Node) :=
  match l.items.getLast? with
  | some last =>
    match last.form with
    | .jsxElement inner innerChildren closing =>
      if tookClosingTag opening last then some (inner, innerChildren, closing) else none
    | _ => none
  | none => none

/-- Reports a closing tag that is not the one of its element: at the opening if the tag belongs to
the element around, and else at the tag. -/
def errorClosingMismatch (opening closing : Node) (parentTag : Option Node) : Parse Unit := do
  let name := opening.tagName?
  let closingName := closing.tagName?
  unless Node.sameTag? name closingName do
    let source ← sourceText
    let text := (name.map (·.textIn source)).getD ""
    let ofParent :=
      match parentTag with
      | some p => p.kind == .jsxOpeningElement && Node.sameTag? closingName p.tagName?
      | none => false
    match ofParent, name, closingName with
    | true, some n, _ => errorAtNode n .elementNotClosed [text]
    | false, _, some n => errorAtNode n .closingTagMismatch [text]
    | _, _, _ => pure ()

def elementRest (pos : Nat) (opening : Node) (place : ElementPlace) : Parse Node := do
  let l ← children opening
  match takenTag? opening l with
  | some (inner, innerChildren, closing) =>
    let repaired ← withoutTakenTag inner innerChildren
    let items := l.items.dropLast ++ [repaired]
    let l := NodeList.ofItems items l.pos innerChildren.stop
    finish .jsxElement pos (.jsxElement opening l closing)
  | none =>
    let closing ← closingTag opening place.inExpression
    errorClosingMismatch opening closing place.parentTag
    finish .jsxElement pos (.jsxElement opening l closing)

def oneElement (place : ElementPlace) : Parse Node := do
  let pos ← nodePos
  let opening ← openingTag place.inExpression
  match opening.kind with
  | .jsxOpeningElement => elementRest pos opening place
  | .jsxOpeningFragment =>
    let l ← children opening
    let closing ← closingFragment place.inExpression
    finish .jsxFragment pos (.jsxFragment opening l closing)
  | _ => return opening

/-- An element. Where a second one follows in an expression, both are joined by a missing comma and
reported. -/
def element (place : ElementPlace) : Parse Node := do
  let pos ← nodePos
  let n ← oneElement place
  unless place.inExpression && !place.isOperand && (← tokenIs .lessThanToken) do return n
  let first := place.firstOfRow.getD n.pos
  let next ← call (.element { inExpression := true, firstOfRow := some first })
  let comma ← finishAt .commaToken next.pos next.pos .token
  errorAt (Text.skipTrivia (← sourceText) first) next.stop .oneParentElement []
  finish .binaryExpression pos (.binary n comma next)

end Parse

end ScriptFrontend
