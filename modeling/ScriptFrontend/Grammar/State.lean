import ScriptFrontend.Diagnostic.Collection
import ScriptFrontend.Grammar.Nonterminal
import ScriptFrontend.Token.Scanner
import ScriptFrontend.Tree.Cursor

/-!
# The state of reading a text

Reading a text is a computation over a state: a scanner, the context that nodes are made in, the
lists that are open, and what was reported. A production calls another one that may call it back by
the name of its nonterminal; what stands behind the names is given from outside, so that productions
are plain definitions. A speculative reading puts back what the scanner stood on, the diagnostics and
the counts of reuse; numbers of nodes are never given twice.

A loop has to move on in each of its rounds, and productions cannot call each other without end. A
reading that does so nevertheless is cut short, and the state says that it stalled. The state also
says whether a character was cut through; a speculative reading does not take that back.
-/

namespace ScriptFrontend

open Diagnostic (Fault)
open Text (Span)

/-- How many list elements were taken over from an old tree, and how many were read. -/
structure ReuseCounts where
  incremental : Bool := false
  reused : Nat := 0
  reparsed : Nat := 0
deriving DecidableEq, Repr, Inhabited

structure ParserState where
  scanner : Scanner
  fileName : String
  target : ScriptTarget
  scriptKind : ScriptKind
  contextFlags : NodeFlags
  openLists : List ListContext
  /-- An error was reported; the next node that is finished takes it. -/
  errorPending : Bool
  diagnostics : Diagnostic.Collection
  docDiagnostics : List Diagnostic
  nextId : Nat
  nodeCount : Nat
  identifierCount : Nat
  /-- The names seen, with repetitions, last first. -/
  identifiers : List String
  cursor : Option ElementCursor
  counts : ReuseCounts
  /-- Offsets where a parenthesis is known not to open an arrow function. -/
  notArrows : List Nat
  fileFlags : NodeFlags
  topLevel : Bool
  /-- How deep expressions and statements are nested. -/
  depth : Nat
  /-- The reading was cut short, because it did not move on. -/
  stalled : Bool
  /-- A part of the text was asked for that begins or ends inside of a character. Nothing that was
  read is an answer then. -/
  torn : Bool
deriving Inhabited

structure Productions where
  read : Nonterminal → StateM ParserState (Option Node)

/-- A computation that reads a part of a text. -/
abbrev Parse := ReaderT Productions (StateM ParserState)

namespace ParserState

def initial (fileName text : String) (target : ScriptTarget) (kind : ScriptKind)
    (cursor : Option ElementCursor) (firstId : Nat) : ParserState where
  scanner := { Scanner.ofText text with target := target, variant := kind.variant }
  fileName := fileName
  target := target
  scriptKind := kind
  contextFlags :=
    match kind with
    | .js | .jsx => NodeFlags.javaScriptFile
    | .json => NodeFlags.javaScriptFile ||| NodeFlags.jsonFile
    | _ => .empty
  openLists := []
  errorPending := false
  diagnostics := .empty
  docDiagnostics := []
  nextId := firstId
  nodeCount := 0
  identifierCount := 0
  identifiers := []
  cursor := cursor
  counts := { incremental := cursor.isSome }
  notArrows := []
  fileFlags := .empty
  topLevel := true
  depth := 0
  stalled := false
  torn := false

def text (s : ParserState) : String := s.scanner.text

end ParserState

namespace Parse

def call? (n : Nonterminal) : Parse (Option Node) := fun g s => g.read n s

def stall : Parse Unit := modify fun s => { s with stalled := true }

/-- Notes whether a part of the text was asked for that no characters make up. -/
def noteTorn (torn : Bool) : Parse Unit := modify fun s => { s with torn := s.torn || torn }

/-! ## Tokens -/

def token : Parse Kind := do return (← get).scanner.token

def tokenIs (k : Kind) : Parse Bool := do return (← token) == k

def tokenIn (ks : List Kind) : Parse Bool := do return ks.contains (← token)

def nodePos : Parse Nat := do return (← get).scanner.fullStart

/-- Reads a nonterminal that is always there. Where the reading was cut short an empty node stands. -/
def call (n : Nonterminal) : Parse Node := do
  let found ← call? n
  return found.getD (.emptyAt (← nodePos))

/-! ## Loops -/

inductive Rounds where
  | rounds

export Rounds (rounds)

/-- Runs the body of a loop until it ends. Each round has to move on to another token. -/
def Rounds.run {β : Type} (body : β → Parse (ForInStep β)) : Nat → β → Parse β
  | 0, b => do
    stall
    return b
  | left + 1, b => do
    let start ← nodePos
    match ← body b with
    | .done b => return b
    | .yield b =>
      if (← nodePos) ≤ start then
        stall
        return b
      run body left b

instance : ForIn Parse Rounds Unit where
  forIn _ b body := do
    -- As many rounds as there are places in the text to begin one at.
    Rounds.run (body ()) ((← get).scanner.text.utf8ByteSize + 2) b

/-! ## The current token -/

def tokenStart : Parse Nat := do return (← get).scanner.tokenStart

def tokenEnd : Parse Nat := do return (← get).scanner.pos

def tokenValue : Parse String := do return (← get).scanner.value

def tokenText : Parse String := do return (← get).scanner.tokenText

def tokenFlags : Parse TokenFlags := do return (← get).scanner.flags

def afterLineBreak : Parse Bool := do
  return (← get).scanner.hasFlag TokenFlags.precedingLineBreak

def isElementVariant : Parse Bool := do return (← get).scriptKind.variant == .jsx

def diagnosticCount : Parse Nat := do return (← get).diagnostics.size

def sourceText : Parse String := do return (← get).text

def modifyScanner (f : Scanner → Scanner) : Parse Unit :=
  modify fun s => { s with scanner := f s.scanner }

/-! ## Diagnostics -/

/-- Reports a fault unless another one starts at the same offset. -/
def errorAtSpan (start length : Nat) (fault : Fault) (args : List String) : Parse Unit :=
  modify fun s =>
    let d := Diagnostic.located s.fileName ⟨start, length⟩ fault.message args
    { s with diagnostics := (s.diagnostics.addUniqueStart d).2, errorPending := true }

def errorAt (start stop : Nat) (fault : Fault) (args : List String) : Parse Unit :=
  errorAtSpan start (stop - start) fault args

def errorHere (fault : Fault) (args : List String) : Parse Unit := do
  errorAt (← tokenStart) (← tokenEnd) fault args

def errorAtNode (n : Node) (fault : Fault) (args : List String) : Parse Unit := do
  errorAt (n.startIn (← sourceText)) n.stop fault args

def drainErrors : Parse Unit := do
  let errors := (← get).scanner.errors.toList
  unless errors.isEmpty do
    modifyScanner Scanner.forgetErrors
    for e in errors do
      errorAtSpan e.pos e.length e.fault e.arg.toList

/-! ## Moving on -/

def nextTokenUnchecked : Parse Kind := do
  modifyScanner Scanner.scan
  drainErrors
  token

/-- Moves on to the next token. A word with a meaning of its own must be written without escapes. -/
def nextToken : Parse Kind := do
  let s := (← get).scanner
  if s.token.isWord && s.flags.meets (TokenFlags.unicodeEscape ||| TokenFlags.extendedUnicodeEscape) then
    errorAt s.tokenStart s.pos .escapedKeyword []
  nextTokenUnchecked

def skipToken : Parse Unit := do let _ ← nextToken

def nextDocToken : Parse Kind := do
  modifyScanner Scanner.scanDoc
  drainErrors
  token

def rescanGreater : Parse Kind := do
  modifyScanner Scanner.rescanGreater
  token

def rescanLess : Parse Kind := do
  modifyScanner Scanner.rescanLess
  token

def rescanSlash : Parse Kind := do
  modifyScanner Scanner.rescanSlash
  drainErrors
  token

def rescanTemplate (isTagged : Bool) : Parse Kind := do
  modifyScanner fun s => s.rescanTemplate !isTagged
  drainErrors
  token

/-! ## Speculation -/

/-- What a speculative reading puts back. -/
structure Saved where
  scanner : TokenState × Nat
  diagnosticCount : Nat
  errorPending : Bool
  counts : ReuseCounts

def save : Parse Saved := do
  let s ← get
  return ⟨s.scanner.save, s.diagnostics.size, s.errorPending, s.counts⟩

def restore (saved : Saved) : Parse Unit :=
  modify fun s => { s with
    scanner := s.scanner.restore saved.scanner
    diagnostics := s.diagnostics.truncate saved.diagnosticCount
    errorPending := saved.errorPending
    counts := saved.counts }

/-- Runs a reading and puts back what it read and reported. -/
def lookAhead {α : Type} (p : Parse α) : Parse α := do
  let saved ← save
  let result ← p
  restore saved
  return result

/-- Runs a reading, and puts back what it read and reported if it has no result. -/
def attempt {α : Type} (p : Parse (Option α)) : Parse (Option α) := do
  let saved ← save
  let result ← p
  if result.isNone then restore saved
  return result

/-- Runs a test, and puts back what it read and reported if it fails. -/
def attemptTest (p : Parse Bool) : Parse Bool := do
  return (← attempt do return if ← p then some () else none).isSome

def nextTokenIs (k : Kind) : Parse Bool := do return (← nextToken) == k

/-! ## Context -/

def inContext (flags : NodeFlags) : Parse Bool := do return (← get).contextFlags.meets flags

def setContext (on : Bool) (flags : NodeFlags) : Parse Unit :=
  modify fun s => { s with contextFlags := s.contextFlags.set flags on }

/-- Runs a reading with flags put into the context, and takes out those that were not there. -/
def inside {α : Type} (flags : NodeFlags) (p : Parse α) : Parse α := do
  let added := flags.without (← get).contextFlags
  setContext true added
  let result ← p
  setContext false added
  return result

/-- Runs a reading with flags taken out of the context, and puts back those that were there. -/
def outside {α : Type} (flags : NodeFlags) (p : Parse α) : Parse α := do
  let removed := flags &&& (← get).contextFlags
  setContext false removed
  let result ← p
  setContext true removed
  return result

abbrev allowIn {α : Type} (p : Parse α) : Parse α := outside NodeFlags.disallowIn p

abbrev disallowIn {α : Type} (p : Parse α) : Parse α := inside NodeFlags.disallowIn p

abbrev allowConditionalTypes {α : Type} (p : Parse α) : Parse α :=
  outside NodeFlags.disallowConditionalTypes p

abbrev disallowConditionalTypes {α : Type} (p : Parse α) : Parse α :=
  inside NodeFlags.disallowConditionalTypes p

abbrev outsideYieldAndAwait {α : Type} (p : Parse α) : Parse α := outside NodeFlags.outsideTypes p

abbrev inYieldAndAwait {α : Type} (p : Parse α) : Parse α := inside NodeFlags.outsideTypes p

/-- Runs a reading in the context of a function that is a generator or not, asynchronous or not. -/
def inSignature {α : Type} (isGenerator isAsync : Bool) (p : Parse α) : Parse α := do
  let hadYield ← inContext NodeFlags.yieldContext
  let hadAwait ← inContext NodeFlags.awaitContext
  setContext isGenerator NodeFlags.yieldContext
  setContext isAsync NodeFlags.awaitContext
  let result ← p
  setContext hadYield NodeFlags.yieldContext
  setContext hadAwait NodeFlags.awaitContext
  return result

def isJavaScript : Parse Bool := inContext NodeFlags.javaScriptFile

/-! ## Making nodes -/

/-- Finishes a node; an error that was reported since the last one is its own. -/
def finishAt (kind : Kind) (pos stop : Nat) (form : Form) : Parse Node := do
  let s ← get
  let flags :=
    if s.errorPending then s.contextFlags ||| NodeFlags.thisNodeHasError else s.contextFlags
  set { s with errorPending := false, nodeCount := s.nodeCount + 1, nextId := s.nextId + 1 }
  return Node.ofForm ⟨kind, s.nextId, pos, stop, flags, false⟩ form

/-- Finishes a node that ends where the trivia of the current token begins. -/
def finish (kind : Kind) (pos : Nat) (form : Form) : Parse Node := do
  finishAt kind pos (← nodePos) form

def listFrom (items : Array Node) (pos : Nat) : Parse NodeList := do
  return .ofItems items.toList pos (← nodePos)

def missingList : Parse NodeList := do return .missingAt (← nodePos)

def missingForm (kind : Kind) : Form :=
  if kind == .identifier || kind == .privateIdentifier then .identifier "" none
  else if kind.isLiteral || kind.isTemplatePiece then .literal "" none .empty
  else .token

def missingNode (kind : Kind) (atNodePos : Bool) (fault : Fault) (args : List String) :
    Parse Node := do
  if atNodePos then errorAtSpan (← nodePos) 0 fault args else errorHere fault args
  let pos ← nodePos
  finishAt kind pos pos (missingForm kind)

/-! ## Expected tokens -/

def tokenName : Kind → String
  | .identifier => "identifier"
  | .endOfFileToken => "end of file"
  | .stringLiteral => "string literal"
  | k => k.tokenText?.getD "token"

def tokenNode : Parse Node := do
  let pos ← nodePos
  let kind ← token
  skipToken
  finish kind pos .token

def errorExpected (kind : Kind) (fault : Option Fault) : Parse Unit :=
  match fault with
  | some fault => errorHere fault []
  | none => errorHere .expected [tokenName kind]

def expectWith (kind : Kind) (fault : Option Fault) (advance : Bool) : Parse Bool := do
  if ← tokenIs kind then
    if advance then skipToken
    return true
  errorExpected kind fault
  return false

def expect (kind : Kind) : Parse Bool := expectWith kind none true

def require (kind : Kind) : Parse Unit := do let _ ← expect kind

/-- Changes the diagnostic that a reading added, if it added one and a test holds. -/
def explaining (test : Bool) (f : Diagnostic → Diagnostic) (p : Parse Unit) : Parse Unit := do
  let before ← diagnosticCount
  p
  if test && (← diagnosticCount) != before then
    modify fun s => { s with diagnostics := (s.diagnostics.modifyLast f).2 }

/-- Expects what closes a bracket that was opened at an offset; an error points back there. -/
def requireMatching (opening closing : Kind) (wasOpened : Bool) (openPos : Nat) : Parse Unit := do
  if ← tokenIs closing then skipToken
  else
    explaining wasOpened
      (·.addRelated ⟨openPos, 1⟩ Fault.matchingTokenExpected.message
        [tokenName closing, tokenName opening])
      (errorHere .expected [tokenName closing])

def optional (kind : Kind) : Parse Bool := do
  if ← tokenIs kind then
    skipToken
    return true
  return false

def optionalToken? (kind : Kind) : Parse (Option Node) := do
  if ← tokenIs kind then return some (← tokenNode)
  return none

def expectedToken (kind : Kind) (fault : Option Fault) : Parse Node := do
  if ← tokenIs kind then tokenNode
  else
    match fault with
    | some fault => missingNode kind false fault []
    | none => missingNode kind false .expected [tokenName kind]

def canEndStatement : Parse Bool :=
  tokenIn [.semicolonToken, .closeBraceToken, .endOfFileToken] <||> afterLineBreak

def trySemicolon : Parse Bool := do
  if ← canEndStatement then
    if ← tokenIs .semicolonToken then skipToken
    return true
  return false

def semicolon : Parse Bool :=
  trySemicolon <||> expect .semicolonToken

/-! ## Nesting -/

def maxDepth : Nat := 200

/-- Runs a reading one level deeper, or reports that this is too deep and runs another one. -/
def deeper {α : Type} (tooDeep p : Parse α) : Parse α := do
  if (← get).depth ≥ maxDepth then
    errorHere .nestedTooDeeply []
    return ← tooDeep
  modify fun s => { s with depth := s.depth + 1 }
  let result ← p
  modify fun s => { s with depth := s.depth - 1 }
  return result

def beneathTop {α : Type} (p : Parse α) : Parse α := do
  let topLevel := (← get).topLevel
  modify fun s => { s with topLevel := false }
  let result ← p
  modify fun s => { s with topLevel := topLevel }
  return result

/-! ## Names and facts -/

def noteFileFlag (flag : NodeFlags) : Parse Unit :=
  modify fun s => { s with fileFlags := s.fileFlags ||| flag }

def countIdentifier : Parse Unit :=
  modify fun s => { s with identifierCount := s.identifierCount + 1 }

def noteIdentifier (text : String) : Parse Unit :=
  modify fun s => { s with identifiers := text :: s.identifiers }

def isIdentifier : Parse Bool := do
  let k ← token
  if k == .identifier then return true
  if k == .yieldKeyword && (← inContext NodeFlags.yieldContext) then return false
  if k == .awaitKeyword && (← inContext NodeFlags.awaitContext) then return false
  return k.value > Kind.withKeyword.value && k.isIdentifierOrWord

def takeIdentifier : Parse Node := do
  countIdentifier
  let pos ← nodePos
  let kind ← token
  let text ← tokenValue
  noteIdentifier text
  let _ ← nextTokenUnchecked
  finish .identifier pos (.identifier text (if kind == .identifier then none else some kind))

def identifierIf (mayBe : Bool) (fault : Option Fault) : Parse Node := do
  if mayBe then return ← takeIdentifier
  if ← tokenIs .privateIdentifier then
    errorHere .privateOutsideClass []
    return ← takeIdentifier
  countIdentifier
  let atEnd ← tokenIs .endOfFileToken
  match fault with
  | some fault => missingNode .identifier atEnd fault []
  | none =>
    if (← token).isReservedWord then
      missingNode .identifier atEnd .reservedWord [← tokenText]
    else missingNode .identifier atEnd .identifierExpected []

def identifier : Parse Node := do identifierIf (← isIdentifier) none

def identifierOr (fault : Fault) : Parse Node := do identifierIf (← isIdentifier) (some fault)

def isAnyWord : Parse Bool := do return (← token).isIdentifierOrWord

def identifierName : Parse Node := do identifierIf (← isAnyWord) none

def privateName : Parse Node := do
  let pos ← nodePos
  let text ← tokenValue
  noteIdentifier text
  skipToken
  finish .privateIdentifier pos (.identifier text none)

/-! ## Looking at the next token -/

def nextIsIdentifierOrWordOnLine : Parse Bool := do
  return (← nextToken).isIdentifierOrWord && !(← afterLineBreak)

def nextIsIdentifier : Parse Bool := do
  skipToken
  isIdentifier

def nextIsIdentifierOrWord : Parse Bool := do return (← nextToken).isIdentifierOrWord

def nextIsIdentifierOrStringOnLine : Parse Bool := do
  skipToken
  if ← afterLineBreak then return false
  isIdentifier <||> tokenIs .stringLiteral

def nextIsClassOnLine : Parse Bool := do
  return (← nextToken) == .classKeyword && !(← afterLineBreak)

def nextIsFunctionOnLine : Parse Bool := do
  return (← nextToken) == .functionKeyword && !(← afterLineBreak)

def nextIsWordOrLiteralOnLine : Parse Bool := do
  let k ← nextToken
  return (k.isIdentifierOrWord || k == .numericLiteral || k == .bigIntLiteral || k == .stringLiteral)
    && !(← afterLineBreak)

def isLiteralPropertyName : Parse Bool := do
  let k ← token
  return k.isIdentifierOrWord || k == .stringLiteral || k == .numericLiteral || k == .bigIntLiteral ||
    k == .privateIdentifier

/-! ## Dotted names -/

/-- The name after a dot. A line break before it and a word after it mean that it is missing. -/
def nameAfterDot (allowWords allowPrivate : Bool) : Parse Node := do
  if (← afterLineBreak) && (← token).isIdentifierOrWord then
    if ← lookAhead nextIsIdentifierOrWordOnLine then
      return ← missingNode .identifier true .identifierExpected []
  if ← tokenIs .privateIdentifier then
    let n ← privateName
    if allowPrivate then return n
    return ← missingNode .identifier true .identifierExpected []
  if allowWords then identifierName else identifier

def entityName (allowWords : Bool) (fault : Option Fault) : Parse Node := do
  let pos ← nodePos
  let mayBe ← if allowWords then isAnyWord else isIdentifier
  let mut entity ← identifierIf mayBe fault
  for _ in rounds do
    unless ← optional .dotToken do break
    if ← tokenIs .lessThanToken then break
    let right ← nameAfterDot allowWords false
    entity ← finish .qualifiedName pos (.qualifiedName entity right)
  return entity

end Parse

end ScriptFrontend
