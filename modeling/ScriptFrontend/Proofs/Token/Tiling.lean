import ScriptFrontend.Proofs.Token.Aligned

/-!
# The tokens of a text

A scanner that goes on token by token comes to the end of its text, and the tokens with the trivia
before them cover the text without gaps. Whatever else is asked of a scanner, it stands in its text
in order and cuts no character.
-/

namespace ScriptFrontend.Scanner

def atStart (text : String) (target : ScriptTarget) (variant : LanguageVariant) (skips : Bool) :
    Scanner :=
  { ofText text with target := target, variant := variant, skipsTrivia := skips }

/-- A scanner that goes on token by token stands on these, of which only the last is the end. -/
inductive Yields : Scanner → List Scanner → Prop
  | last {s : Scanner} (ended : s.scan.token = .endOfFileToken) : Yields s [s.scan]
  | next {s : Scanner} {ts : List Scanner} (live : s.scan.token ≠ .endOfFileToken)
      (rest : Yields s.scan ts) : Yields s (s.scan :: ts)

/-- Tokens that lie end to end in a text from an offset on. Each has a width, but for the last one,
which stands at the end of the text. -/
inductive Tiles (text : String) : Nat → List Scanner → Prop
  | last {t : Scanner} (ended : t.token = .endOfFileToken) (full_le : t.fullStart ≤ t.tokenStart)
      (start_eq : t.tokenStart = text.utf8ByteSize) (stop_eq : t.pos = text.utf8ByteSize) :
      Tiles text t.fullStart [t]
  | next {t : Scanner} {ts : List Scanner} (live : t.token ≠ .endOfFileToken)
      (full_le : t.fullStart ≤ t.tokenStart) (wide : t.tokenStart < t.pos)
      (rest : Tiles text t.pos ts) : Tiles text t.fullStart (t :: ts)

variable {text : String} {s : Scanner} {ts : List Scanner}

/-- Going on leads to the end: what is left of the text gets shorter with each token. -/
theorem Ready.exists_yields (h : s.Ready text) : ∃ ts, s.Yields ts := by
  induction left : text.utf8ByteSize - s.pos using Nat.strongRecOn generalizing s with
  | ind left ih =>
    have found := h.scan
    by_cases ended : s.scan.token = .endOfFileToken
    · exact ⟨_, .last ended⟩
    · have wide := found.wide ended
      have full := h.scan_fullStart
      have full_le := found.state.full_le
      have inside := found.state.end_cut.le_size
      obtain ⟨ts, yields⟩ := ih _ (by omega) found.ready rfl
      exact ⟨_, .next ended yields⟩

theorem Yields.tiles (h : s.Yields ts) (ready : s.Ready text) : Tiles text s.pos ts := by
  induction h with
  | @last s ended =>
    have found := ready.scan
    obtain ⟨start, stop⟩ := found.last ended
    exact ready.scan_fullStart ▸ .last ended found.state.full_le (start.trans stop) stop
  | @next s ts live _ ih =>
    have found := ready.scan
    exact ready.scan_fullStart ▸ .next live found.state.full_le (found.wide live) (ih found.ready)

/-- Where no trivia is left out, the texts of the tokens make up the rest of the text. -/
theorem Yields.join (h : s.Yields ts) (ready : s.Ready text) (bare : s.skipsTrivia = false) :
    String.join (ts.map tokenText) = Text.slice text s.pos text.utf8ByteSize := by
  have texts {s : Scanner} (ready : s.Ready text) (bare : s.skipsTrivia = false) :
      s.scan.tokenText = Text.slice text s.pos s.scan.pos := by
    have start : s.scan.tokenStart = s.pos := ready.scan.bare bare
    rw [tokenText, start, ready.scan.text_eq]
  induction h with
  | @last s ended =>
    have stop := (ready.scan.last ended).2
    simp [texts ready bare, stop]
  | @next s ts _ _ ih =>
    have found := ready.scan
    have le : s.pos ≤ s.scan.pos :=
      ready.scan_fullStart ▸ Nat.le_trans found.state.full_le found.state.start_le
    have rest := ih found.ready (found.skips_eq.trans bare)
    rw [List.map_cons, String.join_cons, texts ready bare, rest]
    exact Text.slice_append ready.cut found.state.end_cut (Text.boundary_size text) le
      found.state.end_cut.le_size

/-! ## What may be asked of a scanner -/

/-- The requests of a scanner. States that were kept are counted from the last one back. -/
inductive Request
  | scan
  | rescanGreater
  | rescanLess
  | rescanSlash
  | rescanTemplate (report : Bool)
  | scanElementContent (overLines : Bool)
  | rescanElementContent (overLines : Bool)
  | scanElementName
  | scanAttributeValue
  | rescanAttributeValue
  | scanDoc
  | enterDocType
  | leaveDocType
  | moveTo (pos : Nat)
  | save
  | restore (count : Nat)

structure Session where
  scanner : Scanner
  kept : List (TokenState × Nat)

namespace Session

/-- A template piece is read again only where one starts, and no place inside a character is gone
to. -/
def Allows (x : Session) : Request → Prop
  | .rescanTemplate _ => x.scanner.startsPiece = true
  | .moveTo pos => Text.Boundary x.scanner.text pos
  | _ => True

def perform (x : Session) : Request → Session
  | .scan => { x with scanner := x.scanner.scan }
  | .rescanGreater => { x with scanner := x.scanner.rescanGreater }
  | .rescanLess => { x with scanner := x.scanner.rescanLess }
  | .rescanSlash => { x with scanner := x.scanner.rescanSlash }
  | .rescanTemplate report => { x with scanner := x.scanner.rescanTemplate report }
  | .scanElementContent overLines => { x with scanner := x.scanner.scanElementContent overLines }
  | .rescanElementContent overLines => { x with scanner := x.scanner.rescanElementContent overLines }
  | .scanElementName => { x with scanner := x.scanner.scanElementName }
  | .scanAttributeValue => { x with scanner := x.scanner.scanAttributeValue }
  | .rescanAttributeValue => { x with scanner := x.scanner.rescanAttributeValue }
  | .scanDoc => { x with scanner := x.scanner.scanDoc }
  | .enterDocType => { x with scanner := x.scanner.enterDocType }
  | .leaveDocType => { x with scanner := x.scanner.leaveDocType }
  | .moveTo pos => { x with scanner := x.scanner.moveTo pos }
  | .save => { x with kept := x.scanner.save :: x.kept }
  | .restore count =>
    match x.kept[count]? with
    | some saved => { x with scanner := x.scanner.restore saved }
    | none => x

/-- The sessions that a scanner comes to by requests, one after another. -/
inductive Reached (s : Scanner) : Session → Prop
  | start : Reached s ⟨s, []⟩
  | step {x : Session} (before : Reached s x) (r : Request) (allowed : x.Allows r) :
      Reached s (x.perform r)

/-- The scanner and all that was kept of it stand between the characters of a text. -/
structure Aligned (text : String) (x : Session) : Prop where
  scanner : x.scanner.Aligned text
  kept : ∀ saved ∈ x.kept, saved.1.Aligned text

variable {x : Session}

theorem Aligned.perform (h : x.Aligned text) (r : Request) (allowed : x.Allows r) :
    (x.perform r).Aligned text := by
  have scanner := h.scanner
  cases r with
  | scan => exact ⟨scanner.ready.scan.toAligned, h.kept⟩
  | rescanGreater => exact ⟨scanner.rescanGreater, h.kept⟩
  | rescanLess => exact ⟨scanner.rescanLess, h.kept⟩
  | rescanSlash => exact ⟨scanner.rescanSlash, h.kept⟩
  | rescanTemplate report => exact ⟨scanner.rescanTemplate allowed report, h.kept⟩
  | scanElementContent overLines => exact ⟨scanner.ready.scanElementContent overLines, h.kept⟩
  | rescanElementContent overLines => exact ⟨scanner.rescanElementContent overLines, h.kept⟩
  | scanElementName => exact ⟨scanner.scanElementName, h.kept⟩
  | scanAttributeValue => exact ⟨scanner.ready.scanAttributeValue, h.kept⟩
  | rescanAttributeValue => exact ⟨scanner.rescanAttributeValue, h.kept⟩
  | scanDoc => exact ⟨scanner.ready.scanDoc, h.kept⟩
  | enterDocType => exact ⟨⟨⟨scanner.text_eq, scanner.stop_eq⟩, scanner.state⟩, h.kept⟩
  | leaveDocType => exact ⟨⟨⟨scanner.text_eq, scanner.stop_eq⟩, scanner.state⟩, h.kept⟩
  | moveTo pos => exact ⟨scanner.moveTo (scanner.text_eq ▸ allowed), h.kept⟩
  | save =>
    refine ⟨scanner, fun saved mem => ?_⟩
    rcases List.mem_cons.mp mem with rfl | mem
    · exact scanner.state
    · exact h.kept saved mem
  | restore count =>
    rw [Session.perform]
    split
    · rename_i saved found
      exact ⟨scanner.restore (h.kept saved (List.mem_of_getElem? found)), h.kept⟩
    · exact h

theorem Reached.aligned (h : Reached s x) (start : s.Aligned text) : x.Aligned text := by
  induction h with
  | start => exact ⟨start, fun _ mem => nomatch mem⟩
  | step _ r allowed ih => exact ih.perform r allowed

end Session

theorem atStart_aligned (text : String) (target : ScriptTarget) (variant : LanguageVariant)
    (skips : Bool) : (atStart text target variant skips).Aligned text :=
  Reads.moveTo (s := atStart text target variant skips) ⟨rfl, rfl⟩ (Text.boundary_zero text)

/-- Scanning comes to the end of every text, its tokens cover the text, and whatever is asked of a
scanner it stands in its text in order and at boundaries. -/
theorem tokens_tile_and_requests_align (text : String) (target : ScriptTarget)
    (variant : LanguageVariant) (skips : Bool) :
    (∃ ts, (atStart text target variant skips).Yields ts ∧ Tiles text 0 ts ∧
      (skips = false → String.join (ts.map tokenText) = text)) ∧
    ∀ x, Session.Reached (atStart text target variant skips) x →
      x.scanner.toTokenState.LiesIn text ∧ x.scanner.pos ≤ text.utf8ByteSize := by
  have start := atStart_aligned text target variant skips
  refine ⟨?_, fun x reached => ?_⟩
  · obtain ⟨ts, yields⟩ := start.ready.exists_yields
    refine ⟨ts, yields, yields.tiles start.ready, fun bare => ?_⟩
    exact (yields.join start.ready bare).trans (Text.slice_size text)
  · have lies := (reached.aligned start).scanner.state.toLiesIn
    exact ⟨lies, lies.end_cut.le_size⟩

/-- A template that is read at once, before any token. -/
theorem template_request_aligns :
    Session.Reached (atStart "\x60a" .esNext .standard true)
        (Session.perform ⟨atStart "\x60a" .esNext .standard true, []⟩ (.rescanTemplate true)) ∧
      (Session.perform ⟨atStart "\x60a" .esNext .standard true, []⟩
        (.rescanTemplate true)).scanner.toTokenState.LiesIn "\x60a" := by
  have starts : (atStart "\x60a" .esNext .standard true).startsPiece = true := by decide
  have reached := Session.Reached.step .start (.rescanTemplate true) starts
  exact ⟨reached, ((tokens_tile_and_requests_align "\x60a" .esNext .standard true).2 _ reached).1⟩

end ScriptFrontend.Scanner
