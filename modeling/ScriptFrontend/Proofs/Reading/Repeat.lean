import ScriptFrontend.Grammar.Lists
import ScriptFrontend.Proofs.Reading.Lists

/-!
# Asking again

What a test looks at is the token, the text around it and the context. Errors that are reported in
between do not count: a test that is asked again comes out as it did before. So a list that alone is
open does not end at a token that it cannot begin an element with.
-/

namespace ScriptFrontend

open Diagnostic (Fault)
open Parse

namespace Scanner

/-- Two scanners of the same part of a text, wherever they stand. -/
structure Beside (s t : Scanner) : Prop where
  text : s.text = t.text
  stop : s.stop = t.stop
  target : s.target = t.target
  variant : s.variant = t.variant
  skips : s.skipsTrivia = t.skipsTrivia
  docTypeDepth : s.docTypeDepth = t.docTypeDepth

/-- Two scanners that differ in the errors only that they found. -/
structure Alike (s t : Scanner) : Prop extends s.Beside t where
  place : s.toTokenState = t.toTokenState

variable {s t : Scanner}

theorem Beside.refl (s : Scanner) : s.Beside s := ⟨rfl, rfl, rfl, rfl, rfl, rfl⟩

theorem Beside.symm (h : s.Beside t) : t.Beside s :=
  ⟨h.text.symm, h.stop.symm, h.target.symm, h.variant.symm, h.skips.symm, h.docTypeDepth.symm⟩

theorem Beside.trans {u : Scanner} (h : s.Beside t) (h' : t.Beside u) : s.Beside u :=
  ⟨h.text.trans h'.text, h.stop.trans h'.stop, h.target.trans h'.target,
    h.variant.trans h'.variant, h.skips.trans h'.skips, h.docTypeDepth.trans h'.docTypeDepth⟩

theorem Beside.window (h : s.Beside t) : s.window = t.window := by
  rw [Scanner.window, Scanner.window, h.text, h.stop, h.target, h.variant, h.docTypeDepth]

theorem report_alike (s : Scanner) (errors : List Token.ScanError) : s.Alike (s.report errors) := by
  unfold report
  split <;> exact ⟨⟨rfl, rfl, rfl, rfl, rfl, rfl⟩, rfl⟩

theorem Alike.symm (h : s.Alike t) : t.Alike s := ⟨h.toBeside.symm, h.place.symm⟩

theorem Alike.trans {u : Scanner} (h : s.Alike t) (h' : t.Alike u) : s.Alike u :=
  ⟨h.toBeside.trans h'.toBeside, h.place.trans h'.place⟩

theorem Alike.report (h : s.Alike t) (errors : List Token.ScanError) :
    (s.report errors).Alike (t.report errors) :=
  (s.report_alike errors).symm.trans (h.trans (t.report_alike errors))

theorem Alike.change (h : s.Alike t) (f : TokenState → TokenState) :
    Alike { s with toTokenState := f s.toTokenState } { t with toTokenState := f t.toTokenState } :=
  ⟨⟨h.text, h.stop, h.target, h.variant, h.skips, h.docTypeDepth⟩, congrArg f h.place⟩

theorem Alike.land (h : s.Alike t) (start : Nat) (l : Token.Lexeme) :
    (s.land start l).Alike (t.land start l) :=
  (h.change fun p => { p with
    pos := l.stop, tokenStart := start, token := l.kind, value := l.value
    flags := p.flags ||| l.flags }).report l.errors

theorem Alike.scan_go (fuel : Nat) (h : s.Alike t) : (scan.go fuel s).Alike (scan.go fuel t) := by
  induction fuel generalizing s t with
  | zero =>
    rw [scan.go, scan.go, h.window, h.place]
    exact h.land _ _
  | succ fuel ih =>
    have next (l : Token.Lexeme) :=
      (h.change fun p => { p with pos := l.stop, flags := p.flags ||| l.flags }).report l.errors
    rw [scan.go, scan.go, h.window, show s.pos = t.pos from congrArg _ h.place]
    split
    · rename_i l _
      by_cases skips : t.skipsTrivia = true
      · rw [if_pos (h.skips.trans skips), if_pos skips]
        exact ih (next l)
      · rw [if_neg (h.skips ▸ skips), if_neg skips]
        exact h.land _ _
    · exact h.land _ _

/-- Where the next token is depends on the place and the text only. -/
theorem Alike.scan (h : s.Alike t) : s.scan.Alike t.scan := by
  unfold Scanner.scan
  rw [h.stop, show s.pos = t.pos from congrArg _ h.place]
  exact (h.change fun p => { p with fullStart := p.pos, flags := .empty, value := "" }).scan_go _

theorem land_beside (s : Scanner) (start : Nat) (l : Token.Lexeme) : s.Beside (s.land start l) :=
  Beside.trans (t := { s with
    pos := l.stop, tokenStart := start, token := l.kind, value := l.value
    flags := s.flags ||| l.flags }) ⟨rfl, rfl, rfl, rfl, rfl, rfl⟩ (report_alike _ _).toBeside

theorem scan_go_beside (fuel : Nat) (s : Scanner) : s.Beside (scan.go fuel s) := by
  induction fuel generalizing s with
  | zero => exact s.land_beside _ _
  | succ fuel ih =>
    rw [scan.go]
    split
    · rename_i l _
      split
      · refine Beside.trans ?_ (ih _)
        exact Beside.trans (t := { s with pos := l.stop, flags := s.flags ||| l.flags })
          ⟨rfl, rfl, rfl, rfl, rfl, rfl⟩ (report_alike _ _).toBeside
      · exact s.land_beside _ _
    · exact s.land_beside _ _

theorem scan_beside (s : Scanner) : s.Beside s.scan :=
  Beside.trans (t := s.fresh) ⟨rfl, rfl, rfl, rfl, rfl, rfl⟩ (scan_go_beside _ _)

theorem Beside.restore (h : s.Beside t) (count : Nat) :
    s.Alike (t.restore (s.toTokenState, count)) :=
  ⟨⟨h.text, h.stop, h.target, h.variant, h.skips, h.docTypeDepth⟩, rfl⟩

end Scanner

namespace ParserState

/-- Two states of reading the same part of a text in the same context. -/
structure Beside (s t : ParserState) : Prop where
  scanner : s.scanner.Beside t.scanner
  contextFlags : s.contextFlags = t.contextFlags

/-- Two states in which a test comes out the same. -/
structure Alike (s t : ParserState) : Prop where
  scanner : s.scanner.Alike t.scanner
  contextFlags : s.contextFlags = t.contextFlags

variable {s t u : ParserState}

theorem Alike.beside (h : s.Alike t) : s.Beside t := ⟨h.scanner.toBeside, h.contextFlags⟩

theorem Alike.refl (s : ParserState) : s.Alike s := ⟨⟨.refl _, rfl⟩, rfl⟩

theorem Alike.symm (h : s.Alike t) : t.Alike s := ⟨h.scanner.symm, h.contextFlags.symm⟩

theorem Alike.trans (h : s.Alike t) (h' : t.Alike u) : s.Alike u :=
  ⟨h.scanner.trans h'.scanner, h.contextFlags.trans h'.contextFlags⟩

theorem Beside.trans (h : s.Beside t) (h' : t.Beside u) : s.Beside u :=
  ⟨h.scanner.trans h'.scanner, h.contextFlags.trans h'.contextFlags⟩

end ParserState

variable {α β : Type}

class Stays (p : Parse α) : Prop where
  stays : ∀ (g : Productions) (s : ParserState), s.Alike (p g s).2

/-- From states that are alike the reading comes to the same value and to states that are alike. -/
class Repeats (p : Parse α) : Prop where
  value : ∀ {g : Productions} {s t : ParserState}, s.Alike t → (p g s).1 = (p g t).1
  state : ∀ {g : Productions} {s t : ParserState}, s.Alike t → (p g s).2.Alike (p g t).2
  beside : ∀ (g : Productions) (s : ParserState), s.Beside (p g s).2

/-- A test that stays where it is and comes out the same when it is asked again. -/
class Asks (p : Parse α) : Prop extends Stays p where
  value : ∀ {g : Productions} {s t : ParserState}, s.Alike t → (p g s).1 = (p g t).1

section

variable {p : Parse α} {f : α → Parse β}

instance (priority := 50) Repeats.of_asks (p : Parse α) [h : Asks p] : Repeats p where
  value := h.value
  state alike := (h.stays _ _).symm.trans (alike.trans (h.stays _ _))
  beside g s := (h.stays g s).beside

instance (priority := 50) Asks.of_stays (p : Parse Unit) [h : Stays p] : Asks p := ⟨fun _ => rfl⟩

instance Stays.bind (p : Parse α) (f : α → Parse β) [first : Stays p] [rest : ∀ x, Stays (f x)] :
    Stays (p >>= f) :=
  ⟨fun g s => (first.stays g s).trans ((rest _).stays g _)⟩

instance Stays.ite (c : Prop) {_ : Decidable c} (p q : Parse α) [yes : Stays p] [no : Stays q] :
    Stays (if c then p else q) := by
  split <;> assumption

instance Stays.loop_over {ι : Type} (values : List ι) (f : ι → α → Parse (ForInStep α)) (x : α)
    [body : ∀ i x, Stays (f i x)] : Stays (forIn values x f) := by
  induction values generalizing x with
  | nil => exact ⟨fun _ s => .refl s⟩
  | cons i rest ih =>
    rw [List.forIn_cons]
    refine @Stays.bind _ _ _ _ _ fun step => ?_
    cases step with
    | done y => exact ⟨fun _ s => .refl s⟩
    | yield y => exact ih y

instance Repeats.bind (p : Parse α) (f : α → Parse β) [first : Repeats p]
    [rest : ∀ x, Repeats (f x)] : Repeats (p >>= f) where
  value {g s t} alike := by
    change (f (p g s).1 g (p g s).2).1 = (f (p g t).1 g (p g t).2).1
    rw [first.value alike]
    exact (rest _).value (first.state alike)
  state {g s t} alike := by
    change (f (p g s).1 g (p g s).2).2.Alike (f (p g t).1 g (p g t).2).2
    rw [first.value alike]
    exact (rest _).state (first.state alike)
  beside g s := (first.beside g s).trans ((rest _).beside g _)

instance Repeats.ite (c : Prop) {_ : Decidable c} (p q : Parse α) [yes : Repeats p]
    [no : Repeats q] : Repeats (if c then p else q) := by
  split <;> assumption

instance Asks.pure (x : α) : Asks (Pure.pure x : Parse α) where
  stays _ s := .refl s
  value _ := rfl

instance Asks.bind (p : Parse α) (f : α → Parse β) [first : Asks p] [rest : ∀ x, Asks (f x)] :
    Asks (p >>= f) where
  value := Repeats.value

instance Asks.ite (c : Prop) {_ : Decidable c} (p q : Parse α) [yes : Asks p] [no : Asks q] :
    Asks (if c then p else q) := by
  split <;> assumption

instance Asks.or (p q : Parse Bool) [first : Asks p] [rest : Asks q] : Asks (p <||> q) := by
  refine @Asks.bind _ _ p _ _ fun x => ?_
  cases x with
  | true => exact Asks.pure true
  | false => exact rest

instance Asks.and (p q : Parse Bool) [first : Asks p] [rest : Asks q] : Asks (p <&&> q) := by
  refine @Asks.bind _ _ p _ _ fun x => ?_
  cases x with
  | true => exact rest
  | false => exact Asks.pure false

theorem Repeats.after {p q : Parse α} (h : Repeats q)
    (before : ∀ (g : Productions) (s : ParserState), ∃ t, s.Alike t ∧ p g s = q g t) :
    Repeats p where
  value {g s t} alike := by
    obtain ⟨s', left, run⟩ := before g s
    obtain ⟨t', right, run'⟩ := before g t
    rw [run, run']
    exact h.value (left.symm.trans (alike.trans right))
  state {g s t} alike := by
    obtain ⟨s', left, run⟩ := before g s
    obtain ⟨t', right, run'⟩ := before g t
    rw [run, run']
    exact h.state (left.symm.trans (alike.trans right))
  beside g s := by
    obtain ⟨s', left, run⟩ := before g s
    rw [run]
    exact left.beside.trans (h.beside g s')

theorem asks_of_look {look : ParserState → α} (same : ∀ {s t}, s.Alike t → look s = look t) :
    Asks (fun _ s => (look s, s) : Parse α) where
  stays _ s := .refl s
  value alike := same alike

/-! ## Steps -/

instance : Asks token := asks_of_look fun alike => congrArg _ alike.scanner.place
instance : Asks nodePos := asks_of_look fun alike => congrArg _ alike.scanner.place
instance : Asks tokenStart := asks_of_look fun alike => congrArg _ alike.scanner.place
instance : Asks tokenEnd := asks_of_look fun alike => congrArg _ alike.scanner.place

instance : Asks afterLineBreak :=
  asks_of_look fun alike => congrArg (fun p : TokenState => p.flags.has _) alike.scanner.place

instance (flags : NodeFlags) : Asks (inContext flags) :=
  asks_of_look fun alike => congrArg (fun c : NodeFlags => c.meets flags) alike.contextFlags

instance (k : Kind) : Asks (tokenIs k) := by
  unfold tokenIs
  infer_instance

instance (ks : List Kind) : Asks (tokenIn ks) := by
  unfold tokenIn
  infer_instance

instance : Stays stall := ⟨fun _ _ => ⟨⟨.refl _, rfl⟩, rfl⟩⟩

instance (start length : Nat) (fault : Fault) (args : List String) :
    Stays (errorAtSpan start length fault args) :=
  ⟨fun _ _ => ⟨⟨.refl _, rfl⟩, rfl⟩⟩

instance (start stop : Nat) (fault : Fault) (args : List String) :
    Stays (errorAt start stop fault args) := by
  unfold errorAt
  infer_instance

instance (fault : Fault) (args : List String) : Stays (errorHere fault args) := by
  unfold errorHere
  infer_instance

instance : Stays (modifyScanner Scanner.forgetErrors) :=
  ⟨fun _ _ => ⟨⟨⟨rfl, rfl, rfl, rfl, rfl, rfl⟩, rfl⟩, rfl⟩⟩

instance : Stays drainErrors := by
  unfold drainErrors
  have : Stays (get : Parse ParserState) := ⟨fun _ s => .refl s⟩
  dsimp only
  infer_instance

instance : Repeats (modifyScanner Scanner.scan) where
  value _ := rfl
  state alike := ⟨alike.scanner.scan, alike.contextFlags⟩
  beside _ s := ⟨s.scanner.scan_beside, rfl⟩

instance : Repeats nextTokenUnchecked := by
  unfold nextTokenUnchecked
  infer_instance

instance : Repeats nextToken := by
  refine .after (q := nextTokenUnchecked) inferInstance fun g s => ?_
  have run : nextToken g s = (if s.scanner.token.isWord && s.scanner.flags.meets
      (TokenFlags.unicodeEscape ||| TokenFlags.extendedUnicodeEscape) then do
        errorAt s.scanner.tokenStart s.scanner.pos .escapedKeyword []
        nextTokenUnchecked
      else nextTokenUnchecked : Parse Kind) g s := rfl
  rw [run]
  split
  · exact ⟨_, Stays.stays (p := errorAt s.scanner.tokenStart s.scanner.pos .escapedKeyword []) g s, rfl⟩
  · exact ⟨s, .refl s, rfl⟩

instance : Repeats skipToken := by
  unfold skipToken
  infer_instance

instance (p : Parse α) [h : Repeats p] : Asks (lookAhead p) where
  stays g s := ⟨(h.beside g s).scanner.restore _, (h.beside g s).contextFlags⟩
  value alike := h.value alike

instance Repeats.loop (f : Unit → α → Parse (ForInStep α)) (x : α) [body : ∀ y, Repeats (f () y)] :
    Repeats (forIn Parse.Rounds.rounds x f) := by
  have runs (left : Nat) (y : α) : Repeats (Parse.Rounds.run (f ()) left y) := by
    induction left generalizing y with
    | zero =>
      rw [Parse.Rounds.run]
      infer_instance
    | succ left ih =>
      rw [Parse.Rounds.run]
      refine @Repeats.bind _ _ _ _ _ fun start => @Repeats.bind _ _ _ _ _ fun step => ?_
      cases step with
      | done y => infer_instance
      | yield y => infer_instance
  have size : Asks (fun _ s => (s.scanner.text.utf8ByteSize + 2, s) : Parse Nat) :=
    asks_of_look fun alike => congrArg (fun text : String => text.utf8ByteSize + 2)
      alike.scanner.text
  exact @Repeats.bind _ _ (fun _ s => (s.scanner.text.utf8ByteSize + 2, s))
    (fun left => Parse.Rounds.run (f ()) left x) _ (runs · x)

end

/-! ## Tests of what may start -/

instance (kinds : List Kind) : Repeats (nextIsIn kinds) := by
  unfold nextIsIn
  infer_instance

instance (k : Kind) : Repeats (nextTokenIs k) := by
  unfold nextTokenIs
  infer_instance

instance : Asks isIdentifier := by
  unfold isIdentifier
  infer_instance

instance : Repeats nextIsIdentifierOrStringOnLine := by
  unfold nextIsIdentifierOrStringOnLine
  infer_instance

instance : Repeats nextIsIdentifierOrWordOnLine := by
  unfold nextIsIdentifierOrWordOnLine
  infer_instance

instance : Asks isBindingIdentifier := by
  unfold isBindingIdentifier
  infer_instance

instance : Asks isLeftHandSideStart := by
  unfold isLeftHandSideStart
  infer_instance

instance : Asks isBinaryOperator := by
  unfold isBinaryOperator
  infer_instance

instance : Asks isExpressionStart := by
  unfold isExpressionStart
  infer_instance

instance (exceptOf : Bool) : Repeats (nextIsBindingOnLine exceptOf) := by
  unfold nextIsBindingOnLine
  infer_instance

instance : Repeats nextIsUsingOnLine := by
  unfold nextIsUsingOnLine
  infer_instance

instance : Asks isUsingDeclaration := by
  unfold isUsingDeclaration
  infer_instance

instance : Asks isAwaitUsingDeclaration := by
  unfold isAwaitUsingDeclaration
  infer_instance

instance : Repeats isDeclarationAhead := by
  unfold isDeclarationAhead
  dsimp only
  refine @Repeats.bind _ _ _ _ (@Repeats.loop _ _ _ fun x => @Repeats.bind _ _ _ _ _ fun k => ?_)
    fun x => ?_
  all_goals split <;> infer_instance

instance : Asks isDeclarationStart := by
  unfold isDeclarationStart
  infer_instance

instance : Asks isStatementStart := by
  unfold isStatementStart
  refine @Asks.bind _ _ _ _ _ fun k => ?_
  split
  · infer_instance
  · split <;> infer_instance

/-! ## A list that alone is open -/

theorem Parse.isWantedByOpenList_alone {c : ListContext} {g : Productions} {s : ParserState}
    (alone : s.openLists = [c])
    (refused : ((isElementStart c true <||> isTerminator c) g s).1 = false) :
    (isWantedByOpenList g s).1 = false := by
  -- The contexts before the one that is open leave the state as it is; none after it is asked.
  have loop (contexts : List ListContext) (once : contexts.Nodup) (u : ParserState)
      (fresh : c ∈ contexts → u = s) :
      ((forIn contexts (none, ()) fun context _ => do
        if [c].contains context then
          if ← (isElementStart context true <||> isTerminator context) then
            return .done (some true, ())
          else return .yield (none, ())
        else return .yield (none, ()) : Parse (Option Bool × Unit)) g u).1 = (none, ()) := by
    induction contexts generalizing u with
    | nil => rfl
    | cons i rest ih =>
      obtain ⟨other, once⟩ := List.nodup_cons.mp once
      rw [List.forIn_cons]
      by_cases same : i = c
      · subst same
        cases fresh (List.mem_cons_self ..)
        have asked : [i].contains i = true := by simp
        rw [asked, if_pos rfl, bind_run, bind_run, refused]
        exact ih once _ fun mem => absurd mem other
      · have skipped : [c].contains i = false := by simpa using same
        simp only [skipped, Bool.false_eq_true, if_false]
        exact ih once u fun mem => fresh (List.mem_cons_of_mem _ mem)
  have asked := loop ListContext.all (by decide) s fun _ => rfl
  rw [← alone] at asked
  unfold isWantedByOpenList
  have got : (get : Parse ParserState) g s = (s, s) := rfl
  rw [bind_run, got]
  dsimp only
  rw [bind_run, asked]
  rfl

instance (c : ListContext) : Stays (errorInList c) := by
  unfold errorInList
  cases c <;> dsimp only <;> infer_instance

/-- A list whose tests may be asked again. Recovering it refuses no less. -/
class ListContext.Steady (c : ListContext) : Prop where
  element : ∀ recovering, Asks (isElementToken c recovering)
  recovering : ∀ {g : Productions} {s : ParserState}, (isElementToken c false g s).1 = false →
    (isElementToken c true g s).1 = false
  terminator : Asks (isTerminator c)

instance : ListContext.Steady .sourceElements where
  element recovering := by
    unfold isElementToken
    infer_instance
  recovering {g s} refused := by
    change ((if s.scanner.token == .semicolonToken then pure false else isStatementStart :
      Parse Bool) g s).1 = false
    split
    · rfl
    · exact refused
  terminator := by
    unfold isTerminator
    infer_instance

instance : ListContext.Steady .objectLiteralMembers where
  element recovering := by
    unfold isElementToken isLiteralPropertyName
    infer_instance
  recovering := id
  terminator := by
    unfold isTerminator
    infer_instance

/-- Without an old tree the tokens tell whether an element may start. -/
theorem Parse.isElementStart_run {c : ListContext} {recovering : Bool} {g : Productions}
    {s : ParserState} (fresh : s.cursor = none) :
    isElementStart c recovering g s = isElementToken c recovering g s := by
  have nothing : oldElement? c g s = (none, s) := by
    obtain nothing | ⟨_, held, _⟩ := oldElement?_run c g s
    · exact nothing
    · rw [fresh] at held
      cases held
  unfold isElementStart startsElement
  rw [bind_run, nothing]
  rfl

/-- A list that alone is open does not end at a token that it refused: no element of it may start
there, and it does not end there. -/
theorem Parse.endsAtStrayToken_alone {c : ListContext} [steady : c.Steady] {g : Productions}
    {s s' t : ParserState} (start : (isElementToken c false g s).1 = false)
    (ends : (isTerminator c g s').1 = false) (alike : s.Alike t) (alike' : s'.Alike t)
    (alone : (errorInList c g t).2.openLists = [c]) (fresh : (errorInList c g t).2.cursor = none) :
    (endsAtStrayToken c g t).1 = false := by
  have element := steady.element
  have terminator := steady.terminator
  have reported : t.Alike (errorInList c g t).2 := Stays.stays g t
  have start : (isElementToken c true g (errorInList c g t).2).1 = false :=
    steady.recovering (((element false).value (alike.trans reported)).symm.trans start)
  have asked := (element true).stays g (errorInList c g t).2
  have refused : ((isElementStart c true <||> isTerminator c) g (errorInList c g t).2).1 = false := by
    unfold orM
    rw [bind_run, isElementStart_run fresh, start]
    exact ((terminator.value (alike'.trans (reported.trans asked))).symm.trans ends)
  unfold endsAtStrayToken
  rw [bind_run, bind_run, isWantedByOpenList_alone alone refused]
  rfl

end ScriptFrontend
