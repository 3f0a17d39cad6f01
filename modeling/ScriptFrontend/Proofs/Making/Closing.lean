import ScriptFrontend.Proofs.Motion.State
import ScriptFrontend.Proofs.Reading.Repeat
import ScriptFrontend.Proofs.Tree.Form

/-!
# Pairs of tags

The tags of an element have one name, and a fragment ends with a whole tag without a name. Where a
reading finds something else it reports that at the name of one of the tags, or for a fragment where the
closing tag should stand or where it breaks off. A closing tag that belongs to the element around is
reported at the opening tag of the element that took it, because the closing tag does not stay with that
one.

The children of an element go on up to its closing tag, or to the end of the text. If the last one took
the closing tag, that was reported when the child ended, and the loop ends with it.
-/

namespace ScriptFrontend

open Diagnostic (Fault)
open Parse

variable {g : Productions} {s : ParserState}

def ParserState.Reports (s : ParserState) (offset : Nat) : Prop := s.diagnostics.hasStart offset = true

section

variable {frame : Scanner.Frame} {reported reported' : Nat → Prop}

namespace Node

mutual

theorem sameTag_symm : ∀ {n m : Node}, n.sameTag m = true → m.sameTag n = true
  | .mk h s slots docs origin, .mk h' s' slots' docs' origin', same => by
    unfold sameTag at same ⊢
    obtain ⟨kinds, same⟩ := Bool.and_eq_true_iff.mp same
    have kinds := eq_of_beq kinds
    rw [kinds, BEq.rfl, Bool.true_and]
    split at same
    · exact beq_iff_eq.mpr (eq_of_beq same).symm
    · exact sameTagParts_symm same
    · exact sameAccess_symm same
    · exact kinds ▸ same
    · cases same

theorem sameTagParts_symm : ∀ {slots slots' : List Slot}, sameTagParts slots slots' = true →
    sameTagParts slots' slots = true
  | [.node _, .node _], [.node _, .node _], same =>
    have ⟨first, second⟩ := Bool.and_eq_true_iff.mp same
    Bool.and_eq_true_iff.mpr ⟨sameTag_symm first, sameTag_symm second⟩

theorem sameAccess_symm : ∀ {slots slots' : List Slot}, sameAccess slots slots' = true →
    sameAccess slots' slots = true
  | [.node _, _, .node _], [.node _, _, .node _], same =>
    have ⟨name, rest⟩ := Bool.and_eq_true_iff.mp same
    Bool.and_eq_true_iff.mpr ⟨beq_iff_eq.mpr (eq_of_beq name).symm, sameTag_symm rest⟩

end

theorem sameTag?_symm : ∀ {n m : Option Node}, sameTag? n m = true → sameTag? m n = true
  | some _, some _, same => sameTag_symm same

def IsReported (tag : Node) (frame : Scanner.Frame) (reported : Nat → Prop) : Prop :=
  ∃ name ∈ tag.tagName?, reported (name.startIn frame.text)

def IsWholeEnd (closing : Node) (frame : Scanner.Frame) : Prop :=
  Text.startsAt frame.text closing.pos "</" = true ∧
    ∃ u : Scanner, u.frame = frame ∧ u.pos = closing.pos + 2 ∧ u.scan.token = .greaterThanToken ∧
      u.scan.pos = closing.stop

/-- The closing tag of a fragment breaks off behind `</`, and that was reported at the token that follows. -/
def IsBrokenEnd (closing : Node) (frame : Scanner.Frame) (reported : Nat → Prop) : Prop :=
  Text.startsAt frame.text closing.pos "</" = true ∧
    ∃ u : Scanner, u.frame = frame ∧ u.pos = closing.pos + 2 ∧ reported u.scan.tokenStart

theorem IsReported.mono {tag : Node} (h : tag.IsReported frame reported)
    (le : ∀ offset, reported offset → reported' offset) : tag.IsReported frame reported' :=
  have ⟨name, named, found⟩ := h
  ⟨name, named, le _ found⟩

theorem IsBrokenEnd.mono {n : Node} (h : n.IsBrokenEnd frame reported)
    (le : ∀ offset, reported offset → reported' offset) : n.IsBrokenEnd frame reported' :=
  have ⟨written, u, same, pos, found⟩ := h
  ⟨written, u, same, pos, le _ found⟩

end Node

def Form.IsPaired (frame : Scanner.Frame) (reported : Nat → Prop) : Form → Prop
  | .jsxElement opening _ closing => Node.sameTag? opening.tagName? closing.tagName? = true ∨
      opening.IsReported frame reported ∨ closing.IsReported frame reported
  | .jsxFragment _ _ closing =>
      closing.IsWholeEnd frame ∨ reported closing.pos ∨ closing.IsBrokenEnd frame reported
  | _ => True

theorem Form.IsPaired.mono {form : Form} (h : form.IsPaired frame reported)
    (le : ∀ offset, reported offset → reported' offset) : form.IsPaired frame reported' := by
  cases form
  case jsxElement => exact h.imp_right (Or.imp (·.mono le) (·.mono le))
  case jsxFragment => exact h.imp_right (Or.imp (le _) (·.mono le))
  all_goals trivial

theorem Form.isPaired_of_untagged {form : Form} (other : form.shape.isTagged = false) :
    form.IsPaired frame reported := by
  cases form
  case jsxElement => cases other
  case jsxFragment => cases other
  all_goals trivial

end

/-! ## Reports -/

namespace Parse

theorem errorAt_reports (start stop : Nat) (fault : Fault) (args : List String) :
    (errorAt start stop fault args g s).2.Reports start :=
  Diagnostic.Collection.hasStart_addUniqueStart _ rfl

theorem errorHere_reports (fault : Fault) (args : List String) :
    (errorHere fault args g s).2.Reports s.scanner.tokenStart :=
  errorAt_reports (g := g) ..

theorem errorAtNode_reports (n : Node) (fault : Fault) (args : List String) :
    (errorAtNode n fault args g s).2.Reports (n.startIn s.text) :=
  errorAt_reports (g := g) ..

def isTagOfParent (closingName : Node) (p : Node) : Bool :=
  p.kind == .jsxOpeningElement && Node.sameTag? (some closingName) p.tagName?

/-- A closing tag of another name is reported: at the opening tag if it is the one of the element around,
and else where it stands. -/
theorem errorClosingMismatch_run {opening closing name closingName : Node} (parentTag : Option Node)
    (named : opening.tagName? = some name) (closed : closing.tagName? = some closingName)
    (other : ¬ Node.sameTag? opening.tagName? closing.tagName? = true) :
    ∃ fault args, errorClosingMismatch opening closing parentTag g s =
      errorAtNode (if parentTag.any (isTagOfParent closingName) then name else closingName) fault args g s := by
  unfold errorClosingMismatch
  rw [if_neg other, named, closed, bind_run]
  cases parentTag with
  | none => exact ⟨_, _, rfl⟩
  | some p =>
    rw [Option.any_some, isTagOfParent]
    cases found : p.kind == .jsxOpeningElement && Node.sameTag? (some closingName) p.tagName? with
    | true =>
      simp only [found, if_true]
      exact ⟨_, _, rfl⟩
    | false =>
      simp only [found]
      exact ⟨_, _, rfl⟩

end Parse

/-- What an element may begin with: no element itself, and with a name if it is an opening tag. -/
structure Node.IsTag (n : Node) : Prop where
  other : n.elementNames? = none
  named : n.kind = .jsxOpeningElement → n.tagName?.isSome = true

namespace Parse

theorem openingTag_isTag (inExpression : Bool) :
    Leads g Anywhere (openingTag inExpression) (fun n _ => n.IsTag) := by
  unfold openingTag
  refine .rest fun pos => .rest fun _ => .rest fun ends => .choose (fun _ => ?_) fun _ => ?_
  · exact .rest fun _ => .finish fun _ _ _ => ⟨rfl, nofun⟩
  refine .rest fun name => .rest fun js => .choose (fun _ => .rest fun _ => ?_) fun _ => .rest fun _ => ?_
  all_goals
    refine .rest fun attributes => .rest fun ends => .choose (fun _ => ?_) fun _ => ?_
    · exact .rest fun _ => .finish fun _ _ _ => ⟨rfl, fun _ => rfl⟩
    refine .rest fun _ => .rest fun found => .choose (fun _ => .rest fun _ => ?_) fun _ => ?_
    all_goals exact .finish fun _ _ _ => ⟨rfl, nofun⟩

theorem closingTag_named (opening : Node) (inExpression : Bool) :
    Leads g Anywhere (closingTag opening inExpression) (fun n _ => n.tagName?.isSome = true) := by
  unfold closingTag spanning
  refine .rest fun pos => .seq (J := fun form _ => ∃ name, form = .named name) ?_ ?_
  · refine .rest fun _ => .rest fun name => .rest fun found => .choose (fun _ => .rest fun _ => ?_) fun _ => ?_
    all_goals exact .pure fun _ _ => ⟨name, rfl⟩
  · rintro _ s ⟨name, rfl⟩
    exact rfl

/-! ## Children -/

/-- A child that took the closing tag of the element around it has an opening tag where that was reported. -/
def TellsTaken (opening child : Node) (s : ParserState) : Prop :=
  tookClosingTag opening child = true → ∀ tag l closing, child.form = .jsxElement tag l closing →
    tag.IsReported s.scanner.frame s.Reports

theorem tookClosingTag_eq {opening child : Node} (took : tookClosingTag opening child = true) :
    ∃ name closing, child.elementNames? = some (name, closing) ∧ ¬ Node.sameTag? name closing = true ∧
      Node.sameTag? opening.tagName? closing = true := by
  unfold tookClosingTag at took
  split at took
  · rename_i name closing found
    obtain ⟨other, same⟩ := Bool.and_eq_true_iff.mp took
    exact ⟨name, closing, found, fun h => by simp [h] at other, same⟩
  · cases took

theorem tellsTaken_of_none {opening child : Node} (other : child.elementNames? = none) (s : ParserState) :
    TellsTaken opening child s := by
  intro took
  obtain ⟨_, _, found, -⟩ := tookClosingTag_eq took
  cases other.symm.trans found

end Parse

/-- A child that is read by its name reports the closing tag that it took. -/
def Productions.TellTaken (g : Productions) : Prop :=
  ∀ (opening : Node) (s : ParserState), opening.kind = .jsxOpeningElement →
    ∀ n ∈ (call? (.element { inExpression := false, parentTag := some opening }) g s).1,
      TellsTaken opening n (call? (.element { inExpression := false, parentTag := some opening }) g s).2

namespace Parse

theorem elementText_other : Leads g Anywhere elementText (fun n _ => n.elementNames? = none) := by
  unfold elementText
  exact .rest fun pos => .rest fun kind => .rest fun text => .rest fun _ => .finish fun _ _ _ => rfl

theorem expectWith_of_eq {kind : Kind} (on : s.scanner.token = kind) (fault : Option Fault) (advance : Bool) :
    expectWith kind fault advance g s = (true, if advance then (skipToken g s).2 else s) := by
  unfold expectWith
  rw [bind_run, show (tokenIs kind g s).1 = true from beq_iff_eq.mpr on]
  cases advance <;> rfl

theorem expectWith_of_ne {kind : Kind} (off : s.scanner.token ≠ kind) (fault : Option Fault) (advance : Bool) :
    expectWith kind fault advance g s = (false, (errorExpected kind fault g s).2) := by
  unfold expectWith
  rw [bind_run, show (tokenIs kind g s).1 = false from beq_eq_false_iff_ne.mpr off]
  rfl

def IsOther (x : Option Node) : Prop := ∃ n, x = some n ∧ n.elementNames? = none

theorem bracedExpression?_value (isValue : Bool) : IsOther (bracedExpression? isValue g s).1 ∨
    (bracedExpression? isValue g s).1 = none ∧ s.scanner.token ≠ .openBraceToken := by
  have made (pos : Nat) (dots e : Option Node) : Leads g Anywhere
      (do return some (← finish .jsxExpression pos (.jsxExpression dots e))) (fun x _ => IsOther x) :=
    fun _ _ => ⟨_, rfl, rfl⟩
  unfold bracedExpression? expect
  dsimp only
  rw [bind_run, bind_run, show (nodePos g s).2 = s from rfl]
  by_cases opened : s.scanner.token = .openBraceToken
  · rw [expectWith_of_eq opened]
    refine .inl (Leads.rest (P := Anywhere) (p := tokenIs .closeBraceToken) (K := fun x _ => IsOther x)
      (fun closed => ?_) trivial)
    refine .choose (fun _ => ?_) fun _ => .choose (fun _ => .rest fun dots => .rest fun e => ?_) fun _ =>
      .rest fun e => ?_
    all_goals
      refine .choose (fun _ => .rest fun _ => made _ _ _) fun _ => .rest fun found => ?_
      exact .choose (fun _ => .rest fun _ => made _ _ _) fun _ => made _ _ _
  · rw [expectWith_of_ne opened]
    exact .inr ⟨rfl, opened⟩

theorem child?_tells (tell : g.TellTaken) {opening : Node} (element : opening.kind = .jsxOpeningElement)
    (kind : Kind) : ∀ n ∈ (child? opening kind g s).1, TellsTaken opening n (child? opening kind g s).2 := by
  unfold child?
  split
  · rintro n ⟨⟩
  · rintro n ⟨⟩
    exact tellsTaken_of_none (elementText_other trivial) _
  · rintro n ⟨⟩
    exact tellsTaken_of_none (elementText_other trivial) _
  · rcases bracedExpression?_value (g := g) (s := s) false with ⟨n, found, other⟩ | ⟨nothing, -⟩
    · rintro _ mem
      cases found.symm.trans mem
      exact tellsTaken_of_none other _
    · rintro _ mem
      cases nothing.symm.trans mem
  · have told := tell opening s element
    change ∀ n ∈ some ((call? _ g s).1.getD _), TellsTaken opening n (call? _ g s).2
    rintro n ⟨⟩
    cases found : (call? (.element { inExpression := false, parentTag := some opening }) g s).1 with
    | none => exact tellsTaken_of_none rfl _
    | some n => exact told n found
  · rintro n ⟨⟩

instance (opening : Node) : Stays (errorNotClosed opening) := by
  have (n : Node) (fault : Fault) (args : List String) : Stays (errorAtNode n fault args) := by
    unfold errorAtNode
    have : Stays sourceText := ⟨fun _ s => .refl s⟩
    infer_instance
  unfold errorNotClosed
  have : Stays sourceText := ⟨fun _ s => .refl s⟩
  split
  · infer_instance
  · split <;> infer_instance

theorem child?_none {opening : Node} (nothing : (child? opening s.scanner.token g s).1 = none) :
    s.Alike (child? opening s.scanner.token g s).2 ∧
      s.scanner.token ∉ [.jsxText, .jsxTextAllWhiteSpaces, .openBraceToken, .lessThanToken] := by
  generalize on : s.scanner.token = kind at *
  unfold child? at nothing ⊢
  split at nothing
  · exact ⟨Stays.stays (p := errorNotClosed opening) g s, by decide⟩
  · cases nothing
  · cases nothing
  · rcases bracedExpression?_value (g := g) (s := s) false with ⟨n, found, -⟩ | ⟨-, other⟩
    · cases found.symm.trans nothing
    · exact absurd on other
  · cases nothing
  · refine ⟨.refl s, ?_⟩
    simp only [List.mem_cons, List.not_mem_nil, or_false]
    rintro (same | same | same | same)
    all_goals simp_all only [imp_false, not_true_eq_false]

end Parse

namespace Scanner

def EndsContent (u : Scanner) : Prop :=
  (u.token = .lessThanSlashToken ∧ Text.startsAt u.text u.fullStart "</" = true ∧ u.pos = u.fullStart + 2) ∨
    u.token = .endOfFileToken ∧ u.tokenStart = u.fullStart

theorem EndsContent.alike {u v : Scanner} (h : u.EndsContent) (alike : u.Alike v) : v.EndsContent := by
  unfold EndsContent at h ⊢
  rwa [alike.place, alike.text] at h

theorem elementText_kind (w : Token.Window) (start : Nat) (overLines : Bool) :
    (elementText w start overLines).kind ∈ [Kind.jsxText, .jsxTextAllWhiteSpaces] := by
  have finish (pos : Nat) (mark : Int) (errors : List Token.ScanError) :
      (elementText.finish w start pos mark errors).kind ∈ [Kind.jsxText, .jsxTextAllWhiteSpaces] := by
    unfold elementText.finish
    dsimp only
    split <;> decide
  have go (fuel pos : Nat) (mark : Int) (errors : List Token.ScanError) :
      (elementText.go w start overLines fuel pos mark errors).kind ∈ [Kind.jsxText, .jsxTextAllWhiteSpaces] := by
    induction fuel generalizing pos mark errors with
    | zero => exact finish ..
    | succ fuel ih =>
      rw [elementText.go]
      split
      · exact finish ..
      · split
        · exact finish ..
        · extract_lets errors
          repeat' split
          all_goals first | exact ih .. | exact finish ..
  exact go ..

theorem scanElementContent_ends (s : Scanner) (overLines : Bool)
    (other : (s.scanElementContent overLines).token ∉
      [.jsxText, .jsxTextAllWhiteSpaces, .openBraceToken, .lessThanToken]) :
    (s.scanElementContent overLines).EndsContent := by
  unfold EndsContent
  rw [scanElementContent] at other ⊢
  simp only [land_token, land_pos, land_fullStart, land_tokenStart, land_text] at other ⊢
  split at other
  · exact .inr ⟨rfl, rfl⟩
  · split at other
    · rename_i closing
      rw [if_pos closing]
      exact .inl ⟨rfl, (Bool.and_eq_true_iff.mp closing).2, rfl⟩
    · refine absurd ?_ other
      split
      · simp
      · split
        · simp
        · have kind := elementText_kind s.fresh.window s.fresh.pos overLines
          simp only [List.mem_cons, List.not_mem_nil, or_false] at kind ⊢
          exact kind.elim .inl fun same => .inr (.inl same)

end Scanner

namespace Parse

/-- To look at the current token as content is to scan it as such. -/
theorem rescanElementToken_run (g : Productions) (s : ParserState) :
    (rescanElementToken g s).1 = (rescanElementToken g s).2.scanner.token ∧
      (s.scanner.rescanElementContent true).Alike (rescanElementToken g s).2.scanner :=
  ⟨rfl, (Stays.stays (p := drainErrors) g
    { s with scanner := s.scanner.rescanElementContent true }).scanner⟩

/-- What is known behind the children of an element: the last one tells where it took a closing tag, and
behind those of a fragment their content ends, unless the reading was cut short. -/
structure ChildrenEnd (opening : Node) (items : List Node) (s : ParserState) : Prop where
  tells : opening.kind = .jsxOpeningElement → ∀ last ∈ items.getLast?, TellsTaken opening last s
  ends : opening.kind ≠ .jsxOpeningElement → s.stalled = true ∨ s.scanner.EndsContent

theorem children_end (tell : g.TellTaken) (opening : Node) :
    Leads g Anywhere (children opening) (fun l s => ChildrenEnd opening l.items s) := by
  let I (items : Array Node) (_ : ParserState) : Prop := opening.kind = .jsxOpeningElement →
    ∀ last ∈ items.toList.getLast?, tookClosingTag opening last = false
  let J (items : Array Node) (s : ParserState) : Prop := ChildrenEnd opening items.toList s
  unfold children withOpenList listFrom
  refine .rest fun pos => .seq (J := J) ?_ fun items => .look (fun _ => rfl) fun stop => .pure fun _ => id
  refine .rest fun s => .rest fun _ => .seq (J := J) ?_ fun items => ?_
  · refine .seq (J := J) ?_ fun items => .pure fun _ => id
    intro s _
    refine Leads.loop (I := I) (J := J) (fun items s holds => ?_) (fun items s holds => ?_) nofun
    · obtain ⟨token, alike⟩ := rescanElementToken_run g s
      rw [bind_run, token, bind_run]
      generalize (rescanElementToken g s).2 = t at alike
      cases found : (child? opening t.scanner.token g t).1 with
      | none =>
        obtain ⟨same, other⟩ := child?_none found
        have ends := Scanner.EndsContent.alike (.alike (Scanner.scanElementContent_ends _ true ?_) alike)
          same.scanner
        · exact ⟨fun element last mem took => absurd took (by simp [holds element last mem]), fun _ => .inr ends⟩
        · exact alike.place ▸ other
      | some n =>
        dsimp only
        split
        · rename_i took
          obtain ⟨element, took⟩ := Bool.and_eq_true_iff.mp took
          have element := eq_of_beq element
          refine ⟨fun _ last mem => ?_, fun other => absurd element other⟩
          rw [Array.toList_push, List.getLast?_concat] at mem
          exact Option.some.inj mem ▸ child?_tells tell element _ n found
        · rename_i other
          intro element last mem
          rw [Array.toList_push, List.getLast?_concat] at mem
          simpa [element, Option.some.inj mem] using other
    · exact ⟨fun element last mem took => absurd took (by simp [holds element last mem]), fun _ => .inl rfl⟩
  · exact fun s holds => ⟨holds.tells, holds.ends⟩

/-! ## Closing tags -/

theorem errorClosingMismatch_tells {opening closing : Node} (parentTag : Option Node)
    (named : opening.tagName?.isSome = true) (closed : closing.tagName?.isSome = true) :
    Leads g Anywhere (errorClosingMismatch opening closing parentTag) (fun _ s =>
      Node.sameTag? opening.tagName? closing.tagName? = true ∨ opening.IsReported s.scanner.frame s.Reports ∨
        closing.IsReported s.scanner.frame s.Reports ∧
          ∀ p ∈ parentTag, p.kind = .jsxOpeningElement →
            ¬ Node.sameTag? closing.tagName? p.tagName? = true) := by
  intro s _
  by_cases same : Node.sameTag? opening.tagName? closing.tagName? = true
  · exact .inl same
  obtain ⟨name, named⟩ := Option.isSome_iff_exists.mp named
  obtain ⟨closingName, closed⟩ := Option.isSome_iff_exists.mp closed
  obtain ⟨fault, args, run⟩ := errorClosingMismatch_run (g := g) (s := s) parentTag named closed same
  rw [run]
  split
  · exact .inr (.inl ⟨name, named, errorAtNode_reports (g := g) ..⟩)
  · rename_i other
    refine .inr (.inr ⟨⟨closingName, closed, errorAtNode_reports (g := g) ..⟩, fun p parent element sameTag => other ?_⟩)
    rw [Option.mem_def.mp parent, Option.any_some, isTagOfParent, element, ← closed, sameTag]
    rfl

theorem takenTag?_eq {opening : Node} {l : NodeList} {tag closing : Node} {inner : NodeList}
    (found : takenTag? opening l = some (tag, inner, closing)) :
    ∃ last, l.items.getLast? = some last ∧ last.form = .jsxElement tag inner closing ∧
      tookClosingTag opening last = true := by
  unfold takenTag? at found
  split at found
  · rename_i last held
    split at found
    · rename_i form
      split at found
      · rename_i took
        cases found
        exact ⟨last, held, form, took⟩
      · cases found
    · cases found
  · cases found

theorem sameTag?_of_takenTag? {opening : Node} {l : NodeList} {tag closing : Node} {inner : NodeList}
    (found : takenTag? opening l = some (tag, inner, closing)) :
    Node.sameTag? opening.tagName? closing.tagName? = true := by
  obtain ⟨last, -, form, took⟩ := takenTag?_eq found
  obtain ⟨_, _, names, -, same⟩ := tookClosingTag_eq took
  rw [Node.elementNames?, form] at names
  cases names
  exact same

theorem elementRest_tells {pos : Nat} {opening p : Node} {place : ElementPlace} (parent : place.parentTag = some p)
    (element : p.kind = .jsxOpeningElement) (named : opening.tagName?.isSome = true) :
    Leads g Anywhere (elementRest pos opening place) (fun n s => TellsTaken p n s) := by
  have names {n : Node} {closing : Node} {l : NodeList} (form : n.form = .jsxElement opening l closing) :
      n.elementNames? = some (opening.tagName?, closing.tagName?) := by rw [Node.elementNames?, form]
  unfold elementRest
  refine .rest fun l => ?_
  split
  · rename_i taken
    refine .rest fun repaired s _ took => ?_
    obtain ⟨_, _, found, other, -⟩ := tookClosingTag_eq took
    cases (names rfl).symm.trans found
    exact absurd (sameTag?_of_takenTag? taken) other
  · refine .seq (closingTag_named opening place.inExpression) fun closing s closed => ?_
    have told := errorClosingMismatch_tells (g := g) place.parentTag named closed (s := s) trivial
    rw [bind_run]
    generalize (errorClosingMismatch opening closing place.parentTag g s).2 = t at told
    intro took tag l' closing' form
    cases form
    obtain ⟨_, _, found, other, same⟩ := tookClosingTag_eq took
    cases (names rfl).symm.trans found
    rcases told with paired | reported | ⟨-, stranger⟩
    · exact absurd paired other
    · exact reported
    · exact absurd (Node.sameTag?_symm same) (stranger p parent element)

theorem oneElement_tells {p : Node} {place : ElementPlace} (parent : place.parentTag = some p)
    (element : p.kind = .jsxOpeningElement) :
    Leads g Anywhere (oneElement place) (fun n s => TellsTaken p n s) := by
  unfold oneElement
  refine .rest fun pos => .seq (openingTag_isTag place.inExpression) fun opening => ?_
  split
  · rename_i kind
    exact fun s isTag => elementRest_tells parent element (isTag.named kind) trivial
  · exact .rest fun l => .rest fun closing s _ => tellsTaken_of_none rfl _
  · exact .pure fun s isTag => tellsTaken_of_none isTag.other _

end Parse

/-! ## Ends of fragments -/

namespace Scanner

theorem scan_go_fullStart (fuel : Nat) (u : Scanner) : (scan.go fuel u).fullStart = u.fullStart := by
  induction fuel generalizing u with
  | zero => exact land_fullStart ..
  | succ fuel ih =>
    rw [scan.go]
    split
    · split
      · rw [ih, report_toTokenState]
      · exact land_fullStart ..
    · exact land_fullStart ..

theorem scan_fullStart (u : Scanner) : u.scan.fullStart = u.pos := scan_go_fullStart _ u.fresh

theorem Alike.frame {u v : Scanner} (h : u.Alike v) : u.frame = v.frame := by
  rw [Scanner.frame, h.text, h.skips]
  rfl

end Scanner

namespace Parse

theorem skipToken_alike (g : Productions) (s : ParserState) : s.scanner.scan.Alike (skipToken g s).2.scanner := by
  have goes_on (t : ParserState) : t.scanner.scan.Alike (nextTokenUnchecked g t).2.scanner :=
    (Stays.stays (p := drainErrors) g { t with scanner := t.scanner.scan }).scanner
  have run : (skipToken g s).2 = ((if s.scanner.token.isWord && s.scanner.flags.meets
      (TokenFlags.unicodeEscape ||| TokenFlags.extendedUnicodeEscape) then do
        errorAt s.scanner.tokenStart s.scanner.pos .escapedKeyword []
        nextTokenUnchecked
      else nextTokenUnchecked : Parse Kind) g s).2 := rfl
  rw [run]
  split
  · exact goes_on (errorAt s.scanner.tokenStart s.scanner.pos .escapedKeyword [] g s).2
  · exact goes_on s

theorem leaveTag_goes_on (toTokens : Bool) (s : ParserState) :
    (leaveTag toTokens g s).2.scanner.fullStart = s.scanner.pos ∧
      (leaveTag toTokens g s).2.scanner.frame = s.scanner.frame := by
  cases toTokens with
  | true =>
    have alike := skipToken_alike g s
    change (skipToken g s).2.scanner.fullStart = _ ∧ (skipToken g s).2.scanner.frame = _
    rw [← alike.frame, ← alike.place, Scanner.scan_fullStart, Scanner.frame_scan]
    exact ⟨rfl, rfl⟩
  | false =>
    have alike := (Stays.stays (p := drainErrors) g
      { s with scanner := s.scanner.scanElementContent true }).scanner
    change (skipElementToken g s).2.scanner.fullStart = _ ∧ (skipElementToken g s).2.scanner.frame = _
    rw [show (skipElementToken g s).2 = (drainErrors g _).2 from rfl, ← alike.frame, ← alike.place]
    exact ⟨Scanner.land_fullStart .., Scanner.frame_land ..⟩

end Parse

def ParserState.StaysStalled (s t : ParserState) : Prop := s.stalled = true → t.stalled = true

instance : Motion ParserState.StaysStalled where
  refl _ := id
  trans h h' := h' ∘ h
  notes h := h.stalled
  goes _ := id
  returns h := h
  asks _ _ := id

namespace Parse

/-- Where a fragment should end with `>`, the reading leaves the tag or reports what stands there. -/
theorem closingFragment_run (inExpression : Bool) {s t : ParserState} (begun : (require .lessThanSlashToken g s).2 = t) :
    closingFragment inExpression g s = finish .jsxClosingFragment s.scanner.fullStart .token g
      (if t.scanner.token = .greaterThanToken then (leaveTag inExpression g t).2
      else (errorHere .fragmentClosingExpected [] g t).2) := by
  unfold closingFragment spanning
  rw [bind_run, bind_run, bind_run, bind_run, show (nodePos g s).2 = s from rfl, begun]
  by_cases found : t.scanner.token = .greaterThanToken
  · rw [expectWith_of_eq found, if_pos found]
    rfl
  · rw [expectWith_of_ne found, if_neg found]
    rfl

theorem require_of_eq {kind : Kind} (on : s.scanner.token = kind) : (require kind g s).2 = (skipToken g s).2 := by
  change (expectWith kind none true g s).2 = _
  rw [expectWith_of_eq on]
  rfl

theorem require_of_ne {kind : Kind} (off : s.scanner.token ≠ kind) :
    (require kind g s).2 = (errorExpected kind none g s).2 := by
  change (expectWith kind none true g s).2 = _
  rw [expectWith_of_ne off]

/-- The end of a fragment is whole, or it was reported where it is missing or breaks off. -/
theorem closingFragment_tells (inExpression : Bool) :
    Leads g (fun s => s.stalled = true ∨ s.scanner.EndsContent) (closingFragment inExpression) (fun n s =>
      s.stalled = true ∨ n.IsWholeEnd s.scanner.frame ∨ s.Reports n.pos ∨
        n.IsBrokenEnd s.scanner.frame s.Reports) := by
  rintro s (stalled | ⟨closing, written, pos⟩ | ⟨ended, start⟩)
  · have goes : Goes ParserState.StaysStalled (do
        require .lessThanSlashToken
        if ← expectWith .greaterThanToken (some .fragmentClosingExpected) false then leaveTag inExpression
        return Form.token) := inferInstance
    exact .inl (goes.leads g s stalled)
  · have alike := skipToken_alike g s
    have begun := require_of_eq (g := g) closing
    generalize (skipToken g s).2 = t at alike begun
    have frame : t.scanner.frame = s.scanner.frame := alike.frame.symm.trans Scanner.frame_scan
    rw [closingFragment_run inExpression begun]
    split
    · rename_i found
      obtain ⟨stop, same⟩ := leaveTag_goes_on (g := g) inExpression t
      have same := same.trans frame
      refine .inr (.inl ⟨?_, s.scanner, same.symm, pos, ?_, ?_⟩)
      · exact congrArg Scanner.Frame.text same ▸ written
      · exact (congrArg TokenState.token alike.place).trans found
      · exact (congrArg TokenState.pos alike.place).trans stop.symm
    · refine .inr (.inr (.inr ⟨?_, s.scanner, frame.symm, pos, ?_⟩))
      · exact congrArg Scanner.Frame.text frame ▸ written
      · exact congrArg TokenState.tokenStart alike.place ▸ errorHere_reports (g := g) ..
  · have other : s.scanner.token ≠ .lessThanSlashToken := by simp [ended]
    have begun := require_of_ne (g := g) other
    have same : (errorExpected .lessThanSlashToken none g s).2.scanner = s.scanner := rfl
    rw [closingFragment_run inExpression begun, if_neg (by simp [same, ended])]
    refine .inr (.inr (.inl ?_))
    change ParserState.Reports _ s.scanner.fullStart
    rw [← start]
    exact errorHere_reports (g := g) ..

end Parse

/-- However deep calls are nested, elements that are called for children tell what they took. -/
theorem Productions.upTo_tellTaken (depth : Nat) : (Productions.upTo depth).TellTaken := by
  intro opening s element
  cases depth with
  | zero => nofun
  | succ depth =>
    rintro n ⟨⟩
    have place : ElementPlace.parentTag { inExpression := false, parentTag := some opening } = some opening := rfl
    exact oneElement_tells (g := .upTo depth) (s := s) place element trivial

end ScriptFrontend
