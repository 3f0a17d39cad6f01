import ScriptFrontend.Grammar.Reuse
import ScriptFrontend.Proofs.Reading.Rules

/-!
# Steps of reading

Looking at the state, moving on and reporting: the steps that productions are made of.
-/

namespace ScriptFrontend

open Diagnostic (Fault)
open Parse

variable {D : Discipline} {m : World D} {α : Type} {Q : World D → α → Prop}

/-- A step that changes nothing that a reading relies on. -/
theorem World.At.same {s t : ParserState} (h : m.At s) (scanner : t.scanner = s.scanner)
    (cursor : t.cursor = s.cursor) (stalled : t.stalled = s.stalled) : m.At t where
  placed := scanner ▸ h.placed
  text := by rw [ParserState.text, scanner]; exact h.text
  cursor := cursor ▸ h.cursor
  going := stalled.trans h.going
  offset := scanner ▸ h.offset
  token := scanner ▸ h.token

/-! ## Looking -/

theorem peeks_of_look {p : Parse α} (look : ∀ g s, (p g s).2 = s) : Peeks D m p :=
  ⟨fun _ _ stands => by rw [look]; exact ⟨stands, .refl _⟩⟩

instance : Peeks D m token := peeks_of_look fun _ _ => rfl
instance : Peeks D m nodePos := peeks_of_look fun _ _ => rfl
instance : Peeks D m tokenStart := peeks_of_look fun _ _ => rfl
instance : Peeks D m tokenEnd := peeks_of_look fun _ _ => rfl
instance : Peeks D m tokenValue := peeks_of_look fun _ _ => rfl
instance : Peeks D m tokenText := peeks_of_look fun _ _ => rfl
instance : Peeks D m tokenFlags := peeks_of_look fun _ _ => rfl
instance : Peeks D m isElementVariant := peeks_of_look fun _ _ => rfl
instance : Peeks D m diagnosticCount := peeks_of_look fun _ _ => rfl
instance : Peeks D m afterLineBreak := peeks_of_look fun _ _ => rfl
instance : Peeks D m sourceText := peeks_of_look fun _ _ => rfl
instance : Peeks D m (get : Parse ParserState) := peeks_of_look fun _ _ => rfl
instance (k : Kind) : Peeks D m (tokenIs k) := peeks_of_look fun _ _ => rfl
instance (ks : List Kind) : Peeks D m (tokenIn ks) := peeks_of_look fun _ _ => rfl
instance (flags : NodeFlags) : Peeks D m (inContext flags) := peeks_of_look fun _ _ => rfl
instance : Peeks D m isJavaScript := peeks_of_look fun _ _ => rfl

theorem Reads.seq_look {β : Type} {p : Parse β} {f : β → Parse α} {x : β}
    (look : ∀ (g : Productions) ⦃s : ParserState⦄, m.At s → p g s = (x, s))
    (rest : Reads D Q m (f x)) : Reads D Q m (p >>= f) where
  holds {g} link s stands := by
    have step : (p >>= f) g s = f x g s := by
      change f (p g s).1 g (p g s).2 = _
      rw [look g stands]
    rw [step]
    exact rest.holds link stands

theorem Reads.seq_nodePos {f : Nat → Parse α} (rest : Reads D Q m (f m.offset)) :
    Reads D Q m (nodePos >>= f) :=
  .seq_look (fun _ s stands => by rw [← stands.offset]; rfl) rest

theorem Reads.seq_token {f : Kind → Parse α} (rest : Reads D Q m (f m.token)) :
    Reads D Q m (token >>= f) :=
  .seq_look (fun _ s stands => by rw [← stands.token]; rfl) rest

instance (priority := 1500) Reads.bind_nodePos (f : Nat → Parse α)
    [rest : Reads D Q m (f m.offset)] : Reads D Q m (nodePos >>= f) :=
  .seq_nodePos rest

instance (priority := 1500) Reads.bind_token (f : Kind → Parse α)
    [rest : Reads D Q m (f m.token)] : Reads D Q m (token >>= f) :=
  .seq_token rest

theorem Reads.seq_tokenIs (k : Kind) {f : Bool → Parse α} (rest : Reads D Q m (f (m.token == k))) :
    Reads D Q m (tokenIs k >>= f) :=
  .seq_look (fun _ s stands => by rw [← stands.token]; rfl) rest

theorem Reads.seq_tokenIn (ks : List Kind) {f : Bool → Parse α}
    (rest : Reads D Q m (f (ks.contains m.token))) : Reads D Q m (tokenIn ks >>= f) :=
  .seq_look (fun _ s stands => by rw [← stands.token]; rfl) rest

theorem Reads.seq_sourceText {f : String → Parse α} (rest : Reads D Q m (f D.text)) :
    Reads D Q m (sourceText >>= f) :=
  .seq_look (fun _ s stands => by rw [← stands.text]; rfl) rest

/-- Where a test of the token comes out true, it is known which token stands there. -/
theorem Reads.ask_token {k : Kind} {f : Bool → Parse α} (yes : ∀ w : Shown m k, Reads D Q w.world (f true))
    (no : m.token ≠ k → Reads D Q m (f false)) : Reads D Q m (tokenIs k >>= f) := by
  refine .seq_tokenIs k ?_
  by_cases same : m.token = k
  · rw [beq_iff_eq.mpr same]
    exact yes ⟨same⟩
  · rw [beq_eq_false_iff_ne.mpr same]
    exact no same

instance (priority := 1300) Reads.bind_tokenIs_ite (k : Kind) (p q : Parse α)
    [yes : ∀ w : Shown m k, Reads D Q w.world p] [no : Reads D Q m q] :
    Reads D Q m (tokenIs k >>= fun x => if x = true then p else q) :=
  .ask_token yes fun _ => no

/-- Where a test of the token and of what follows it comes out true, it is known which token stands
there. -/
instance (priority := 1310) Reads.bind_and_tokenIs_ite (k : Kind) (t : Parse Bool) (p q : Parse α)
    [look : ∀ w : Shown m k, Peeks D w.world t] [yes : ∀ w : Shown m k, Reads D Q w.world p]
    [no : Reads D Q m q] :
    Reads D Q m ((tokenIs k <&&> t) >>= fun x => if x = true then p else q) := by
  change Reads D Q m (tokenIs k >>= fun found =>
    (match ToBool.toBool found with
      | true => t
      | false => pure found) >>= fun x => if x = true then p else q)
  exact .ask_token (fun w => .seq_peeks (look w) fun x => .choose (fun _ => yes w) fun _ => no)
    fun _ => no

/-- What follows a test of the token, and what is read after that test, is read once. -/
instance (priority := 1400) Reads.bind_tokenIs_join {β : Type} (k : Kind) (p q : Parse β)
    (f : β → Parse α) [yes : ∀ w : Shown m k, Runs D w.world p] [no : Runs D m q]
    [rest : ∀ (w : Later m) (x : β), Reads D Q w.world (f x)] :
    Reads D Q m (tokenIs k >>= fun x => if x = true then p >>= f else q >>= f) :=
  .ask_token (fun w => .seq (yes w) fun v x _ => rest ⟨v.world, v.before⟩ x) fun _ =>
    .seq no fun w x _ => rest w x

theorem Peeks.seq_look {β : Type} {p : Parse β} {f : β → Parse α} {x : β}
    (look : ∀ (g : Productions) ⦃s : ParserState⦄, m.At s → p g s = (x, s))
    (rest : Peeks D m (f x)) : Peeks D m (p >>= f) where
  holds {g} link s stands := by
    have step : (p >>= f) g s = f x g s := by
      change f (p g s).1 g (p g s).2 = _
      rw [look g stands]
    rw [step]
    exact rest.holds link stands

theorem Peeks.seq_sourceText {f : String → Parse α} (rest : Peeks D m (f D.text)) :
    Peeks D m (sourceText >>= f) :=
  .seq_look (fun _ s stands => by rw [← stands.text]; rfl) rest

theorem Peeks.ask_token {k : Kind} {f : Bool → Parse α}
    (yes : ∀ w : Shown m k, Peeks D w.world (f true)) (no : Peeks D m (f false)) :
    Peeks D m (tokenIs k >>= f) := by
  refine .seq_look (x := m.token == k) (fun _ s stands => by rw [← stands.token]; rfl) ?_
  by_cases same : m.token = k
  · rw [beq_iff_eq.mpr same]
    exact yes ⟨same⟩
  · rw [beq_eq_false_iff_ne.mpr same]
    exact no

instance (priority := 1300) Peeks.bind_tokenIs_ite (k : Kind) (p q : Parse α)
    [yes : ∀ w : Shown m k, Peeks D w.world p] [no : Peeks D m q] :
    Peeks D m (tokenIs k >>= fun x => if x = true then p else q) :=
  .ask_token yes no

instance (priority := 1300) Peeks.and_tokenIs (k : Kind) (p : Parse Bool)
    [yes : ∀ w : Shown m k, Peeks D w.world p] : Peeks D m (tokenIs k <&&> p) :=
  .ask_token yes (.pure false)

theorem World.Live.of_test {test : Kind → Bool} (h : test m.token = true)
    (fails : test .endOfFileToken = false) : m.Live :=
  ⟨fun same => by rw [same, fails] at h; cases h⟩

/-- A token that is none of some kinds, among them the end. -/
theorem World.Live.of_not_in {ks : List Kind} (h : ¬ ks.contains m.token = true)
    (all : ks.contains .endOfFileToken = true) : m.Live :=
  ⟨fun same => h (same ▸ all)⟩

theorem World.Live.of_token {k : Kind} [solid : Holds k.isSolid] (h : m.token = k) : m.Live :=
  ⟨h ▸ Kind.ne_of_isSolid solid.eq⟩

/-- One of some kinds stands there, none of which is the end. -/
theorem Reads.ask_tokenIn {ks : List Kind} {f : Bool → Parse α}
    (solid : ks.contains .endOfFileToken = false) (yes : ∀ w : Alive m, Reads D Q w.world (f true))
    (no : Reads D Q m (f false)) : Reads D Q m (tokenIn ks >>= f) := by
  refine .seq_tokenIn ks ?_
  cases found : ks.contains m.token with
  | true => exact yes ⟨⟨m, .refl m⟩, .of_test found solid⟩
  | false => exact no

/-- What is asked where one of some kinds stands, none of which is the end. -/
theorem Peeks.and_tokenIn {ks : List Kind} {p : Parse Bool}
    (solid : ks.contains .endOfFileToken = false) (rest : m.Live → Peeks D m p) :
    Peeks D m (tokenIn ks <&&> p) := by
  refine .seq_look (x := ks.contains m.token) (fun _ s stands => by rw [← stands.token]; rfl) ?_
  cases found : ks.contains m.token with
  | true => exact rest (.of_test found solid)
  | false => exact .pure false

/-! ## Moving on -/

theorem modifyScanner_reads {f : Scanner → Scanner} {g : Productions} {s : ParserState}
    (stands : m.At s) (moved : s.scanner.MovesTo (f s.scanner)) :
    ∃ w : World D, m.Before w ∧ w.At (modifyScanner f g s).2 ∧ s.Follows (modifyScanner f g s).2 ∧
      w.offset = (f s.scanner).fullStart ∧ w.token = (f s.scanner).token := by
  have text : (f s.scanner).text = D.text := moved.text.trans stands.text
  have forward : m.offset ≤ (f s.scanner).fullStart := stands.offset ▸ moved.forward
  have inside : (f s.scanner).fullStart ≤ D.size := by
    rw [Discipline.size, ← text]
    exact moved.placed.fullStart_le
  have live := moved.live
  rw [stands.offset, stands.token] at live
  exact ⟨⟨(f s.scanner).fullStart, (f s.scanner).token, inside, m.above.mono forward⟩,
    ⟨forward, live⟩, ⟨⟨moved.placed, text, stands.cursor, stands.going⟩, rfl, rfl⟩,
    ⟨⟨rfl, rfl, rfl, rfl, rfl, rfl, rfl, List.Subset.refl _, List.prefix_refl _, id⟩, moved.stop.ge,
      moved.whole⟩, rfl, rfl⟩

/-- The scanner goes on wherever it stands. -/
class Moves (f : Scanner → Scanner) : Prop where
  moves : ∀ {c : Scanner}, c.Placed → c.MovesTo (f c)

class Leaves (f : Scanner → Scanner) : Prop where
  passes : ∀ {c : Scanner}, c.Placed → c.Passes (f c)

instance (f : Scanner → Scanner) [h : Leaves f] : Moves f := ⟨fun placed => (h.passes placed).toMovesTo⟩

instance (f : Scanner → Scanner) [h : Moves f] : Runs D m (modifyScanner f) where
  holds _ _ stands :=
    have ⟨w, before, after, follows, _⟩ := modifyScanner_reads stands (h.moves stands.placed)
    ⟨w, before, after, follows, trivial⟩

instance (f : Scanner → Scanner) [h : Leaves f] [live : m.Live] : Steps D m (modifyScanner f) where
  reads := ⟨fun _ s stands => by
    have passes := h.passes stands.placed
    obtain ⟨w, before, after, follows, offset, _⟩ := modifyScanner_reads stands passes.toMovesTo
    refine ⟨w, before, after, follows, ?_⟩
    rw [Behind, offset, ← stands.offset]
    exact passes.past (stands.token ▸ live.token)⟩

instance : Leaves Scanner.scan := ⟨Scanner.scan_passes⟩
instance : Leaves Scanner.scanDoc := ⟨Scanner.scanDoc_passes⟩
instance : Leaves Scanner.scanAttributeValue := ⟨Scanner.scanAttributeValue_passes⟩
instance (overLines : Bool) : Leaves (·.scanElementContent overLines) :=
  ⟨fun placed => Scanner.scanElementContent_passes placed overLines⟩
instance : Moves Scanner.rescanGreater := ⟨Scanner.rescanGreater_moves⟩
instance : Moves Scanner.rescanLess := ⟨Scanner.rescanLess_moves⟩
instance : Moves Scanner.rescanSlash := ⟨Scanner.rescanSlash_moves⟩
instance : Moves Scanner.scanElementName := ⟨Scanner.scanElementName_moves⟩
instance (overLines : Bool) : Moves (·.rescanElementContent overLines) :=
  ⟨fun placed => Scanner.rescanElementContent_moves placed overLines⟩

instance (report : Bool) [live : m.Live] : Lives D m (modifyScanner (·.rescanTemplate report)) where
  reads := ⟨fun _ s stands => by
    have wide := stands.placed.live (stands.token ▸ live.token)
    obtain ⟨w, before, after, follows, _, token⟩ :=
      modifyScanner_reads (f := (·.rescanTemplate report)) stands
        (Scanner.rescanTemplate_moves stands.placed wide report)
    refine ⟨w, before, after, follows, ⟨?_⟩⟩
    rw [token]
    exact Kind.ne_end_of_isPlain (Scanner.rescanTemplate_kind s.scanner report)⟩

theorem peeks_of_same_place {f : Scanner → Scanner}
    (place : ∀ c, (f c).toTokenState = c.toTokenState) (text : ∀ c, (f c).text = c.text)
    (stop : ∀ c, (f c).stop = c.stop) (skips : ∀ c, (f c).skipsTrivia = c.skipsTrivia) :
    Peeks D m (modifyScanner f) where
  holds _ _ stands :=
    ⟨⟨⟨stands.placed.same (place _) (text _) (stop _) (skips _), (text _).trans stands.text,
        stands.cursor, stands.going⟩,
      (congrArg _ (place _)).trans stands.offset, (congrArg _ (place _)).trans stands.token⟩,
      ⟨rfl, rfl, rfl, rfl, rfl, rfl, rfl, List.Subset.refl _, List.prefix_refl _, id⟩, (stop _).ge,
      fun whole => whole.same (place _) (text _) (stop _)⟩

instance : Peeks D m (modifyScanner Scanner.forgetErrors) :=
  peeks_of_same_place (fun _ => rfl) (fun _ => rfl) (fun _ => rfl) fun _ => rfl

instance : Peeks D m (modifyScanner Scanner.enterDocType) :=
  peeks_of_same_place (fun _ => rfl) (fun _ => rfl) (fun _ => rfl) fun _ => rfl

instance : Peeks D m (modifyScanner Scanner.leaveDocType) :=
  peeks_of_same_place (fun _ => rfl) (fun _ => rfl) (fun _ => rfl) fun _ => rfl

/-! ## Reporting -/

instance (start length : Nat) (fault : Fault) (args : List String) :
    Peeks D m (errorAtSpan start length fault args) where
  holds _ _ stands := ⟨stands.same rfl rfl rfl,
    ⟨rfl, rfl, rfl, rfl, rfl, rfl, rfl, List.Subset.refl _, Diagnostic.Collection.addUniqueStart_prefix _ _,
      fun distinct => distinct.addUniqueStart _⟩,
    Nat.le_refl _, id⟩

instance (start stop : Nat) (fault : Fault) (args : List String) :
    Peeks D m (errorAt start stop fault args) := by
  unfold errorAt
  infer_instance

instance (fault : Fault) (args : List String) : Peeks D m (errorHere fault args) := by
  unfold errorHere
  infer_instance

instance (n : Node) (fault : Fault) (args : List String) : Peeks D m (errorAtNode n fault args) := by
  unfold errorAtNode
  infer_instance

instance : Peeks D m drainErrors := by
  unfold drainErrors
  dsimp only
  infer_instance

/-! ## Tokens -/

instance : Reads D IsToken m token :=
  ⟨fun _ _ stands => ⟨m, .refl m, stands, .refl _, stands.token⟩⟩

/-- The reading gives the token that it comes to. -/
class Scans (D : Discipline) (m : World D) (p : Parse Kind) : Prop where
  reads : Reads D IsToken m p

/-- The reading passes a token and gives the one that it comes to. -/
class Skips (D : Discipline) (m : World D) (p : Parse Kind) : Prop where
  reads : Reads D (fun w k => IsToken w k ∧ m.offset < w.offset) m p

instance (priority := 1200) Reads.bind_scans (p : Parse Kind) (f : Kind → Parse α)
    [first : Scans D m p] [rest : ∀ w : Later m, Reads D Q w.world (f w.world.token)] :
    Reads D Q m (p >>= f) :=
  .seq first.reads fun w _ is_token => is_token ▸ rest w

instance (priority := 1250) Reads.bind_skips (p : Parse Kind) (f : Kind → Parse α)
    [first : Skips D m p] [rest : ∀ w : Past m, Reads D Q w.world (f w.world.token)] :
    Reads D Q m (p >>= f) :=
  .seq first.reads fun w _ ⟨is_token, past⟩ => is_token ▸ rest ⟨w, past⟩

instance (priority := 50) Runs.of_scans (p : Parse Kind) [h : Scans D m p] : Runs D m p := h.reads.any

instance (priority := 60) Runs.of_skips (p : Parse Kind) [h : Skips D m p] : Runs D m p := h.reads.any

instance Reads.isToken_of_scans (p : Parse Kind) [h : Scans D m p] : Reads D IsToken m p := h.reads

theorem Skips.of_step {p : Parse Unit} {q : Parse Kind} (first : Steps D m p)
    (rest : ∀ w : Past m, Scans D w.world q) : Skips D m (p >>= fun _ => q) :=
  ⟨.seq_steps first fun w _ => (rest w).reads.imp fun _ _ before is_token =>
    ⟨is_token, Nat.lt_of_lt_of_le w.past before.offset⟩⟩

instance : Scans D m nextTokenUnchecked := by
  unfold nextTokenUnchecked
  exact ⟨inferInstance⟩

instance [m.Live] : Skips D m nextTokenUnchecked := by
  unfold nextTokenUnchecked
  exact .of_step inferInstance fun w => ⟨inferInstance⟩

instance : Scans D m nextToken := by
  unfold nextToken
  exact ⟨inferInstance⟩

instance [m.Live] : Skips D m nextToken := by
  unfold nextToken
  refine ⟨.seq_peeks inferInstance fun s => ?_⟩
  dsimp only
  have next : Reads D (fun w k => IsToken w k ∧ m.offset < w.offset) m nextTokenUnchecked :=
    Skips.reads
  exact .choose (fun _ => .seq_peeks inferInstance fun _ => next) fun _ => next

instance : Runs D m skipToken := by
  unfold skipToken
  infer_instance

instance [m.Live] : Steps D m skipToken := by
  unfold skipToken
  exact ⟨inferInstance⟩

instance : Scans D m nextDocToken := by
  unfold nextDocToken
  exact ⟨inferInstance⟩

instance [m.Live] : Skips D m nextDocToken := by
  unfold nextDocToken
  exact .of_step inferInstance fun w => ⟨inferInstance⟩

instance : Scans D m rescanGreater := by
  unfold rescanGreater
  exact ⟨inferInstance⟩

instance : Scans D m rescanLess := by
  unfold rescanLess
  exact ⟨inferInstance⟩

instance : Scans D m rescanSlash := by
  unfold rescanSlash
  exact ⟨inferInstance⟩

instance (isTagged : Bool) [m.Live] : Lives D m (rescanTemplate isTagged) := by
  unfold rescanTemplate
  exact ⟨inferInstance⟩

/-! ## Going on from a place without a token -/

/-- The scanner rests at a place in the text, without a token. -/
structure Discipline.Rests (D : Discipline) (s : ParserState) : Prop where
  scanner : s.scanner.Rests
  text : s.text = D.text
  cursor : ∀ c ∈ s.cursor, D.holds c
  going : s.stalled = D.stalled

namespace Discipline.Rests

variable {g : Productions} {s : ParserState}

/-- From a place without a token the scanner comes to one that begins there. -/
theorem scan_lands {f : Scanner → Scanner} (h : D.Rests s) (link : Linked D g)
    (above : D.Covers s.scanner.pos 0)
    (scan : s.scanner.Lands s.scanner.pos (f s.scanner)) :
    ∃ w : World D, w.offset = s.scanner.pos ∧
      w.At ((do modifyScanner f; drainErrors; token : Parse Kind) g s).2 ∧
      s.Follows ((do modifyScanner f; drainErrors; token : Parse Kind) g s).2 := by
  obtain ⟨placed, text, stop, start, last⟩ := scan
  have inside : s.scanner.pos ≤ D.size := by
    rw [Discipline.size, ← h.text]
    exact h.scanner.inside
  let w : World D := ⟨s.scanner.pos, (f s.scanner).token, inside, above⟩
  have stands : w.At (modifyScanner f g s).2 :=
    ⟨⟨placed, text.trans h.text, h.cursor, h.going⟩, start, rfl⟩
  have follows : s.Follows (modifyScanner f g s).2 :=
    ⟨⟨rfl, rfl, rfl, rfl, rfl, rfl, rfl, List.Subset.refl _, List.prefix_refl _, id⟩, stop.ge,
      fun whole => .of_last text stop last whole.stop⟩
  have drained : Peeks D w (do drainErrors; token : Parse Kind) := inferInstance
  obtain ⟨after, follows'⟩ := drained.holds link stands
  exact ⟨w, rfl, after, follows.trans follows'⟩

theorem errorAt (h : D.Rests s) (start stop : Nat) (fault : Fault) (args : List String) :
    D.Rests (Parse.errorAt start stop fault args g s).2 ∧
      s.Follows (Parse.errorAt start stop fault args g s).2 :=
  ⟨⟨h.scanner, h.text, h.cursor, h.going⟩,
    ⟨rfl, rfl, rfl, rfl, rfl, rfl, rfl, List.Subset.refl _, Diagnostic.Collection.addUniqueStart_prefix _ _,
      fun distinct => distinct.addUniqueStart _⟩,
    Nat.le_refl _, id⟩

theorem skipToken_lands (h : D.Rests s) (link : Linked D g) (above : D.Covers s.scanner.pos 0) :
    ∃ w : World D, w.offset = s.scanner.pos ∧ w.At (skipToken g s).2 ∧
      s.Follows (skipToken g s).2 := by
  have run : (skipToken g s).2 = (nextTokenUnchecked g (if s.scanner.token.isWord &&
      s.scanner.flags.meets (TokenFlags.unicodeEscape ||| TokenFlags.extendedUnicodeEscape) then
        (Parse.errorAt s.scanner.tokenStart s.scanner.pos .escapedKeyword [] g s).2 else s)).2 := by
    change ((if _ then _ else _ : Parse Kind) g s).2 = _
    split <;> rfl
  rw [run]
  split
  · obtain ⟨rests, follows⟩ := h.errorAt (g := g) s.scanner.tokenStart s.scanner.pos .escapedKeyword []
    obtain ⟨w, offset, stands, follows'⟩ :=
      rests.scan_lands link above (Scanner.Rests.scan h.scanner)
    exact ⟨w, offset, stands, follows.trans follows'⟩
  · exact h.scan_lands link above (Scanner.Rests.scan h.scanner)

theorem skipDocToken_lands (h : D.Rests s) (link : Linked D g) (above : D.Covers s.scanner.pos 0) :
    ∃ w : World D, w.offset = s.scanner.pos ∧ w.At (nextDocToken g s).2 ∧
      s.Follows (nextDocToken g s).2 :=
  h.scan_lands link above (Scanner.Rests.scanDoc h.scanner)

end Discipline.Rests

end ScriptFrontend
