import ScriptFrontend.Proofs.Nesting.File
import ScriptFrontend.Proofs.Text.Boundary
import ScriptFrontend.Proofs.Tree.Relocation
import ScriptFrontend.Source.Update

/-!
# Updated files

A change is accepted if and only if it makes the new text of the old one. How far it reaches back over
the old tree is told by a change with the same ends, which is accepted as well. Where a check fails, be
it of a change or of a node of the moved tree, the new text is read as if there were no old file.
-/

namespace ScriptFrontend

/-! ## Changes -/

namespace Text.Change

variable {c : Change} {old new : String} {i j count : Nat}

structure InWords (c : Change) : Prop where
  old : c.span.start + c.span.length < offsetLimit
  new : c.span.start + c.newLength < offsetLimit

theorem InWords.stop_eq (h : c.InWords) : c.span.stop = c.span.start + c.span.length := wrap_of_lt h.old

theorem InWords.newStop_eq (h : c.InWords) : c.newSpan.stop = c.span.start + c.newLength := wrap_of_lt h.new

/-- The new text is the old one up to the change, what the change put in, and the old text behind it. -/
structure Describes (c : Change) (old new : String) : Prop where
  inside : c.span.start + c.span.length ≤ old.utf8ByteSize
  inside' : c.span.start + c.newLength ≤ new.utf8ByteSize
  replaces : new.toByteArray = old.toByteArray.extract 0 c.span.start ++
    new.toByteArray.extract c.span.start (c.span.start + c.newLength) ++
      old.toByteArray.extract (c.span.start + c.span.length) old.utf8ByteSize

end Text.Change

theorem Text.replaced_iff {old new : ByteArray} {start length newLength : Nat}
    (inside : start + length ≤ old.size)
    (inside' : start + newLength ≤ new.size) :
    new = old.extract 0 start ++ new.extract start (start + newLength) ++ old.extract (start + length) old.size ↔
      old.size + newLength = new.size + length ∧ old.extract 0 start = new.extract 0 start ∧
        old.extract (start + length) old.size = new.extract (start + newLength) new.size := by
  have leadSize : (old.extract 0 start).size = start := by rw [ByteArray.size_extract]; omega
  have putSize : (new.extract start (start + newLength)).size = newLength := by rw [ByteArray.size_extract]; omega
  have tailSize : (old.extract (start + length) old.size).size = old.size - (start + length) := by
    rw [ByteArray.size_extract, Nat.min_self]
  generalize put : new.extract start (start + newLength) = middle at putSize
  constructor
  · intro same
    have size : new.size = start + newLength + (old.size - (start + length)) := by
      rw [same, ByteArray.size_append, ByteArray.size_append, leadSize, putSize, tailSize]
    refine ⟨by omega, ?_, ?_⟩
    · rw [same, ByteArray.append_assoc, ByteArray.extract_append_eq_left leadSize.symm]
    · rw [size, same]
      refine (ByteArray.extract_append_eq_right ?_ ?_).symm <;>
        simp only [ByteArray.size_append, leadSize, putSize, tailSize]
  · rintro ⟨-, lead, tail⟩
    rw [lead, tail, ← put, ← ByteArray.extract_eq_extract_append_extract _ (Nat.zero_le _) (Nat.le_add_right _ _),
      ← ByteArray.extract_eq_extract_append_extract _ (Nat.zero_le _) inside', ByteArray.extract_zero_size]

namespace SourceFile

open Text (Change byteAt)

variable {c : Change} {old new : String} {i j count : Nat}

theorem sameBytes_iff : describes.sameBytes old new count i j = true ↔
    ∀ k < count, byteAt old (i + k) = byteAt new (j + k) := by
  induction count generalizing i j with
  | zero => exact ⟨fun _ => nofun, fun _ => rfl⟩
  | succ count ih =>
    rw [describes.sameBytes, Bool.and_eq_true_iff, beq_iff_eq, ih]
    constructor
    · rintro ⟨first, rest⟩ k lt
      cases k with
      | zero => exact first
      | succ k =>
        have byte := rest k (Nat.lt_of_succ_lt_succ lt)
        rwa [Nat.add_right_comm, Nat.add_right_comm j] at byte
    · intro all
      refine ⟨all 0 (Nat.zero_lt_succ _), fun k lt => ?_⟩
      have byte := all (k + 1) (Nat.succ_lt_succ lt)
      rwa [← Nat.add_assoc, ← Nat.add_assoc, Nat.add_right_comm, Nat.add_right_comm j] at byte

theorem sameBytes_iff_extract (inside : i + count ≤ old.utf8ByteSize) (inside' : j + count ≤ new.utf8ByteSize) :
    describes.sameBytes old new count i j = true ↔
      old.toByteArray.extract i (i + count) = new.toByteArray.extract j (j + count) := by
  rw [sameBytes_iff, ByteArray.extract_eq_extract_iff_getElem inside inside']
  refine forall₂_congr fun k lt => ?_
  rw [Text.byteAt_eq_getElem (by omega), Text.byteAt_eq_getElem (by omega)]

structure SizesFit (c : Change) (old new : String) : Prop where
  inside : c.span.start + c.span.length ≤ old.utf8ByteSize
  sizes : old.utf8ByteSize + c.newLength = new.utf8ByteSize + c.span.length

theorem describes_iff (words : c.InWords) (checks : Bool) : describes c old new checks = true ↔
    SizesFit c old new ∧ (checks = true → describes.sameBytes old new c.span.start 0 0 = true ∧
      describes.sameBytes old new (old.utf8ByteSize - c.span.stop) c.span.stop c.newSpan.stop = true) := by
  have fits : SizesFit c old new ↔ c.span.stop ≤ old.utf8ByteSize ∧
      old.utf8ByteSize + c.newLength = new.utf8ByteSize + c.span.length := by
    rw [words.stop_eq]
    exact ⟨fun fits => ⟨fits.inside, fits.sizes⟩, fun fits => ⟨fits.1, fits.2⟩⟩
  have start (inside : c.span.stop ≤ old.utf8ByteSize) : c.span.start ≤ old.utf8ByteSize :=
    Nat.le_trans (Nat.le_add_right _ _) (words.stop_eq ▸ inside)
  rw [describes, fits]
  simp only [Bool.and_eq_true_iff, Bool.or_eq_true_iff, Bool.not_eq_true', decide_eq_true_eq, beq_iff_eq]
  cases checks with
  | false => simp
  | true =>
    simp only [Bool.true_eq_false, false_or, forall_const]
    exact and_congr_right fun fits => and_congr_left' (and_iff_right (start fits.1))

theorem describes_iff_describes (words : c.InWords) : describes c old new true = true ↔ c.Describes old new := by
  have lead (fits : SizesFit c old new) : describes.sameBytes old new c.span.start 0 0 = true ↔
      old.toByteArray.extract 0 c.span.start = new.toByteArray.extract 0 c.span.start := by
    obtain ⟨inside, sizes⟩ := fits
    rw [sameBytes_iff_extract (by omega) (by omega), Nat.zero_add]
  have tail (fits : SizesFit c old new) :
      describes.sameBytes old new (old.utf8ByteSize - c.span.stop) c.span.stop c.newSpan.stop = true ↔
        old.toByteArray.extract (c.span.start + c.span.length) old.utf8ByteSize =
          new.toByteArray.extract (c.span.start + c.newLength) new.utf8ByteSize := by
    obtain ⟨inside, sizes⟩ := fits
    rw [words.stop_eq, words.newStop_eq, sameBytes_iff_extract (by omega) (by omega), Nat.add_sub_cancel' inside]
    rw [show c.span.start + c.newLength + (old.utf8ByteSize - (c.span.start + c.span.length)) =
      new.utf8ByteSize by omega]
  rw [describes_iff words]
  constructor
  · rintro ⟨fits, shared⟩
    have ⟨inside, sizes⟩ := fits
    have inside' : c.span.start + c.newLength ≤ new.utf8ByteSize := by omega
    exact ⟨inside, inside', (Text.replaced_iff inside inside').mpr
      ⟨sizes, (lead fits).mp (shared rfl).1, (tail fits).mp (shared rfl).2⟩⟩
  · rintro ⟨inside, inside', replaces⟩
    obtain ⟨sizes, before, behind⟩ := (Text.replaced_iff inside inside').mp replaces
    have fits : SizesFit c old new := ⟨inside, sizes⟩
    exact ⟨fits, fun _ => ⟨(lead fits).mpr before, (tail fits).mpr behind⟩⟩

/-! ## How far a change reaches back -/

/-- The second change ends where the first one does and starts before it, unless that starts with the text. -/
structure Widens (c a : Change) : Prop where
  words : a.InWords
  start : a.span.start ≤ c.span.start
  before : 0 < c.span.start → a.span.start < c.span.start
  stop : a.span.stop = c.span.stop
  newStop : a.newSpan.stop = c.newSpan.stop
  delta : a.delta = c.delta

/-- A change that starts earlier and has the same ends fits texts that the first one fits. -/
theorem Widens.describes {a : Change} (widens : Widens c a) (words : c.InWords) {checks : Bool}
    (fits : describes c old new checks = true) : describes a old new checks = true := by
  obtain ⟨⟨inside, sizes⟩, shared⟩ := (describes_iff words checks).mp fits
  have stop := widens.stop
  have delta := widens.delta
  have start := widens.start
  rw [widens.words.stop_eq, words.stop_eq] at stop
  rw [Change.delta, Change.delta] at delta
  refine (describes_iff widens.words checks).mpr ⟨⟨by omega, by omega⟩, fun checked => ?_⟩
  obtain ⟨lead, tail⟩ := shared checked
  refine ⟨sameBytes_iff.mpr fun k lt => sameBytes_iff.mp lead k (Nat.lt_of_lt_of_le lt start), ?_⟩
  rw [widens.stop, widens.newStop]
  exact tail

theorem widens_ofStart (words : c.InWords) {start : Nat} (le : start ≤ c.span.start)
    (before : 0 < c.span.start → start < c.span.start) :
    Widens c ⟨Text.Span.ofBounds start c.span.stop, Text.wrap (c.newLength + (c.span.start - start))⟩ := by
  have := words.old
  have := words.new
  have length : (Text.Span.ofBounds start c.span.stop).length = c.span.start + c.span.length - start := by
    rw [words.stop_eq, Text.Span.length_ofBounds (by omega) words.old]
  have newLength : Text.wrap (c.newLength + (c.span.start - start)) = c.newLength + (c.span.start - start) :=
    Text.wrap_of_lt (by omega)
  have inWords : Change.InWords ⟨Text.Span.ofBounds start c.span.stop, c.newLength + (c.span.start - start)⟩ := by
    refine ⟨?_, ?_⟩
    · change start + (Text.Span.ofBounds start c.span.stop).length < Text.offsetLimit
      omega
    · change start + (c.newLength + (c.span.start - start)) < Text.offsetLimit
      omega
  rw [newLength]
  refine ⟨inWords, le, before, ?_, ?_, ?_⟩
  · refine inWords.stop_eq.trans (Eq.trans ?_ words.stop_eq.symm)
    change start + (Text.Span.ofBounds start c.span.stop).length = _
    omega
  · refine inWords.newStop_eq.trans (Eq.trans ?_ words.newStop_eq.symm)
    change start + (c.newLength + (c.span.start - start)) = _
    omega
  · change ((c.newLength + (c.span.start - start) : Nat) : Int) - (Text.Span.ofBounds start c.span.stop).length =
      (c.newLength : Int) - c.span.length
    omega

/-- One step back goes before the offset, unless that is the beginning of the text. -/
theorem back_lt {root : Node} {hi start : Nat} (begins : root.pos = 0) (lies : root.LiesIn 0 hi) (pos : 0 < start) :
    (root.nearestTo start).pos - 1 < start := by
  have := lies.nearestTo_pos_le (begins ▸ Nat.zero_le start)
  omega

theorem widens_affectedBy {root : Node} {hi : Nat} (begins : root.pos = 0) (lies : root.LiesIn 0 hi)
    (words : c.InWords) : Widens c (root.affectedBy c) := by
  have step (start : Nat) : (if start = 0 then 0 else (root.nearestTo start).pos - 1) ≤ start ∧
      (0 < start → (if start = 0 then 0 else (root.nearestTo start).pos - 1) < start) := by
    split
    · exact ⟨Nat.zero_le _, fun pos => by omega⟩
    · rename_i behind
      have lt := back_lt begins lies (Nat.pos_of_ne_zero behind)
      exact ⟨Nat.le_of_lt lt, fun _ => lt⟩
  have first := step c.span.start
  have second := step (if c.span.start = 0 then 0 else (root.nearestTo c.span.start).pos - 1)
  exact widens_ofStart words (Nat.le_trans second.1 first.1) fun pos => Nat.lt_of_le_of_lt second.1 (first.2 pos)

/-! ## Files that were read or updated -/

/-- Files come from readings and from updates, with texts and changes that words can tell. -/
inductive Produced : SourceFile → Prop
  | parse (fileName text : String) (target : ScriptTarget) (kind : ScriptKind) (setParents : Bool) :
      Produced (parse fileName text target kind setParents)
  | parseJson (fileName text : String) : Produced (parseJson fileName text)
  | update {f : SourceFile} (old : Produced f) (text : String) {c : Change} (checks : Bool) (words : c.InWords)
      (short : text.utf8ByteSize < Text.offsetLimit) : Produced (f.update text c checks)

theorem fits_ofChange (words : c.InWords) (fits : SizesFit c old new)
    (short : new.utf8ByteSize < Text.offsetLimit) :
    (Relocation.ofChange c).Fits old.utf8ByteSize new.utf8ByteSize := by
  obtain ⟨inside, sizes⟩ := fits
  have stop : (Relocation.ofChange c).oldStop = c.span.start + c.span.length := words.stop_eq
  have newStop : (Relocation.ofChange c).newStop = c.span.start + c.newLength := words.newStop_eq
  have start : (Relocation.ofChange c).start = c.span.start := rfl
  exact ⟨by omega, by omega, by omega, by omega, short⟩

/-- An old tree in a new text is at hand as one that was read from that text. -/
theorem readWith_isNested {f : SourceFile} {root : Node} {text : String}
    (lies : root.LiesIn 0 text.utf8ByteSize) :
    (f.readWith root text).IsNested :=
  (ofScript_isNested (Front.begins_initial _ _ _ _ _ _ fun c same => by
    cases same
    exact .ofRoot lies) true).1

theorem update_isNested {f : SourceFile} (nested : f.IsNested) {text : String} (words : c.InWords) (checks : Bool)
    (short : text.utf8ByteSize < Text.offsetLimit) : (f.update text c checks).IsNested := by
  have again : (f.readAgain text).IsNested := (parse_isNested f.fileName text f.target f.kind true).1
  rw [update]
  split
  · exact again
  split
  · exact nested
  split
  · exact again
  dsimp only
  split
  · rename_i fits
    have reaches := widens_affectedBy nested.start nested.lies words
    have described := ((describes_iff reaches.words checks).mp (Bool.and_eq_true_iff.mp fits).1).1
    exact readWith_isNested (nested.lies.relocated (fits_ofChange reaches.words described short))
  · exact again

theorem Produced.isNested {f : SourceFile} (produced : f.Produced) : f.IsNested := by
  induction produced with
  | parse => exact (parse_isNested ..).1
  | parseJson => exact (parseJson_isNested ..).1
  | update _ text checks words short ih => exact update_isNested ih words checks short

/-! ## Checks that fail -/

/-- How the tree of a file moves to an edited text. -/
def relocationFor (f : SourceFile) (c : Change) : Relocation := .ofChange (f.root.affectedBy c)

/-- A check of an update fails: of the change, of the one that reaches back, or of a node that the edit
reached. Nodes are looked at in the tree as it was moved to the new text, and only if checks are asked for. -/
inductive FailsCheck (f : SourceFile) (text : String) (c : Change) (checks : Bool) : Prop
  | change (fails : describes c f.text text checks = false)
  | affected (changes : c.isUnchanged = false) (fails : describes (f.root.affectedBy c) f.text text checks = false)
  | node {parent : Option Text.Range} {n : Node} (changes : c.isUnchanged = false) (checked : checks = true)
      (reached : Node.ReachedIn (f.relocationFor c) (f.root.relocated (f.relocationFor c)) parent n)
      (fails : ¬ n.IsSound (f.relocationFor c) f.text text parent)

/-- Where a check fails the new text is read as if there were no old file. -/
theorem update_of_failsCheck {f : SourceFile} {text : String} {checks : Bool}
    (fails : f.FailsCheck text c checks) :
    f.update text c checks = parse f.fileName text f.target f.kind true := by
  have again : f.readAgain text = parse f.fileName text f.target f.kind true := rfl
  rw [update, ← again]
  cases fails with
  | change fails => rw [fails]; rfl
  | affected changes fails =>
    rw [changes]
    dsimp only
    rw [fails, Bool.false_and]
    simp
  | node changes checked reached fails =>
    have unfaithful :
        (f.root.relocated (f.relocationFor c)).isFaithful (f.relocationFor c) f.text text none = false :=
      Bool.eq_false_iff.mpr fun faithful => fails (reached.isSound faithful)
    rw [relocationFor] at unfaithful
    rw [changes, checked]
    dsimp only
    rw [unfaithful, Bool.not_true, Bool.false_or, Bool.and_false]
    simp

/-- With checks, a change is accepted if and only if it makes the new text of the old one. Where a change of
a file is accepted, so is the one that reaches back over its tree, which has the same ends and starts before
it. Whatever check fails, of the change or of a node midway, the update is a reading of the new text. -/
theorem update_is_checked (f : SourceFile) (text : String) {c : Change} (words : c.InWords) :
    (describes c f.text text true = true ↔ c.Describes f.text text) ∧
    (f.Produced → ∀ checks, describes c f.text text checks = true →
      describes (f.root.affectedBy c) f.text text checks = true ∧ Widens c (f.root.affectedBy c)) ∧
    ∀ checks, f.FailsCheck text c checks →
      f.update text c checks = parse f.fileName text f.target f.kind true := by
  refine ⟨describes_iff_describes words, fun produced checks fits => ?_, fun checks => update_of_failsCheck⟩
  have nested := produced.isNested
  have widens := widens_affectedBy nested.start nested.lies words
  exact ⟨widens.describes words fits, widens⟩

/-- A letter is put in, and the first one changes as well, which only checks can tell. -/
theorem update_is_checked_at_first_letter :
    ∃ f : SourceFile, f = parse "a.ts" "let a;" .esNext .ts true ∧ f.text = "let a;" ∧
      Widens ⟨⟨5, 0⟩, 1⟩ (f.root.affectedBy ⟨⟨5, 0⟩, 1⟩) ∧ ¬ Change.Describes ⟨⟨5, 0⟩, 1⟩ f.text "met ab;" ∧
      f.update "met ab;" ⟨⟨5, 0⟩, 1⟩ true = parse f.fileName "met ab;" f.target f.kind true := by
  have text : (parse "a.ts" "let a;" .esNext .ts true).text = "let a;" := (parse_isNested ..).2
  have rejected : describes ⟨⟨5, 0⟩, 1⟩ "let a;" "met ab;" true = false := by decide +kernel
  have ⟨described, widens, again⟩ :=
    update_is_checked (parse "a.ts" "let a;" .esNext .ts true) "met ab;" (c := ⟨⟨5, 0⟩, 1⟩) ⟨by decide, by decide⟩
  refine ⟨_, rfl, text, (widens (.parse ..) false ?_).2, fun describes => ?_, again true (.change ?_)⟩
  · rw [text]
    decide +kernel
  · have accepted := described.mpr describes
    rw [text, rejected] at accepted
    cases accepted
  · rw [text]
    exact rejected

end SourceFile

end ScriptFrontend
