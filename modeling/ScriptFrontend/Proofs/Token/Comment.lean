import ScriptFrontend.Proofs.Text.Boundary
import ScriptFrontend.Proofs.Token.Reach
import ScriptFrontend.Token.Comment

/-!
# Where comments stand

The comments that are found from an offset on stand there or after it, and inside of the text. They
begin and end between characters.
-/

namespace ScriptFrontend

namespace Text

theorem findByte_go_le (s : String) (p : UInt8 → Bool) (fuel k : Nat) :
    k ≤ findByte.go s p fuel k ∧ findByte.go s p fuel k ≤ k + fuel := by
  induction fuel generalizing k with
  | zero => exact ⟨Nat.le_refl k, Nat.le_refl k⟩
  | succ fuel ih =>
    rw [findByte.go]
    have := ih (k + 1)
    split <;> omega

theorem lineEnd_inside {s : String} {i : Nat} (h : i ≤ s.utf8ByteSize) :
    i ≤ lineEnd s i ∧ lineEnd s i ≤ s.utf8ByteSize := by
  have bounds := findByte_go_le s (fun b => b == 0x0A || b == 0x0D) (s.utf8ByteSize - i) i
  rw [lineEnd, findByte]
  omega

theorem findWord?_go_le {s word : String} {fuel k found : Nat}
    (h : findWord?.go s word fuel k = some found) : k ≤ found ∧ startsAt s found word := by
  induction fuel generalizing k with
  | zero => cases h
  | succ fuel ih =>
    rw [findWord?.go] at h
    split at h
    · rename_i here
      cases h
      exact ⟨Nat.le_refl _, here⟩
    · exact (ih h).imp_left (Nat.le_trans (Nat.le_succ k))

theorem blockCommentEnd_inside {s : String} {i : Nat} (h : i ≤ s.utf8ByteSize) :
    i ≤ blockCommentEnd s i ∧ blockCommentEnd s i ≤ s.utf8ByteSize := by
  rw [blockCommentEnd]
  split
  · rename_i close found
    obtain ⟨le, closes⟩ := findWord?_go_le found
    have inside : close + 2 ≤ s.utf8ByteSize := startsAt_le closes (by decide)
    omega
  · exact ⟨h, Nat.le_refl _⟩

/-- A search for a byte ends at such a byte or at the end of the text. -/
theorem findByte_found {s : String} (p : UInt8 → Bool) {i : Nat} (h : i ≤ s.utf8ByteSize) :
    findByte s p i = s.utf8ByteSize ∨
      findByte s p i < s.utf8ByteSize ∧ p (byteAt s (findByte s p i)) = true := by
  have loop (fuel k : Nat) (reach : k + fuel = s.utf8ByteSize) :
      findByte.go s p fuel k = s.utf8ByteSize ∨
        findByte.go s p fuel k < s.utf8ByteSize ∧ p (byteAt s (findByte.go s p fuel k)) = true := by
    induction fuel generalizing k with
    | zero => exact .inl reach
    | succ fuel ih =>
      rw [findByte.go]
      split
      · rename_i here
        exact .inr ⟨by omega, here⟩
      · exact ih (k + 1) (by omega)
  exact loop _ i (by omega)

theorem lineEnd_boundary {s : String} {i : Nat} (h : i ≤ s.utf8ByteSize) :
    Boundary s (lineEnd s i) := by
  rw [lineEnd]
  rcases findByte_found (fun b => b == 0x0A || b == 0x0D) h with atEnd | ⟨inside, isBreak⟩
  · rw [atEnd]
    exact boundary_size s
  · rw [Bool.or_eq_true, beq_iff_eq, beq_iff_eq] at isBreak
    refine (boundary_of_ascii inside ?_).1
    rcases isBreak with feed | feed <;> rw [feed] <;> decide

theorem blockCommentEnd_boundary (s : String) (i : Nat) : Boundary s (blockCommentEnd s i) := by
  rw [blockCommentEnd]
  split
  · rename_i close found
    obtain ⟨inside, slash⟩ := startsAt_byteAt (k := 1) (findWord?_go_le found).2 (by decide)
    refine (boundary_of_ascii inside ?_).2
    rw [slash]
    decide
  · exact boundary_size s

/-- Where a word stands that begins with a byte of ASCII, a character begins. -/
theorem boundary_of_startsAt {s word : String} {i : Nat} (h : startsAt s i word = true)
    (size : 0 < word.utf8ByteSize) (ascii : byteAt word 0 < 0x80) : Boundary s i := by
  obtain ⟨inside, byte⟩ := startsAt_byteAt h size
  exact (boundary_of_ascii inside (byte ▸ ascii)).1

end Text

namespace Comment

variable {source : String} {c : Comment} {pos : Nat}

/-- A comment that stands at an offset or after it, inside of the text and between characters. -/
structure IsFrom (source : String) (pos : Nat) (c : Comment) : Prop where
  start : pos ≤ c.pos
  order : c.pos ≤ c.stop
  cut : Text.Boundary source c.pos
  cutStop : Text.Boundary source c.stop

theorem IsFrom.inside (h : c.IsFrom source pos) : c.stop ≤ source.utf8ByteSize := h.cutStop.le_size

theorem at?_isFrom (h : at? source pos = some c) : c.pos = pos ∧ c.IsFrom source pos := by
  rw [at?] at h
  split at h
  · rename_i opened
    cases h
    have inside : pos + 2 ≤ source.utf8ByteSize := Text.startsAt_le opened (by decide)
    have order := (Text.lineEnd_inside inside).1
    exact ⟨rfl, Nat.le_refl pos, Nat.le_trans (Nat.le_add_right pos 2) order,
      Text.boundary_of_startsAt opened (by decide) (by decide), Text.lineEnd_boundary inside⟩
  · split at h
    · rename_i opened
      cases h
      have inside : pos + 2 ≤ source.utf8ByteSize := Text.startsAt_le opened (by decide)
      have order := (Text.blockCommentEnd_inside (Nat.le_trans (Nat.le_add_right pos 2) inside)).1
      exact ⟨rfl, Nat.le_refl pos, order, Text.boundary_of_startsAt opened (by decide) (by decide),
        Text.blockCommentEnd_boundary source pos⟩
    · cases h

theorem breakAfterLast_isFrom {found : List Comment} (h : ∀ c ∈ found, c.IsFrom source pos) :
    ∀ c ∈ breakAfterLast found, c.IsFrom source pos := by
  cases found with
  | nil => exact h
  | cons last rest =>
    intro c mem
    rcases List.mem_cons.mp mem with rfl | mem
    · obtain ⟨start, order, cut, cutStop⟩ := h last (List.mem_cons_self ..)
      exact ⟨start, order, cut, cutStop⟩
    · exact h c (List.mem_cons_of_mem _ mem)

theorem collect_go_isFrom (trailing : Bool) (fuel : Nat) {k : Nat} (collecting : Bool)
    {found : List Comment} (le : pos ≤ k) (h : ∀ c ∈ found, c.IsFrom source pos) :
    ∀ c ∈ collect.go source trailing fuel k collecting found, c.IsFrom source pos := by
  induction fuel generalizing k collecting found with
  | zero => exact h
  | succ fuel ih =>
    rw [collect.go]
    split
    · exact h
    · split
      · dsimp only
        split
        · exact h
        · refine ih true ?_ (breakAfterLast_isFrom h)
          split <;> omega
      · split
        · rename_i comment here
          obtain ⟨start, isFrom⟩ := at?_isFrom here
          have order := isFrom.order
          refine ih collecting (by omega) ?_
          split
          · intro c mem
            rcases List.mem_cons.mp mem with rfl | mem
            · exact ⟨by omega, order, isFrom.cut, isFrom.cutStop⟩
            · exact h c mem
          · exact h
        · split
          · exact ih collecting (by omega) (breakAfterLast_isFrom h)
          · split
            · exact ih collecting (by omega) h
            · exact h

theorem le_startFrom (source : String) (pos : Nat) : pos ≤ startFrom source pos := by
  rw [startFrom]
  split
  · rename_i zero
    rw [beq_iff_eq] at zero
    omega
  · exact Nat.le_refl pos

theorem leading_isFrom (h : c ∈ leading source pos) : c.IsFrom source pos :=
  collect_go_isFrom _ _ _ (le_startFrom source pos) (List.forall_mem_nil _) c
    (List.mem_reverse.mp h)

theorem trailing_isFrom (h : c ∈ trailing source pos) : c.IsFrom source pos :=
  collect_go_isFrom _ _ _ (le_startFrom source pos) (List.forall_mem_nil _) c
    (List.mem_reverse.mp h)

end Comment

end ScriptFrontend
