import Mathlib.Logic.Relation
import ScriptFrontend.Proofs.Text.Boundary
import ScriptFrontend.Proofs.Token.Comment

/-!
# Going over trivia

What `triviaStep?` takes for trivia is told by the character at an offset, and where that is a slash
by the byte behind it. A skip goes on step by step to the first offset where there is no more trivia,
so it is known from any row of steps that ends at such an offset.
-/

namespace ScriptFrontend.Text

variable {s : String} {i j : Nat} {c : Char}

/-! ## Searching for a byte -/

/-- The first byte that meets a test is found by what lies before it. -/
theorem findByte_eq {p : UInt8 → Bool} (le : i ≤ j) (inside : j ≤ s.utf8ByteSize)
    (before : ∀ k, i ≤ k → k < j → p (byteAt s k) = false)
    (here : j < s.utf8ByteSize → p (byteAt s j) = true) : findByte s p i = j := by
  have loop (fuel k : Nat) (ge : i ≤ k) (le : k ≤ j) (reach : k + fuel = s.utf8ByteSize) :
      findByte.go s p fuel k = j := by
    induction fuel generalizing k with
    | zero =>
      rw [findByte.go]
      omega
    | succ fuel ih =>
      rw [findByte.go]
      rcases Nat.eq_or_lt_of_le le with rfl | later
      · rw [if_pos (here (by omega))]
      · rw [if_neg (by simp [before k ge later])]
        exact ih (k + 1) (by omega) later (by omega)
  exact loop _ i le_rfl le (by omega)

/-! ## One step -/

theorem toNat_of_ascii (found : charAt? s i = some c) (ascii : byteAt s i < 0x80) :
    c.toNat = (byteAt s i).toNat := by
  obtain ⟨d, bytes, size, encodes⟩ := exists_encodes_of_ascii (lt_size_of_charAt? found) ascii
  cases found.symm.trans encodes.charAt?
  have small : c.toNat ≤ 127 := UInt32.le_iff_toNat_le.mp (Char.utf8Size_eq_one_iff.mp size)
  rw [String.utf8EncodeChar_eq_singleton size] at bytes
  rw [← (List.cons.inj bytes).1, UInt32.toNat_toUInt8, Char.toNat_val]
  omega

theorem ascii_iff (cut : Boundary s i) (found : charAt? s i = some c) :
    byteAt s i < 0x80 ↔ c.toNat < 0x80 := by
  constructor
  · intro ascii
    rw [toNat_of_ascii found ascii]
    exact UInt8.lt_iff_toNat_lt.mp ascii
  · intro small
    have one : c.utf8Size = 1 :=
      Char.utf8Size_eq_one_iff.mpr (UInt32.le_iff_toNat_le.mpr (Nat.le_of_lt_succ small))
    have first := (cut.encodes found).2 0 (by rw [String.length_utf8EncodeChar, one]; decide)
    rw [Nat.add_zero] at first
    simp only [first, String.utf8EncodeChar_eq_singleton one, List.getElem_cons_zero,
      UInt8.lt_iff_toNat_lt, UInt32.toNat_toUInt8, Char.toNat_val]
    exact Nat.lt_of_le_of_lt (Nat.mod_le _ _) small

theorem isUnicodeBlank_of_ascii (small : c.toNat < 0x80) :
    (isUnicodeBlank c || c == '\uFEFF') = (c.toNat == 0x20 || (0x09 ≤ c.toNat && c.toNat ≤ 0x0D)) := by
  have all : ∀ n : Fin 128, (isUnicodeBlank (Char.ofNat n) || Char.ofNat n == '\uFEFF') =
      ((n : Nat) == 0x20 || (0x09 ≤ (n : Nat) && (n : Nat) ≤ 0x0D)) := by
    decide +kernel
  simpa using all ⟨c.toNat, small⟩

theorem triviaStep?_eq (cut : Boundary s i) (found : charAt? s i = some c) :
    triviaStep? s i =
      if c = '/' then
        if byteIs s (i + 1) 0x2F then some (lineEnd s i)
        else if byteIs s (i + 1) 0x2A then some (blockCommentEnd s i)
        else none
      else if isUnicodeBlank c || c == '\uFEFF' then some (i + c.utf8Size)
      else none := by
  have inside := lt_size_of_charAt? found
  rw [triviaStep?, if_pos inside]
  by_cases ascii : byteAt s i < 0x80
  · have same := toNat_of_ascii found ascii
    have small := (ascii_iff cut found).mp ascii
    have high : ¬ byteAt s i ≥ 0x80 := UInt8.not_le.mpr ascii
    by_cases slash : c = '/'
    · subst slash
      have byte : byteAt s i = 0x2F := UInt8.toNat_inj.mp same.symm
      simp [byte]
    · have other : byteAt s i ≠ 0x2F := fun byte =>
        slash (Char.toNat_inj.mp (by rw [same, byte]; rfl))
      have one : c.utf8Size = 1 :=
        Char.utf8Size_eq_one_iff.mpr (UInt32.le_iff_toNat_le.mpr (Nat.le_of_lt_succ small))
      have blank : (byteAt s i == 0x20 || (0x09 ≤ byteAt s i && byteAt s i ≤ 0x0D)) =
          (isUnicodeBlank c || c == '\uFEFF') := by
        rw [isUnicodeBlank_of_ascii small, same, Bool.eq_iff_iff]
        simp only [Bool.or_eq_true, Bool.and_eq_true, beq_iff_eq, decide_eq_true_eq,
          UInt8.le_iff_toNat_le, ← UInt8.toNat_inj]
        rfl
      simp [slash, other, one, high, blank]
  · have small := mt (ascii_iff cut found).mpr ascii
    have high : 0x80 ≤ (byteAt s i).toNat := UInt8.le_iff_toNat_le.mp (UInt8.not_lt.mp ascii)
    have slash : c ≠ '/' := by
      rintro rfl
      exact small (by decide)
    have space : byteAt s i ≠ 0x20 := fun byte => by simp [byte] at high
    have other : byteAt s i ≠ 0x2F := fun byte => by simp [byte] at high
    have feed : ¬ byteAt s i ≤ 0x0D := fun le => by
      have := UInt8.le_iff_toNat_le.mp le
      simp at this
      omega
    simp [space, other, feed, slash, UInt8.not_lt.mp ascii, found]

theorem triviaStep?_of_blank (cut : Boundary s i) (found : charAt? s i = some c)
    (blank : (isUnicodeBlank c || c == '\uFEFF') = true) :
    triviaStep? s i = some (i + c.utf8Size) := by
  rw [triviaStep?_eq cut found, if_neg, if_pos blank]
  rintro rfl
  exact absurd blank (by decide)

theorem triviaStep?_past (h : triviaStep? s i = some j) : i < s.utf8ByteSize ∧ i < j := by
  rw [triviaStep?] at h
  split at h
  · rename_i inside
    refine ⟨inside, ?_⟩
    dsimp only at h
    split at h
    · cases h
      exact Nat.lt_succ_self i
    · split at h
      · rename_i slash
        cases h
        rw [Bool.and_eq_true, beq_iff_eq] at slash
        obtain ⟨fuel, more⟩ := Nat.exists_eq_succ_of_ne_zero (Nat.sub_ne_zero_of_lt inside)
        rw [lineEnd, findByte, more, findByte.go, slash.1]
        exact (findByte_go_le s _ fuel (i + 1)).1
      · split at h
        · cases h
          rw [blockCommentEnd]
          split
          · rename_i close found
            have := (findWord?_go_le found).1
            omega
          · exact inside
        · split at h
          · split at h
            · rename_i c _
              split at h
              · cases h
                exact Nat.lt_add_of_pos_right c.utf8Size_pos
              · cases h
            · cases h
          · cases h
  · cases h

/-! ## All steps -/

/-- Trivia leads from one offset to another, step by step. -/
def Skips (s : String) : Nat → Nat → Prop :=
  Relation.ReflTransGen fun i j => triviaStep? s i = some j

theorem Skips.of_step (h : triviaStep? s i = some j) : Skips s i j := .single h

def skipStart (s : String) (pos : Nat) : Nat :=
  if pos == 0 && startsAt s 0 "#!" then lineEnd s 0 else pos

theorem skipTrivia_eq {pos : Nat} (h : Skips s (skipStart s pos) j) (last : triviaStep? s j = none) :
    skipTrivia s pos = j := by
  have loop (fuel i : Nat) (h : Skips s i j) (enough : s.utf8ByteSize - i ≤ fuel) :
      skipTrivia.go s fuel i = j := by
    induction h using Relation.ReflTransGen.head_induction_on generalizing fuel with
    | refl =>
      cases fuel with
      | zero => rfl
      | succ fuel => rw [skipTrivia.go, last]
    | head step _ ih =>
      obtain ⟨inside, past⟩ := triviaStep?_past step
      obtain ⟨fuel, rfl⟩ := Nat.exists_eq_succ_of_ne_zero (n := fuel) (by omega)
      rw [skipTrivia.go, step]
      exact ih fuel (by omega)
  exact loop _ _ h le_rfl

end ScriptFrontend.Text
