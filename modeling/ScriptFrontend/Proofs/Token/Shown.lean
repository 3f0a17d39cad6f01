import ScriptFrontend.Proofs.Token.Boundary

/-!
# What a window shows

A window is read at offsets, and its text is made of characters. What a window shows from an offset on
is the characters between that offset and its end; so what is read there can be told by what the
characters are, and reading on from behind some of them by what the rest of them are.
-/

namespace ScriptFrontend.Token.Window

def Shows (w : Window) (i : Nat) (cs : List Char) : Prop :=
  ∃ front behind, w.text.toList = front ++ (cs ++ behind) ∧ String.utf8Len front = i ∧
    i + String.utf8Len cs = w.stop

variable {w : Window} {i : Nat} {c : Char} {cs front : List Char}

theorem Shows.cut (h : w.Shows i cs) : w.Cut i := by
  obtain ⟨front, behind, same, rfl, -⟩ := h
  exact Text.boundary_of_split same

theorem Shows.stop_eq (h : w.Shows i cs) : w.stop = i + String.utf8Len cs := by
  obtain ⟨-, -, -, -, stop⟩ := h
  exact stop.symm

theorem Shows.even (h : w.Shows i cs) : w.Even := by
  obtain ⟨front, behind, same, rfl, stop⟩ := h
  have split : w.text.toList = (front ++ cs) ++ behind := same.trans (List.append_assoc ..).symm
  have cut := Text.boundary_of_split split
  rwa [String.utf8Len_append, stop] at cut

theorem Shows.append (h : w.Shows i (front ++ cs)) : w.Shows (i + String.utf8Len front) cs := by
  obtain ⟨before, behind, same, rfl, stop⟩ := h
  refine ⟨before ++ front, behind, ?_, String.utf8Len_append _ _, ?_⟩
  · simpa using same
  · rw [← stop, String.utf8Len_append, Nat.add_assoc]

theorem Shows.at_stop (h : w.Shows i cs) : w.Shows w.stop [] := by
  rw [h.stop_eq]
  rw [← List.append_nil cs] at h
  exact h.append

theorem Shows.next (h : w.Shows i (c :: cs)) : w.Shows (i + c.utf8Size) cs := by
  have behind : w.Shows (i + String.utf8Len [c]) cs := h.append
  simpa using behind

theorem Shows.slice (h : w.Shows i (front ++ cs)) :
    w.slice i (i + String.utf8Len front) = String.ofList front := by
  obtain ⟨before, behind, same, rfl, -⟩ := h
  have split : w.text.toList = before ++ (front ++ (cs ++ behind)) := by simpa using same
  have part := Text.slice_of_split split
  rwa [String.utf8Len_append] at part

theorem Shows.slice_stop (h : w.Shows i cs) : w.slice i w.stop = String.ofList cs := by
  rw [← List.append_nil cs] at h
  rw [h.stop_eq, List.append_nil, h.slice]

/-- From each place between characters on the window shows some. -/
theorem Even.shows (even : w.Even) (h : w.Cut i) (le : i ≤ w.stop) : ∃ cs, w.Shows i cs := by
  obtain ⟨front, cs, behind, same, start, stop⟩ := h.split_between even le
  refine ⟨cs, front, behind, same, start, ?_⟩
  rw [← stop, String.utf8Len_append, start]

/-! ## Characters and bytes -/

theorem Shows.char?_nil (h : w.Shows i []) : w.char? i = none := by
  have stop := h.stop_eq
  rw [String.utf8Len_nil] at stop
  rw [char?, if_neg (by omega)]

theorem Shows.char?_cons (h : w.Shows i (c :: cs)) : w.char? i = some c := by
  have stop := h.stop_eq
  have := c.utf8Size_pos
  rw [String.utf8Len_cons] at stop
  obtain ⟨front, behind, same, rfl, -⟩ := h
  rw [char?, if_pos (by omega)]
  exact Text.charAt?_of_split same

theorem Shows.char?_eq (h : w.Shows i cs) : w.char? i = cs.head? := by
  cases cs with
  | nil => exact h.char?_nil
  | cons c cs => exact h.char?_cons

theorem Shows.byte_nil (h : w.Shows i []) : w.byte i = 0 := by
  have stop := h.stop_eq
  rw [String.utf8Len_nil] at stop
  rw [byte, if_neg (by omega)]

theorem Shows.byte_one (h : w.Shows i (c :: cs)) (one : c.utf8Size = 1) : w.byte i = c.val.toUInt8 :=
  h.cut.byte_eq h.char?_cons one

theorem Shows.byteIs (h : w.Shows i (c :: cs)) (one : c.utf8Size = 1) :
    Text.byteIs w.text i c.val.toUInt8 = true := by
  have before := char?_lt_stop h.char?_cons
  have fits : w.stop ≤ w.text.utf8ByteSize := h.even.fits
  have same := h.byte_one one
  rw [byte, if_pos before] at same
  rw [Text.byteIs, decide_eq_true (Nat.lt_of_lt_of_le before fits), same, beq_self_eq_true, Bool.and_true]

theorem Shows.byte_wide (h : w.Shows i (c :: cs)) (wide : c.utf8Size ≠ 1) {k : Nat}
    (inside : k < c.utf8Size) : 0x80 ≤ w.byte (i + k) := by
  have stop := h.stop_eq
  rw [String.utf8Len_cons] at stop
  by_contra small
  have ascii := UInt8.not_le.mp small
  have fits := h.even.fits.trans' stop.ge
  rw [byte, if_pos (by omega)] at ascii
  have before : i + k < w.text.utf8ByteSize := by omega
  have found := charAt?_of_char? h.char?_cons
  obtain ⟨d, -, one, encodes⟩ := Text.exists_encodes_of_ascii before ascii
  rcases Nat.eq_zero_or_pos k with rfl | later
  · cases found.symm.trans encodes.charAt?
    exact wide one
  · have := h.cut.next_le found encodes.boundary (by omega)
    omega

theorem Shows.byte_ne (h : w.Shows i (c :: cs)) {d : Char} (one : d.utf8Size = 1) (other : c ≠ d) {k : Nat}
    (inside : k < c.utf8Size) : w.byte (i + k) ≠ d.val.toUInt8 := by
  have small := Char.utf8Size_eq_one_iff.mp one
  intro same
  by_cases narrow : c.utf8Size = 1
  · have small' := Char.utf8Size_eq_one_iff.mp narrow
    obtain rfl : k = 0 := by omega
    rw [Nat.add_zero, h.byte_one narrow] at same
    have bytes := congrArg UInt8.toNat same
    rw [UInt32.toNat_toUInt8, UInt32.toNat_toUInt8] at bytes
    rw [UInt32.le_iff_toNat_le] at small small'
    apply other
    apply Char.ext
    apply UInt32.toNat_inj.mp
    change _ ≤ 127 at small small'
    omega
  · have wide := h.byte_wide narrow inside
    rw [same, UInt8.le_iff_toNat_le, UInt32.toNat_toUInt8] at wide
    rw [UInt32.le_iff_toNat_le] at small
    change _ ≤ 127 at small
    change 128 ≤ _ at wide
    omega

/-! ## Loops -/

/-- A loop over the characters of a window passes those that pass the test. -/
theorem Shows.skipChars_eq (h : w.Shows i cs) (p : Char → Bool) :
    w.skipChars p i = i + String.utf8Len (cs.takeWhile p) := by
  have loop (fuel k : Nat) (cs : List Char) (h : w.Shows k cs) (enough : String.utf8Len cs ≤ fuel) :
      skipChars.go w p fuel k = k + String.utf8Len (cs.takeWhile p) := by
    induction fuel generalizing k cs with
    | zero =>
      cases String.utf8Len_eq_zero.mp (Nat.le_zero.mp enough)
      rfl
    | succ fuel ih =>
      rw [skipChars.go, h.char?_eq]
      cases cs with
      | nil => rfl
      | cons c cs =>
        have := c.utf8Size_pos
        rw [String.utf8Len_cons] at enough
        rw [List.takeWhile_cons, List.head?_cons]
        dsimp only
        split
        · rw [ih _ cs h.next (by omega), String.utf8Len_cons]
          omega
        · rfl
  have stop := h.stop_eq
  exact loop _ i cs h (by omega)

/-- A loop over bytes of ASCII passes the characters that are such bytes. -/
theorem Shows.skipBytes_eq (h : w.Shows i cs) {p : UInt8 → Bool} (ascii : ∀ b, p b = true → b < 0x80) :
    w.skipBytes p i = i + (cs.takeWhile fun c => c.utf8Size == 1 && p c.val.toUInt8).length := by
  have loop (fuel k : Nat) (cs : List Char) (h : w.Shows k cs) (enough : String.utf8Len cs ≤ fuel) :
      skipBytes.go w p fuel k =
        k + (cs.takeWhile fun c => c.utf8Size == 1 && p c.val.toUInt8).length := by
    induction fuel generalizing k cs with
    | zero =>
      cases String.utf8Len_eq_zero.mp (Nat.le_zero.mp enough)
      rfl
    | succ fuel ih =>
      rw [skipBytes.go]
      cases cs with
      | nil =>
        have stop := h.stop_eq
        rw [String.utf8Len_nil] at stop
        rw [if_neg (by simp [stop])]
        rfl
      | cons c cs =>
        have stop := h.stop_eq
        have := c.utf8Size_pos
        rw [String.utf8Len_cons] at enough stop
        rw [List.takeWhile_cons]
        by_cases one : c.utf8Size = 1
        · have before : k < w.stop := by omega
          have next := h.next
          rw [one] at next
          simp only [h.byte_one one, before, decide_true, Bool.true_and, one, beq_self_eq_true]
          split
          · rw [ih _ cs next (by omega), List.length_cons]
            omega
          · rfl
        · have high : 0x80 ≤ w.byte k := h.byte_wide one this
          have fails : p (w.byte k) = false := by
            by_contra passes
            exact absurd (ascii _ (Bool.not_eq_false _ ▸ passes)) (UInt8.not_lt.mpr high)
          simp [fails, one]
  have stop := h.stop_eq
  exact loop _ i cs h (by omega)

end ScriptFrontend.Token.Window
