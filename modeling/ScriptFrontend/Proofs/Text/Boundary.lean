import Mathlib.Data.String.Basic
import ScriptFrontend.Text.Bytes

/-!
# Where characters begin

A boundary of a text is an offset where a character begins or the text ends. At a boundary the
character that is read is the one that stands there, and behind it is a boundary again. The bytes of
a character are found only where that character stands, a byte of ASCII above all; so whoever goes
over a text byte by byte and stops at such a byte stops at a boundary.

A text is known by its size and its bytes, and a part of a text between two boundaries by how long it
is and by the bytes there. A boundary is an offset whose byte does not go on with a character.
-/

namespace ScriptFrontend.Text

/-- A character begins at an offset, or the text ends there. -/
def Boundary (s : String) (i : Nat) : Prop := String.Pos.Raw.IsValid s ⟨i⟩

variable {s : String} {i j k : Nat} {c : Char} {front rest : List Char}

theorem Boundary.le_size (h : Boundary s i) : i ≤ s.utf8ByteSize :=
  String.Pos.Raw.IsValid.le_utf8ByteSize h

theorem boundary_zero (s : String) : Boundary s 0 := String.Pos.Raw.isValid_zero

theorem boundary_size (s : String) : Boundary s s.utf8ByteSize := String.Pos.Raw.isValid_rawEndPos

theorem boundary_iff_exists_append :
    Boundary s i ↔ ∃ front rest, s.toList = front ++ rest ∧ String.utf8Len front = i := by
  rw [Boundary, String.Pos.Raw.isValid_iff_exists_append]
  constructor
  · rintro ⟨front, rest, rfl, at_end⟩
    refine ⟨front.toList, rest.toList, String.toList_append, ?_⟩
    rw [String.utf8Len_toList]
    exact (congrArg String.Pos.Raw.byteIdx at_end).symm
  · rintro ⟨front, rest, same, rfl⟩
    refine ⟨String.ofList front, String.ofList rest, ?_, (String.rawEndPos_ofList front).symm⟩
    rw [← String.ofList_append, ← same, String.ofList_toList]

theorem boundary_of_split (same : s.toList = front ++ rest) : Boundary s (String.utf8Len front) :=
  boundary_iff_exists_append.mpr ⟨front, rest, same, rfl⟩

/-! ## What stands at a boundary -/

theorem size_of_split (same : s.toList = front ++ rest) :
    s.utf8ByteSize = String.utf8Len front + String.utf8Len rest := by
  rw [← String.utf8Len_toList, same, String.utf8Len_append]

theorem charAt?_of_split (same : s.toList = front ++ c :: rest) :
    charAt? s (String.utf8Len front) = some c := by
  have size := size_of_split same
  rw [String.utf8Len_cons] at size
  have := c.utf8Size_pos
  rw [charAt?, if_pos (by omega), ← String.ofList_toList (s := s), same, String.get_of_valid]
  rfl

theorem size_utf8Encode (cs : List Char) : cs.utf8Encode.size = String.utf8Len cs := by
  rw [← String.toByteArray_ofList, String.size_toByteArray, String.utf8ByteSize_ofList]

theorem byteAt_of_split (same : s.toList = front ++ rest) (h : k < rest.utf8Encode.size) :
    byteAt s (String.utf8Len front + k) = rest.utf8Encode[k] := by
  have size := size_of_split same
  have rest_size := size_utf8Encode rest
  have inside : (⟨String.utf8Len front + k⟩ : String.Pos.Raw) < s.rawEndPos := by
    change String.utf8Len front + k < s.utf8ByteSize
    omega
  have bytes : s.toByteArray = front.utf8Encode ++ rest.utf8Encode := by
    rw [← List.utf8Encode_append, ← same, ← String.toByteArray_ofList, String.ofList_toList]
  rw [byteAt, dif_pos inside, String.getUTF8Byte_eq_getElem]
  simp only [bytes]
  rw [ByteArray.getElem_append_right (by rw [size_utf8Encode]; omega)]
  simp only [size_utf8Encode, Nat.add_sub_cancel_left]

theorem lt_size_of_charAt? (h : charAt? s i = some c) : i < s.utf8ByteSize := by
  rw [charAt?] at h
  split at h
  · assumption
  · cases h

theorem Boundary.exists_char (h : Boundary s i) (inside : i < s.utf8ByteSize) :
    ∃ front c rest, s.toList = front ++ c :: rest ∧ String.utf8Len front = i := by
  obtain ⟨front, rest, same, rfl⟩ := boundary_iff_exists_append.mp h
  cases rest with
  | nil =>
    have size := size_of_split same
    simp at size
    omega
  | cons c rest => exact ⟨front, c, rest, same, rfl⟩

theorem Boundary.split (h : Boundary s i) (found : charAt? s i = some c) :
    ∃ front rest, s.toList = front ++ c :: rest ∧ String.utf8Len front = i := by
  obtain ⟨front, d, rest, same, rfl⟩ := h.exists_char (lt_size_of_charAt? found)
  rw [charAt?_of_split same] at found
  cases found
  exact ⟨front, rest, same, rfl⟩

theorem Boundary.next (h : Boundary s i) (found : charAt? s i = some c) :
    Boundary s (i + c.utf8Size) := by
  obtain ⟨front, rest, same, rfl⟩ := h.split found
  have after : s.toList = (front ++ [c]) ++ rest := by
    rw [same, List.append_assoc]
    rfl
  simpa using boundary_of_split after

/-! ## The bytes of a character -/

def Encodes (s : String) (i : Nat) (c : Char) : Prop :=
  i + c.utf8Size ≤ s.utf8ByteSize ∧
    ∀ (k : Nat) (h : k < (String.utf8EncodeChar c).length), byteAt s (i + k) = (String.utf8EncodeChar c)[k]

/-- Where the bytes of a character stand, the character begins. -/
theorem Encodes.boundary (h : Encodes s i c) : Boundary s i := by
  have wide := c.utf8Size_pos
  have := h.1
  have first : 0 < (String.utf8EncodeChar c).length := by rwa [String.length_utf8EncodeChar]
  have before : (⟨i⟩ : String.Pos.Raw) < s.rawEndPos := show i < s.utf8ByteSize by omega
  have byte := h.2 0 first
  rw [Nat.add_zero, byteAt, dif_pos before] at byte
  refine String.Pos.Raw.isValid_iff_isUTF8FirstByte.mpr (.inr ⟨before, ?_⟩)
  rw [byte]
  exact UInt8.isUTF8FirstByte_getElem_utf8EncodeChar.mpr rfl

theorem Encodes.charAt? (h : Encodes s i c) : charAt? s i = some c := by
  have wide := c.utf8Size_pos
  have inside := h.1
  obtain ⟨front, d, rest, same, rfl⟩ := h.boundary.exists_char (by omega)
  have size := size_of_split same
  have length := String.length_utf8EncodeChar c
  have rest_size := size_utf8Encode (d :: rest)
  -- The bytes there are those of `c` and some others, and those of `d` and some others.
  have bytes : (d :: rest).utf8Encode = (String.utf8EncodeChar c).toByteArray ++
      (d :: rest).utf8Encode.extract c.utf8Size (d :: rest).utf8Encode.size := by
    apply ByteArray.ext_getElem
    · rw [ByteArray.size_append, List.size_toByteArray, ByteArray.size_extract]
      omega
    · intro k hk _
      rcases Nat.lt_or_ge k c.utf8Size with before | behind
      · rw [ByteArray.getElem_append_left (by simpa using before), List.getElem_toByteArray,
          ← byteAt_of_split same hk]
        exact h.2 k (by omega)
      · rw [ByteArray.getElem_append_right (by simpa using behind), ByteArray.getElem_extract]
        congr 1
        simp
        omega
  have read := congrArg (·.utf8DecodeChar? 0) bytes
  simp only [List.utf8DecodeChar?_utf8Encode_cons, ByteArray.utf8DecodeChar?_utf8EncodeChar_append]
    at read
  rw [charAt?_of_split same, read]

theorem Boundary.encodes (h : Boundary s i) (found : Text.charAt? s i = some c) :
    Encodes s i c := by
  obtain ⟨front, rest, same, rfl⟩ := h.split found
  have size := size_of_split same
  rw [String.utf8Len_cons] at size
  refine ⟨by omega, fun k hk => ?_⟩
  have length := String.length_utf8EncodeChar c
  have within : k < (c :: rest).utf8Encode.size := by
    rw [size_utf8Encode, String.utf8Len_cons]
    omega
  rw [byteAt_of_split same within]
  simp only [List.utf8Encode_cons (c := c) (l := rest), List.utf8Encode_singleton]
  rw [ByteArray.getElem_append_left (by simpa using hk), List.getElem_toByteArray]

theorem startsAt_byteAt {word : String} (h : startsAt s i word = true)
    (inside : k < word.utf8ByteSize) : i + k < s.utf8ByteSize ∧ byteAt s (i + k) = byteAt word k := by
  have loop (fuel j : Nat) (h : startsAt.go s i word fuel j = true) (le : j ≤ k)
      (lt : k < j + fuel) : i + k < s.utf8ByteSize ∧ byteAt s (i + k) = byteAt word k := by
    induction fuel generalizing j with
    | zero => omega
    | succ fuel ih =>
      rw [startsAt.go, Bool.and_eq_true, byteIs, Bool.and_eq_true, decide_eq_true_eq,
        beq_iff_eq] at h
      rcases Nat.eq_or_lt_of_le le with rfl | later
      · exact h.1
      · exact ih (j + 1) h.2 later (by omega)
  exact loop word.utf8ByteSize 0 h (Nat.zero_le k) (by omega)

theorem encodes_of_startsAt (h : startsAt s i (String.singleton c) = true) : Encodes s i c := by
  have size : (String.singleton c).utf8ByteSize = c.utf8Size := String.utf8ByteSize_singleton
  have length := String.length_utf8EncodeChar c
  have wide := c.utf8Size_pos
  have chars : (String.singleton c).toList = [] ++ c :: [] := String.toList_singleton c
  have alone : Encodes (String.singleton c) 0 c :=
    (boundary_zero _).encodes (charAt?_of_split chars)
  refine ⟨?_, fun k hk => ?_⟩
  · have := (startsAt_byteAt h (k := c.utf8Size - 1) (by omega)).1
    omega
  · rw [(startsAt_byteAt h (by omega)).2, ← alone.2 k hk, Nat.zero_add]

theorem startsAt_of_byteAt {word : String}
    (h : ∀ k < word.utf8ByteSize, i + k < s.utf8ByteSize ∧ byteAt s (i + k) = byteAt word k) :
    startsAt s i word = true := by
  have loop (fuel j : Nat) (reach : j + fuel ≤ word.utf8ByteSize) :
      startsAt.go s i word fuel j = true := by
    induction fuel generalizing j with
    | zero => rfl
    | succ fuel ih =>
      rw [startsAt.go, Bool.and_eq_true, byteIs, Bool.and_eq_true, decide_eq_true_eq, beq_iff_eq]
      exact ⟨h j (by omega), ih (j + 1) (by omega)⟩
  exact loop word.utf8ByteSize 0 (by omega)

theorem startsAt_pair_iff {word : String} (two : word.utf8ByteSize = 2) :
    startsAt s i word = true ↔
      byteIs s i (byteAt word 0) = true ∧ byteIs s (i + 1) (byteAt word 1) = true := by
  simp [startsAt, two, startsAt.go]

theorem Encodes.startsAt (h : Encodes s i c) : startsAt s i (String.singleton c) = true := by
  have chars : (String.singleton c).toList = [] ++ c :: [] := String.toList_singleton c
  have alone : Encodes (String.singleton c) 0 c :=
    (boundary_zero _).encodes (charAt?_of_split chars)
  refine startsAt_of_byteAt fun k hk => ?_
  rw [String.utf8ByteSize_singleton] at hk
  have within : k < (String.utf8EncodeChar c).length := by rwa [String.length_utf8EncodeChar]
  have inside := h.1
  refine ⟨by omega, ?_⟩
  rw [h.2 k within, ← alone.2 k within, Nat.zero_add]

/-! ## Bytes of ASCII -/

theorem exists_ascii_char {b : UInt8} (ascii : b < 0x80) :
    ∃ c : Char, String.utf8EncodeChar c = [b] ∧ c.utf8Size = 1 := by
  have all : ∀ n : Fin 128, String.utf8EncodeChar (Char.ofNat n) = [UInt8.ofNat n] := by
    decide +kernel
  have byte := all ⟨b.toNat, ascii⟩
  refine ⟨Char.ofNat b.toNat, by simpa using byte, ?_⟩
  rw [← String.length_utf8EncodeChar, byte]
  rfl

theorem encodes_of_byteIs {b : UInt8} (bytes : String.utf8EncodeChar c = [b])
    (h : byteIs s i b = true) : Encodes s i c := by
  rw [byteIs, Bool.and_eq_true, decide_eq_true_eq, beq_iff_eq] at h
  obtain ⟨inside, rfl⟩ := h
  have one : c.utf8Size = 1 := by rw [← String.length_utf8EncodeChar, bytes, List.length_singleton]
  refine ⟨by omega, fun k hk => ?_⟩
  simp only [bytes, List.length_singleton, Nat.lt_one_iff] at hk
  subst hk
  simp [bytes]

theorem exists_encodes_of_ascii (inside : i < s.utf8ByteSize) (ascii : byteAt s i < 0x80) :
    ∃ c : Char, String.utf8EncodeChar c = [byteAt s i] ∧ c.utf8Size = 1 ∧ Encodes s i c := by
  obtain ⟨c, bytes, size⟩ := exists_ascii_char ascii
  exact ⟨c, bytes, size, encodes_of_byteIs bytes (by simp [byteIs, inside])⟩

theorem boundary_of_ascii (inside : i < s.utf8ByteSize) (ascii : byteAt s i < 0x80) :
    Boundary s i ∧ Boundary s (i + 1) := by
  obtain ⟨c, -, size, encodes⟩ := exists_encodes_of_ascii inside ascii
  exact ⟨encodes.boundary, size ▸ encodes.boundary.next encodes.charAt?⟩

/-! ## Parts of a text -/

theorem front_of_size_le {front' rest' : List Char} (same : front ++ rest = front' ++ rest')
    (le : String.utf8Len front ≤ String.utf8Len front') :
    ∃ m, front' = front ++ m ∧ rest = m ++ rest' := by
  rcases List.append_eq_append_iff.mp same with ⟨m, whole, behind⟩ | ⟨m, whole, behind⟩
  · exact ⟨m, whole, behind⟩
  · rw [whole, String.utf8Len_append] at le
    cases String.utf8Len_eq_zero.mp (show String.utf8Len m = 0 by omega)
    exact ⟨[], by simpa using whole.symm, by simpa using behind.symm⟩

/-- Two boundaries cut a text into three parts. -/
theorem Boundary.split_between (hi : Boundary s i) (hj : Boundary s j) (ij : i ≤ j) :
    ∃ l m r, s.toList = l ++ (m ++ r) ∧ String.utf8Len l = i ∧ String.utf8Len (l ++ m) = j := by
  obtain ⟨l, rest, same, rfl⟩ := boundary_iff_exists_append.mp hi
  obtain ⟨front, r, same', rfl⟩ := boundary_iff_exists_append.mp hj
  obtain ⟨m, rfl, rfl⟩ := front_of_size_le (same.symm.trans same') ij
  exact ⟨l, m, r, same, rfl, rfl⟩

theorem Boundary.next_le (hi : Boundary s i) (found : charAt? s i = some c) (hj : Boundary s j)
    (ij : i < j) : i + c.utf8Size ≤ j := by
  obtain ⟨l, m, r, same, rfl, rfl⟩ := hi.split_between hj ij.le
  cases m with
  | nil =>
    rw [List.append_nil] at ij
    exact absurd ij (Nat.lt_irrefl _)
  | cons d m =>
    have split : s.toList = l ++ d :: (m ++ r) := same
    cases found.symm.trans (charAt?_of_split split)
    simp

theorem slice_of_split {l m r : List Char} (same : s.toList = l ++ (m ++ r)) :
    slice s (String.utf8Len l) (String.utf8Len (l ++ m)) = String.ofList m := by
  rw [slice, ← String.ofList_toList (s := s), same, String.utf8Len_append, ← List.append_assoc]
  exact String.extract_of_valid l m r

theorem slice_size (s : String) : slice s 0 s.utf8ByteSize = s := String.extract_zero_rawEndPos s

theorem slice_append (hi : Boundary s i) (hj : Boundary s j) (hk : Boundary s k) (ij : i ≤ j)
    (jk : j ≤ k) : slice s i j ++ slice s j k = slice s i k := by
  obtain ⟨l, m, r, same, rfl, rfl⟩ := hi.split_between hj ij
  obtain ⟨front, rest, same', rfl⟩ := boundary_iff_exists_append.mp hk
  have joined : s.toList = (l ++ m) ++ r := same.trans (List.append_assoc ..).symm
  obtain ⟨m', rfl, rfl⟩ := front_of_size_le (joined.symm.trans same') jk
  have whole : s.toList = l ++ ((m ++ m') ++ rest) := by
    rw [same, List.append_assoc]
  rw [slice_of_split same, slice_of_split joined, ← String.ofList_append, ← slice_of_split whole,
    List.append_assoc]

theorem mem_slice_iff (hi : Boundary s i) (hj : Boundary s j) (ij : i ≤ j) :
    c ∈ (slice s i j).toList ↔ ∃ k, i ≤ k ∧ k < j ∧ Boundary s k ∧ charAt? s k = some c := by
  obtain ⟨l, m, r, same, rfl, rfl⟩ := hi.split_between hj ij
  rw [slice_of_split same, String.toList_ofList, List.mem_iff_append]
  constructor
  · rintro ⟨a, b, rfl⟩
    have there : s.toList = (l ++ a) ++ c :: (b ++ r) := by
      rw [same]
      simp
    have := c.utf8Size_pos
    refine ⟨String.utf8Len (l ++ a), ?_, ?_, boundary_of_split there, charAt?_of_split there⟩
    · simp
    · simp
      omega
  · rintro ⟨k, ik, kj, hk, found⟩
    obtain ⟨front, rest, there, rfl⟩ := hk.split found
    obtain ⟨a, rfl, behind⟩ := front_of_size_le (same.symm.trans there) ik
    obtain ⟨b, whole, behind⟩ := front_of_size_le behind.symm (by simpa using kj.le)
    cases b with
    | nil =>
      rw [whole, List.append_nil] at kj
      omega
    | cons d b =>
      cases behind
      exact ⟨a, b, whole⟩

variable {t : String}

/-! ## Texts and their bytes -/

theorem byteAt_eq_getElem (h : i < s.utf8ByteSize) : byteAt s i = s.toByteArray[i] := by
  have inside : (⟨i⟩ : String.Pos.Raw) < s.rawEndPos := h
  rw [byteAt, dif_pos inside, String.getUTF8Byte_eq_getElem]

theorem eq_of_byteAt (size : s.utf8ByteSize = t.utf8ByteSize)
    (bytes : ∀ k < s.utf8ByteSize, byteAt s k = byteAt t k) : s = t := by
  refine String.toByteArray_inj.mp (ByteArray.ext_getElem size fun k hs ht => ?_)
  rw [← byteAt_eq_getElem hs, ← byteAt_eq_getElem ht]
  exact bytes k hs

theorem size_slice (hi : Boundary s i) (hj : Boundary s j) (ij : i ≤ j) :
    (slice s i j).utf8ByteSize = j - i := by
  obtain ⟨l, m, r, same, rfl, rfl⟩ := hi.split_between hj ij
  rw [slice_of_split same, String.utf8ByteSize_ofList, String.utf8Len_append]
  omega

theorem byteAt_slice (hi : Boundary s i) (hj : Boundary s j) (inside : i + k < j) :
    byteAt (slice s i j) k = byteAt s (i + k) := by
  obtain ⟨l, m, r, same, rfl, rfl⟩ := hi.split_between hj (by omega)
  rw [String.utf8Len_append] at inside
  have there : k < m.utf8Encode.size := by
    rw [size_utf8Encode]
    omega
  have within : k < (m ++ r).utf8Encode.size := by
    rw [size_utf8Encode, String.utf8Len_append]
    omega
  have alone : (String.ofList m).toList = [] ++ m := String.toList_ofList
  have part := byteAt_of_split alone there
  simp only [List.utf8Encode_append, ByteArray.getElem_append_left there,
    byteAt_of_split same within, slice_of_split same] at part ⊢
  simpa using part

theorem slice_eq_slice_iff {i' j' : Nat} (hi : Boundary s i) (hj : Boundary s j) (ij : i ≤ j)
    (hi' : Boundary t i') (hj' : Boundary t j') (ij' : i' ≤ j') :
    slice s i j = slice t i' j' ↔
      j - i = j' - i' ∧ ∀ k < j - i, byteAt s (i + k) = byteAt t (i' + k) := by
  have size := size_slice hi hj ij
  have size' := size_slice hi' hj' ij'
  constructor
  · intro same
    have length : j - i = j' - i' := by rw [← size, same, size']
    refine ⟨length, fun k inside => ?_⟩
    rw [← byteAt_slice hi hj (by omega), ← byteAt_slice hi' hj' (by omega), same]
  · rintro ⟨length, bytes⟩
    refine eq_of_byteAt (by omega) fun k inside => ?_
    rw [byteAt_slice hi hj (by omega), byteAt_slice hi' hj' (by omega)]
    exact bytes k (by omega)

/-! ## Bytes that go on with a character -/

theorem exists_char_around (inside : i < s.utf8ByteSize) :
    ∃ j c, Boundary s j ∧ charAt? s j = some c ∧ j ≤ i ∧ i < j + c.utf8Size := by
  have search (rest front : List Char) (same : s.toList = front ++ rest)
      (le : String.utf8Len front ≤ i) (lt : i < String.utf8Len front + String.utf8Len rest) :
      ∃ j c, Boundary s j ∧ charAt? s j = some c ∧ j ≤ i ∧ i < j + c.utf8Size := by
    induction rest generalizing front with
    | nil =>
      rw [String.utf8Len_nil] at lt
      omega
    | cons c rest ih =>
      rcases Nat.lt_or_ge i (String.utf8Len front + c.utf8Size) with before | behind
      · exact ⟨_, c, boundary_of_split same, charAt?_of_split same, le, before⟩
      · have size : String.utf8Len (front ++ [c]) = String.utf8Len front + c.utf8Size := by simp
        rw [String.utf8Len_cons] at lt
        exact ih (front ++ [c]) (by simpa using same) (by omega) (by omega)
  have whole : s.toList = [] ++ s.toList := rfl
  exact search s.toList [] whole (Nat.zero_le i) (by simpa [String.utf8Len_toList] using inside)

/-- The bytes of a character behind its first one have a form of their own. -/
theorem continues_of_pos (h : k < (String.utf8EncodeChar c).length) (pos : 0 < k) :
    (String.utf8EncodeChar c)[k] &&& 0xC0 = 0x80 := by
  have all : ∀ n : Fin 64, UInt8.ofNat (n + 128) &&& 0xC0 = 0x80 := by decide
  have form (v : Nat) : UInt8.ofNat (v % 64 + 128) &&& 0xC0 = 0x80 :=
    all ⟨v % 64, Nat.mod_lt v (by decide)⟩
  have tail : ∀ b ∈ (String.utf8EncodeChar c).tail, b &&& 0xC0 = 0x80 := by
    unfold String.utf8EncodeChar
    dsimp only
    repeat' split
    · exact fun _ mem => absurd mem List.not_mem_nil
    all_goals
      intro b mem
      simp only [List.tail_cons, List.mem_cons, List.not_mem_nil, or_false] at mem
      rcases mem with rfl | rfl | rfl <;> exact form _
  obtain ⟨k, rfl⟩ : ∃ n, k = n + 1 := ⟨k - 1, by omega⟩
  refine tail _ (List.mem_iff_getElem.mpr ⟨k, ?_, ?_⟩)
  · rw [List.length_tail]
    omega
  · rw [List.getElem_tail]

theorem ne_of_isUTF8FirstByte {b : UInt8} (h : b.IsUTF8FirstByte) : b &&& 0xC0 ≠ 0x80 := by
  have all : ∀ n : Fin 256, (UInt8.ofNat n).IsUTF8FirstByte → UInt8.ofNat n &&& 0xC0 ≠ 0x80 := by
    decide +kernel
  simpa using all ⟨b.toNat, b.toNat_lt⟩ (by simpa using h)

theorem isBoundary_iff : isBoundary s i = true ↔ Boundary s i := by
  rw [isBoundary]
  by_cases inside : i < s.utf8ByteSize
  · rw [if_pos inside, bne_iff_ne]
    constructor
    · intro begins
      obtain ⟨j, c, cut, found, le, lt⟩ := exists_char_around inside
      have encodes := cut.encodes found
      have within : i - j < (String.utf8EncodeChar c).length := by
        rw [String.length_utf8EncodeChar]
        omega
      have byte := encodes.2 (i - j) within
      rw [Nat.add_sub_cancel' le] at byte
      rcases Nat.eq_or_lt_of_le le with rfl | later
      · exact cut
      · exact absurd (byte ▸ continues_of_pos within (by omega)) begins
    · intro cut
      have before : (⟨i⟩ : String.Pos.Raw) < s.rawEndPos := inside
      rcases String.Pos.Raw.isValid_iff_isUTF8FirstByte.mp cut with atEnd | ⟨_, first⟩
      · have : i = s.utf8ByteSize := congrArg String.Pos.Raw.byteIdx atEnd
        omega
      · rw [byteAt, dif_pos before]
        exact ne_of_isUTF8FirstByte first
  · rw [if_neg inside, beq_iff_eq]
    constructor
    · rintro rfl
      exact boundary_size s
    · intro cut
      have := cut.le_size
      omega

end ScriptFrontend.Text
