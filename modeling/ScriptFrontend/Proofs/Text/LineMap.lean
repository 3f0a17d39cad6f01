import ScriptFrontend.Proofs.Text.Boundary
import ScriptFrontend.Text.Trivia

/-!
# Lines and columns

A line ends behind a line feed, and behind a carriage return that no line feed follows; so the pair of
them ends one line. The scan over the bytes of a text finds these offsets and no others, in ascending
order. The line of an offset is the last one that starts there or before: start and column together give
the offset back.
-/

namespace ScriptFrontend.Text

variable {s : String} {i j p : Nat} {b : UInt8} {c : Char}

inductive EndsLine (s : String) : Nat → Prop
  | lineFeed {front rest : List Char} (same : s.toList = front ++ '\n' :: rest) :
      EndsLine s (String.utf8Len front + 1)
  | carriageReturn {front rest : List Char} (same : s.toList = front ++ '\r' :: rest)
      (alone : rest.head? ≠ some '\n') : EndsLine s (String.utf8Len front + 1)

theorem charAt?_of_byteIs (bytes : String.utf8EncodeChar c = [b]) (h : byteIs s i b = true) :
    Boundary s i ∧ charAt? s i = some c := by
  have encodes := encodes_of_byteIs bytes h
  exact ⟨encodes.boundary, encodes.charAt?⟩

theorem byteIs_of_split {front rest : List Char} (bytes : String.utf8EncodeChar c = [b])
    (same : s.toList = front ++ c :: rest) : byteIs s (String.utf8Len front) b = true := by
  have encodes := (boundary_of_split same).encodes (charAt?_of_split same)
  have wide := c.utf8Size_pos
  have inside := encodes.1
  have byte := encodes.2 0 (by simp [bytes])
  simp only [bytes, List.getElem_cons_zero, Nat.add_zero] at byte
  simp only [byteIs, Bool.and_eq_true, decide_eq_true_eq, beq_iff_eq]
  constructor
  · omega
  · exact byte

theorem exists_split_of_byteIs (bytes : String.utf8EncodeChar c = [b]) (h : byteIs s i b = true) :
    ∃ front rest, s.toList = front ++ c :: rest ∧ String.utf8Len front = i := by
  obtain ⟨cut, found⟩ := charAt?_of_byteIs bytes h
  exact cut.split found

def endsLine (s : String) (i : Nat) : Bool :=
  byteIs s i 0x0A || byteIs s i 0x0D && !byteIs s (i + 1) 0x0A

/-- What stands behind a carriage return is told by the byte there. -/
theorem head?_eq_lineFeed_iff {front rest : List Char} (same : s.toList = front ++ '\r' :: rest) :
    rest.head? = some '\n' ↔ byteIs s (String.utf8Len front + 1) 0x0A = true := by
  have size : String.utf8Len (front ++ ['\r']) = String.utf8Len front + 1 := by
    rw [String.utf8Len_append]
    rfl
  constructor
  · intro follows
    obtain ⟨rest, rfl⟩ := List.head?_eq_some_iff.mp follows
    have split : s.toList = (front ++ ['\r']) ++ '\n' :: rest := by simp [same]
    rw [← size]
    exact byteIs_of_split (by decide) split
  · intro byte
    obtain ⟨-, found⟩ := charAt?_of_byteIs (c := '\n') (by decide) byte
    cases rest with
    | nil =>
      have inside := lt_size_of_charAt? found
      have whole := size_of_split same
      simp only [String.utf8Len_cons, String.utf8Len_nil] at whole
      have : '\r'.utf8Size = 1 := by decide
      omega
    | cons d rest =>
      have split : s.toList = (front ++ ['\r']) ++ d :: rest := by simp [same]
      rw [← size, charAt?_of_split split] at found
      exact found

theorem endsLine_iff : EndsLine s p ↔ ∃ i, p = i + 1 ∧ endsLine s i = true := by
  constructor
  · intro ends
    cases ends with
    | lineFeed same =>
      refine ⟨_, rfl, ?_⟩
      simp [endsLine, byteIs_of_split (b := 0x0A) (by decide) same]
    | carriageReturn same alone =>
      refine ⟨_, rfl, ?_⟩
      rw [ne_eq, head?_eq_lineFeed_iff same] at alone
      simp [endsLine, byteIs_of_split (b := 0x0D) (by decide) same, alone]
  · rintro ⟨i, rfl, ends⟩
    simp only [endsLine, Bool.or_eq_true, Bool.and_eq_true, Bool.not_eq_true'] at ends
    rcases ends with feed | ⟨ret, alone⟩
    · obtain ⟨front, rest, same, rfl⟩ := exists_split_of_byteIs (c := '\n') (by decide) feed
      exact .lineFeed same
    · obtain ⟨front, rest, same, rfl⟩ := exists_split_of_byteIs (c := '\r') (by decide) ret
      apply EndsLine.carriageReturn same
      rw [ne_eq, head?_eq_lineFeed_iff same, alone]
      exact Bool.false_ne_true

namespace LineMap

/-! ## The scan -/

def endsBehind (s : String) (i count : Nat) : List Nat :=
  ((List.range' i count).filter (endsLine s)).map (· + 1)

theorem endsBehind_succ (s : String) (i count : Nat) :
    endsBehind s i (count + 1) = (if endsLine s i = true then [i + 1] else []) ++ endsBehind s (i + 1) count := by
  rw [endsBehind, List.range'_succ, List.filter_cons]
  split
  · rfl
  · rfl

theorem go_eq (fuel i : Nat) (acc : Array Nat) (enough : s.utf8ByteSize ≤ i + fuel) :
    (ofText.go s fuel i acc).toList = acc.toList ++ endsBehind s i (s.utf8ByteSize - i) := by
  induction fuel generalizing i acc with
  | zero =>
    have none : s.utf8ByteSize - i = 0 := by omega
    simp [ofText.go, none, endsBehind]
  | succ fuel ih =>
    rw [ofText.go]
    by_cases inside : i < s.utf8ByteSize
    · have next : s.utf8ByteSize - i = (s.utf8ByteSize - (i + 1)) + 1 := by omega
      have here (b : UInt8) : byteIs s i b = (byteAt s i == b) := by simp [byteIs, inside]
      rw [if_pos inside, next, endsBehind_succ]
      dsimp only
      split
      · rename_i ret
        by_cases pair : byteIs s (i + 1) 0x0A = true
        · have later : i + 1 < s.utf8ByteSize := by
            simp only [byteIs, Bool.and_eq_true, decide_eq_true_eq] at pair
            exact pair.1
          have next : s.utf8ByteSize - (i + 1) = (s.utf8ByteSize - (i + 2)) + 1 := by omega
          rw [if_pos pair, ih (i + 2) _ (by omega), next, endsBehind_succ]
          simp_all [endsLine]
        · rw [if_neg pair, ih (i + 1) _ (by omega)]
          simp_all [endsLine]
      · split
        · rw [ih (i + 1) _ (by omega)]
          simp_all [endsLine]
        · rw [ih (i + 1) _ (by omega)]
          simp_all [endsLine]
    · have none : s.utf8ByteSize - i = 0 := by omega
      rw [if_neg inside]
      simp [none, endsBehind]

theorem starts_eq (s : String) : (ofText s).starts.toList = 0 :: endsBehind s 0 s.utf8ByteSize := by
  rw [ofText, go_eq s.utf8ByteSize 0 #[0] (by omega)]
  rfl

theorem mem_endsBehind : p ∈ endsBehind s 0 s.utf8ByteSize ↔ EndsLine s p := by
  rw [endsLine_iff]
  simp only [endsBehind, List.mem_map, List.mem_filter, List.mem_range'_1]
  constructor
  · rintro ⟨i, ⟨-, ends⟩, rfl⟩
    exact ⟨i, rfl, ends⟩
  · rintro ⟨i, rfl, ends⟩
    refine ⟨i, ⟨?_, ends⟩, rfl⟩
    simp only [endsLine, byteIs, Bool.or_eq_true, Bool.and_eq_true, decide_eq_true_eq] at ends
    omega

theorem starts_ascend (s : String) : (ofText s).starts.toList.Pairwise (· < ·) := by
  rw [starts_eq, List.pairwise_cons]
  constructor
  · intro p mem
    obtain ⟨i, -, rfl⟩ := List.mem_map.mp mem
    omega
  · rw [endsBehind, List.pairwise_map]
    apply List.Pairwise.imp (R := (· < ·))
    · intro i j lt
      omega
    · exact List.Pairwise.filter _ (List.pairwise_lt_range' ..)

/-! ## The line of an offset -/

variable {m : LineMap}

/-- The search goes on to the last line that starts at the offset or before. -/
theorem lineOf_go_spec (fuel line : Nat) (started : m.starts.getD line 0 ≤ p)
    (reach : line + fuel + 1 = m.starts.size) :
    m.starts.getD (lineOf.go m p fuel line) 0 ≤ p ∧ lineOf.go m p fuel line < m.starts.size ∧
      (lineOf.go m p fuel line + 1 < m.starts.size → p < m.starts.getD (lineOf.go m p fuel line + 1) 0) := by
  induction fuel generalizing line with
  | zero =>
    rw [lineOf.go]
    exact ⟨started, by omega, by omega⟩
  | succ fuel ih =>
    rw [lineOf.go]
    split
    · rename_i further
      exact ih (line + 1) further (by omega)
    · rename_i beyond
      exact ⟨started, by omega, fun _ => by omega⟩

/-- The line of an offset starts there or before, and all later lines start behind the offset. -/
theorem lineOf_spec (s : String) (pos : Nat) :
    ∃ start, (ofText s).starts[(ofText s).lineOf pos]? = some start ∧ start ≤ pos ∧
      ∀ p ∈ (ofText s).starts.toList, start < p → pos < p := by
  have first : (ofText s).starts.getD 0 0 = 0 := by simp [← Array.getElem?_toList, starts_eq]
  have some_line : 0 < (ofText s).starts.size := by simp [← Array.length_toList, starts_eq]
  obtain ⟨started, inside, beyond⟩ := lineOf_go_spec (m := ofText s) (p := pos) ((ofText s).starts.size - 1) 0
    (by omega) (by omega)
  rw [← lineOf] at started inside beyond
  generalize (ofText s).lineOf pos = line at *
  have ascend := List.pairwise_iff_getElem.mp (starts_ascend s)
  simp only [Array.length_toList, Array.getElem_toList] at ascend
  rw [Array.getD_eq_getD_getElem?, Array.getElem?_eq_getElem inside, Option.getD_some] at started
  refine ⟨(ofText s).starts[line], Array.getElem?_eq_getElem inside, started, ?_⟩
  intro p mem later
  obtain ⟨k, within, rfl⟩ := Array.mem_iff_getElem.mp (Array.mem_toList_iff.mp mem)
  have behind : line < k := by
    by_contra upTo
    rcases Nat.eq_or_lt_of_le (Nat.le_of_not_lt upTo) with rfl | before
    · omega
    · have := ascend k line within inside before
      omega
  have last := beyond (by omega)
  rw [Array.getD_eq_getD_getElem?, Array.getElem?_eq_getElem (by omega), Option.getD_some] at last
  rcases Nat.eq_or_lt_of_le behind with rfl | further
  · exact last
  · have := ascend (line + 1) k (by omega) within further
    omega

theorem lineOf_monotone (s : String) : Monotone (ofText s).lineOf := by
  intro i j le
  obtain ⟨start, here, started, -⟩ := lineOf_spec s i
  obtain ⟨start', here', started', beyond⟩ := lineOf_spec s j
  by_contra later
  obtain ⟨inside, rfl⟩ := Array.getElem?_eq_some_iff.mp here
  obtain ⟨inside', rfl⟩ := Array.getElem?_eq_some_iff.mp here'
  have ascend := List.pairwise_iff_getElem.mp (starts_ascend s)
  simp only [Array.length_toList, Array.getElem_toList] at ascend
  have before := ascend _ _ inside' inside (Nat.lt_of_not_le later)
  have := beyond _ (Array.mem_toList_iff.mpr (Array.getElem_mem inside)) before
  omega

theorem start_add_column {start pos : Nat} (h : (ofText s).starts[(ofText s).lineOf pos]? = some start)
    (started : start ≤ pos) : start + ((ofText s).lineAndColumn pos).2 = pos := by
  rw [lineAndColumn, Array.getD_eq_getD_getElem?, h]
  exact Nat.add_sub_cancel' started

theorem lineAndColumn_injective (s : String) : Function.Injective (ofText s).lineAndColumn := by
  intro i j same
  obtain ⟨start, here, started, -⟩ := lineOf_spec s i
  obtain ⟨start', here', started', -⟩ := lineOf_spec s j
  have lines : (ofText s).lineOf i = (ofText s).lineOf j := congrArg Prod.fst same
  have starts : start = start' := Option.some.inj (here.symm.trans (lines ▸ here'))
  rw [← start_add_column here started, ← start_add_column here' started', starts, same]

/-- The lines of a text are what its line ends leave, and an offset is its line with its column. -/
theorem offsets_have_lines (s : String) :
    (ofText s).starts.toList.Pairwise (· < ·) ∧ (ofText s).starts[0]? = some 0 ∧
      (∀ p, p ∈ (ofText s).starts.toList.tail ↔ EndsLine s p) ∧
      (∀ pos, ((ofText s).lineAndColumn pos).1 = (ofText s).lineOf pos ∧
        ∃ start, (ofText s).starts[(ofText s).lineOf pos]? = some start ∧
          start + ((ofText s).lineAndColumn pos).2 = pos ∧ ¬ ∃ p, start < p ∧ p ≤ pos ∧ EndsLine s p) ∧
      Monotone (ofText s).lineOf ∧ Function.Injective (ofText s).lineAndColumn := by
  have first : (ofText s).starts[0]? = some 0 := by simp [← Array.getElem?_toList, starts_eq]
  refine ⟨starts_ascend s, first, ?_, ?_, lineOf_monotone s, lineAndColumn_injective s⟩
  · intro p
    rw [starts_eq, List.tail_cons]
    exact mem_endsBehind
  · intro pos
    obtain ⟨start, here, started, beyond⟩ := lineOf_spec s pos
    refine ⟨rfl, start, here, start_add_column here started, ?_⟩
    rintro ⟨p, later, upTo, ends⟩
    have mem : p ∈ (ofText s).starts.toList := by
      rw [starts_eq]
      exact List.mem_cons_of_mem _ (mem_endsBehind.mpr ends)
    have := beyond p mem later
    omega

example : (ofText "a\r\nb\r\n\rc\n").starts = #[0, 3, 6, 7, 9] := by decide +kernel

end LineMap

end ScriptFrontend.Text
