import ScriptFrontend.Diagnostic.Fault

/-!
# Messages with arguments

A template is a row of characters and holes. Its holes are filled one after the other, each in all that
the earlier arguments made of the template. So an argument is put in as it is written if it holds no
opening brace, and the last one in any case.
-/

namespace ScriptFrontend.Diagnostic

inductive Part where
  | char (c : Char)
  | hole (i : Nat)
deriving DecidableEq, Repr

namespace Part

def written : Part → List Char
  | .char c => [c]
  | .hole i => (Diagnostic.hole i).toList

/-- The part when a hole was filled with an argument. -/
def put (i : Nat) (arg : List Char) : Part → List Part
  | .char c => [.char c]
  | .hole j => if j = i then arg.map .char else [.hole j]

def filled (first : Nat) (args : List String) : Part → List Char
  | .char c => [c]
  | .hole i => if i < first then (Diagnostic.hole i).toList else ((args[i - first]?).getD (Diagnostic.hole i)).toList

def IsOpen (parts : List Part) : Prop := .char '\x7b' ∉ parts

end Part

def ofParts (parts : List Part) : String := .ofList (parts.flatMap Part.written)

variable {parts : List Part} {i j : Nat} {arg rest : List Char}

/-! ## Holes -/

theorem toList_hole (i : Nat) : (hole i).toList = '\x7b' :: ((toString i).toList ++ ['\x7d']) := by
  simp [hole]

theorem toList_number (i : Nat) : (toString i).toList = Nat.toDigits 10 i := by
  rw [Nat.toString_eq_repr, Nat.toList_repr]

theorem isDigit_of_mem_number {c : Char} (mem : c ∈ (toString i).toList) : c.isDigit = true :=
  Nat.isDigit_of_mem_toDigits (by decide) (by decide) (toList_number i ▸ mem)

theorem eq_of_hole_begins (h : (hole i).toList <+: (hole j).toList ++ rest) : i = j := by
  -- The number of a hole is all digits up to its closing brace.
  have number (k : Nat) (more : List Char) :
      ((toString k).toList ++ '\x7d' :: more).takeWhile Char.isDigit = (toString k).toList := by
    rw [List.takeWhile_append_of_pos fun _ => isDigit_of_mem_number, List.takeWhile_cons_of_neg (by decide),
      List.append_nil]
  obtain ⟨more, same⟩ := h
  simp only [toList_hole, List.cons_append, List.append_assoc, List.nil_append, List.cons.injEq, true_and] at same
  have digits := congrArg (List.takeWhile Char.isDigit) same
  rw [number, number, toList_number, toList_number] at digits
  rw [← Nat.ofDigitChars_ten_toDigits (n := i), digits, Nat.ofDigitChars_ten_toDigits]

/-! ## Filling -/

theorem fillHole_char {hole : List Char} {c : Char} (other : ¬ hole <+: c :: rest) :
    fillHole hole arg (c :: rest) = c :: fillHole hole arg rest := by
  rw [fillHole, if_neg (by rwa [List.isPrefixOf_iff_prefix])]

theorem fillHole_here (i : Nat) : fillHole (hole i).toList arg ((hole i).toList ++ rest) =
    arg ++ fillHole (hole i).toList arg rest := by
  generalize written : (hole i).toList = hole
  cases hole with
  | nil => simp [toList_hole] at written
  | cons c cs =>
    have here : (c :: cs).isPrefixOf (c :: (cs ++ rest)) = true :=
      List.isPrefixOf_iff_prefix.mpr (List.prefix_append (c :: cs) rest)
    rw [List.cons_append, fillHole, if_pos here, List.length_cons, Nat.add_sub_cancel, List.drop_left]

theorem fillHole_append {front : List Char} (closed : '\x7b' ∉ front) :
    fillHole (hole i).toList arg (front ++ rest) = front ++ fillHole (hole i).toList arg rest := by
  induction front with
  | nil => rfl
  | cons c front ih =>
    obtain ⟨other, closed⟩ := List.ne_and_not_mem_of_not_mem_cons closed
    rw [List.cons_append, fillHole_char, ih closed, List.cons_append]
    rw [toList_hole, List.cons_prefix_cons]
    exact fun found => other found.1

theorem fillHole_other (other : i ≠ j) : fillHole (hole i).toList arg ((hole j).toList ++ rest) =
    (hole j).toList ++ fillHole (hole i).toList arg rest := by
  have closed : '\x7b' ∉ (toString j).toList ++ ['\x7d'] := by
    intro mem
    rcases List.mem_append.mp mem with mem | mem
    · cases isDigit_of_mem_number mem
    · cases List.mem_singleton.mp mem
  have here : ¬ (hole i).toList <+: '\x7b' :: ((toString j).toList ++ ['\x7d'] ++ rest) := by
    intro found
    have found : (hole i).toList <+: (hole j).toList ++ rest := by rwa [toList_hole j]
    exact other (eq_of_hole_begins found)
  rw [toList_hole j, List.cons_append, fillHole_char here, fillHole_append closed, List.cons_append]

theorem fillHole_written (h : Part.IsOpen parts) : fillHole (hole i).toList arg (parts.flatMap Part.written) =
    (parts.flatMap (Part.put i arg)).flatMap Part.written := by
  have chars : (arg.map Part.char).flatMap Part.written = arg := by
    rw [List.flatMap_map]
    exact List.flatMap_singleton' arg
  induction parts with
  | nil => rw [List.flatMap_nil, fillHole]; rfl
  | cons p parts ih =>
    obtain ⟨first, h⟩ := List.ne_and_not_mem_of_not_mem_cons h
    rw [List.flatMap_cons, List.flatMap_cons, List.flatMap_append, ← ih h]
    cases p with
    | char c =>
      refine fillHole_append fun mem => first ?_
      rw [← List.mem_singleton.mp mem]
    | hole j =>
      by_cases same : j = i
      · subst same
        rw [Part.put, if_pos rfl, chars]
        exact fillHole_here j
      · rw [Part.put, if_neg same, List.flatMap_singleton]
        exact fillHole_other (Ne.symm same)

theorem Part.IsOpen.put (h : IsOpen parts) (closed : '\x7b' ∉ arg) : IsOpen (parts.flatMap (Part.put i arg)) := by
  intro mem
  obtain ⟨p, held, mem⟩ := List.mem_flatMap.mp mem
  cases p with
  | char c => exact h (List.mem_singleton.mp mem ▸ held)
  | hole j =>
    rw [Part.put] at mem
    split at mem
    · obtain ⟨c, inside, same⟩ := List.mem_map.mp mem
      exact closed (Part.char.inj same ▸ inside)
    · cases List.mem_singleton.mp mem

theorem Part.filled_put (i : Nat) (arg : String) (args : List String) (p : Part) :
    (put i arg.toList p).flatMap (filled (i + 1) args) = filled i (arg :: args) p := by
  cases p with
  | char c => rfl
  | hole j =>
    rw [put]
    by_cases same : j = i
    · subst same
      rw [if_pos rfl, List.flatMap_map, filled, if_neg (Nat.lt_irrefl j), Nat.sub_self]
      exact List.flatMap_singleton' arg.toList
    · rw [if_neg same, List.flatMap_singleton, filled, filled]
      by_cases before : j < i
      · rw [if_pos (Nat.lt_succ_of_lt before), if_pos before]
      · rw [if_neg (by omega), if_neg before, show j - i = j - (i + 1) + 1 by omega, List.getElem?_cons_succ]

/-- Arguments that are put in one after the other are all in their places if none but the last one holds an
opening brace. -/
theorem fillFrom_ofParts {args : List String} (h : args ≠ [] → Part.IsOpen parts)
    (closed : ∀ arg ∈ args.dropLast, '\x7b' ∉ arg.toList) :
    (fillFrom i (ofParts parts) args).toList = parts.flatMap (Part.filled i args) := by
  induction args generalizing i parts with
  | nil =>
    rw [fillFrom, ofParts, String.toList_ofList]
    refine congrArg (parts.flatMap ·) (funext fun p => ?_)
    cases p <;> simp [Part.filled, Part.written]
  | cons arg args ih =>
    have h := h nofun
    rw [fillFrom, ofParts, String.toList_ofList, fillHole_written h]
    refine (ih (fun more => h.put (closed arg ?_)) fun a mem => closed a ?_).trans ?_
    · rw [List.dropLast_cons_of_ne_nil more]
      exact List.mem_cons_self ..
    · rw [List.dropLast_cons_of_ne_nil (by rintro rfl; cases mem)]
      exact List.mem_cons_of_mem _ mem
    · rw [List.flatMap_assoc]
      exact congrArg (parts.flatMap ·) (funext (Part.filled_put i arg args))

/-- All holes of a template are filled at once if no argument but the last one holds an opening brace. -/
theorem fillTemplate_ofParts {args : List String} (h : Part.IsOpen parts)
    (closed : ∀ arg ∈ args.dropLast, '\x7b' ∉ arg.toList) :
    (fillTemplate (ofParts parts) args).toList = parts.flatMap (Part.filled 0 args) :=
  fillFrom_ofParts (fun _ => h) closed

theorem fillTemplate_of_two_arguments :
    Part.IsOpen [.hole 0, .char ' ', .hole 1] ∧ (∀ arg ∈ ["a"], '\x7b' ∉ arg.toList) ∧
      (fillTemplate "\x7b0\x7d \x7b1\x7d" ["a", "\x7b0\x7d"]).toList = "a \x7b0\x7d".toList := by
  have isOpen : Part.IsOpen [.hole 0, .char ' ', .hole 1] := by
    unfold Part.IsOpen
    decide
  have closed : ∀ arg ∈ ["a"], '\x7b' ∉ arg.toList := by decide
  have template : ofParts [.hole 0, .char ' ', .hole 1] = "\x7b0\x7d \x7b1\x7d" := by decide
  have filled := @fillTemplate_ofParts _ ["a", "\x7b0\x7d"] isOpen closed
  rw [template] at filled
  exact ⟨isOpen, closed, filled.trans (by decide)⟩

/-- A hole inside of an earlier argument is filled as well. -/
example : fillTemplate "\x7b0\x7d \x7b1\x7d" ["\x7b1\x7d", "x"] = "x x" := by cbv

end ScriptFrontend.Diagnostic
