import Mathlib.Data.List.Forall2
import ScriptFrontend.Proofs.Name.Supply
import ScriptFrontend.Text.CharClass
import ScriptFrontend.Tree.Kind

/-!
# Requests for names

A supply answers a request by a search: it looks at one candidate after the other, and ends at the first
one that is free. So the answers to any row of requests are new and different. They are identifiers, for
no candidate has the form of a word, and a base that is an identifier stays one in front of a number.
-/

namespace ScriptFrontend

namespace NameSupply

variable {s t : NameSupply} {name base rest : String} {n : Nat} {c : Char}

inductive Request where
  | unique (base : String)
  | temporary
deriving DecidableEq, Repr

namespace Request

/-- What a search looks at under a number; some numbers are passed over. -/
def candidate? : Request → Nat → Option String
  | .unique base, n => some (stem base ++ toString n)
  | .temporary, n => temporaryName? n

def start (s : NameSupply) : Request → Nat
  | .unique _ => 1
  | .temporary => s.nextTemporary

def isProper : Request → Bool
  | .unique base => base == "" || Text.isIdentifierText base
  | .temporary => true

end Request

def answer (s : NameSupply) : Request → String × NameSupply
  | .unique base => s.unique base
  | .temporary => s.temporary

def answers (s : NameSupply) : List Request → List String
  | [] => []
  | r :: rs => (s.answer r).1 :: (s.answer r).2.answers rs

/-- A search that is at the number `n` goes on until it finds the name. -/
inductive Searches (s : NameSupply) (r : Request) : Nat → String → Prop
  | found {n : Nat} {name : String} (named : r.candidate? n = some name) (free : name ∉ s.used) : Searches s r n name
  | next {n : Nat} {name : String} (passed : ∀ other, r.candidate? n = some other → other ∈ s.used)
      (rest : Searches s r (n + 1) name) : Searches s r n name

variable {r : Request}

theorem Searches.of_first {k : Nat} (le : n ≤ k) (named : r.candidate? k = some name) (free : name ∉ s.used)
    (passed : ∀ m other, n ≤ m → m < k → r.candidate? m = some other → other ∈ s.used) : Searches s r n name := by
  obtain ⟨d, rfl⟩ := Nat.exists_eq_add_of_le le
  induction d generalizing n with
  | zero => exact .found named free
  | succ d ih =>
    apply Searches.next
    · intro other found
      exact passed n other (Nat.le_refl n) (by omega) found
    · have shift : n + 1 + d = n + (d + 1) := by omega
      apply ih (by omega) (shift ▸ named)
      intro m other le lt found
      exact passed m other (by omega) (by omega) found

theorem Searches.eq {name' : String} (h : Searches s r n name) (h' : Searches s r n name') : name = name' := by
  induction h with
  | found named free =>
    cases h' with
    | found named' _ => exact Option.some.inj (named.symm.trans named')
    | next passed _ => exact absurd (passed _ named) free
  | next passed _ ih =>
    cases h' with
    | found named free => exact absurd (passed _ named) free
    | next _ rest => exact ih rest

theorem answer_ends_search (s : NameSupply) (r : Request) : Searches s r (r.start s) (s.answer r).1 := by
  cases r with
  | unique base =>
    obtain ⟨i, given, free, before⟩ := unique_eq s base
    rw [answer, given]
    apply Searches.of_first (k := i + 1) (by simp [Request.start]) rfl (isFree_iff.mp free)
    rintro (_ | j) other from_one earlier named
    · simp [Request.start] at from_one
    · cases named
      exact not_isFree_iff.mp (before j (by omega))
  | temporary =>
    obtain ⟨n, name, given, named, free, le, before⟩ := temporary_eq s
    rw [answer, given]
    apply Searches.of_first (r := .temporary) le named (isFree_iff.mp free)
    intro m other start earlier named
    exact not_isFree_iff.mp (before m other start earlier named)

theorem gives_answers (s : NameSupply) (rs : List Request) : ∃ t, Gives s (s.answers rs) t := by
  induction rs generalizing s with
  | nil => exact ⟨s, .done s⟩
  | cons r rs ih =>
    obtain ⟨t, rest⟩ := ih (s.answer r).2
    cases r with
    | unique base => exact ⟨t, .unique base rest⟩
    | temporary => exact ⟨t, .temporary rest⟩

/-! ## Identifiers -/

def IsIdentifier (name : String) : Prop := Text.isIdentifierText name = true ∧ Kind.ofWord? name = none

theorem isIdentifierPart_of_isDigit (h : c.isDigit = true) : Text.isIdentifierPart c = true := by
  simp [Text.isIdentifierPart, h]

theorem isAlpha_of_isDigit (h : c.isDigit = true) : c.isAlpha = false := by
  have order : '9'.toNat < 'A'.toNat ∧ '9'.toNat < 'a'.toNat := by decide
  obtain ⟨-, upTo⟩ := Char.isDigit_iff_toNat.mp h
  have notUpper : ¬ 'A'.toNat ≤ c.toNat := by omega
  have notLower : ¬ 'a'.val ≤ c.val := by
    rw [UInt32.le_iff_toNat_le]
    change ¬ 'a'.toNat ≤ c.toNat
    omega
  have upper : c.isUpper = false := decide_eq_false fun bounds => notUpper bounds.1
  have lower : c.isLower = false := by
    change (decide ('a'.val ≤ c.val) && decide (c.val ≤ 'z'.val)) = false
    rw [decide_eq_false notLower, Bool.false_and]
  change (c.isUpper || c.isLower) = false
  rw [upper, lower, Bool.false_or]

theorem isDigit_of_mem_toString (mem : c ∈ (toString n).toList) : c.isDigit = true := by
  rw [Nat.toString_eq_repr, Nat.toList_repr] at mem
  exact Nat.isDigit_of_mem_toDigits (by decide) (Nat.le_refl 10) mem

theorem exists_mem_toString (n : Nat) : ∃ c ∈ (toString n).toList, c.isDigit = true := by
  have some_digit : (toString n).toList ≠ [] := by
    rw [Nat.toString_eq_repr, Nat.toList_repr]
    exact Nat.toDigits_ne_nil
  obtain ⟨c, mem⟩ := List.exists_mem_of_ne_nil _ some_digit
  exact ⟨c, mem, isDigit_of_mem_toString mem⟩

theorem isIdentifierText_append (is : Text.isIdentifierText base = true)
    (parts : ∀ c ∈ rest.toList, Text.isIdentifierPart c = true) : Text.isIdentifierText (base ++ rest) = true := by
  rw [Text.isIdentifierText] at is ⊢
  rw [String.toList_append]
  cases chars : base.toList with
  | nil => simp [chars] at is
  | cons c cs =>
    simp only [chars, Bool.and_eq_true, List.all_eq_true] at is
    simp only [List.cons_append, Bool.and_eq_true, List.all_eq_true, List.mem_append]
    refine ⟨is.1, ?_⟩
    rintro d (mem | mem)
    · exact is.2 d mem
    · exact parts d mem

theorem isIdentifierText_stem (h : base = "" ∨ Text.isIdentifierText base = true) :
    Text.isIdentifierText (stem base) = true := by
  rcases h with rfl | is
  · decide +kernel
  · rw [stem]
    split
    · exact is
    · apply isIdentifierText_append is
      intro c mem
      have underscore : c = '_' := by simpa using mem
      rw [underscore]
      decide

theorem ofWord?_eq_none (mem : c ∈ name.toList) (other : c.isAlpha = false) : Kind.ofWord? name = none := by
  have letters : (Kind.words.all fun word => word.1.toList.all Char.isAlpha) = true := by decide +kernel
  simp only [List.all_eq_true] at letters
  rw [Kind.ofWord?, List.lookup_eq_none_iff]
  intro word listed
  rw [bne_iff_ne]
  rintro rfl
  rw [letters word listed c mem] at other
  cases other

theorem numbered_isIdentifier (is : Text.isIdentifierText base = true) (n : Nat) :
    IsIdentifier (base ++ toString n) := by
  obtain ⟨c, mem, digit⟩ := exists_mem_toString n
  constructor
  · apply isIdentifierText_append is
    intro c mem
    exact isIdentifierPart_of_isDigit (isDigit_of_mem_toString mem)
  · apply ofWord?_eq_none (c := c)
    · rw [String.toList_append]
      exact List.mem_append_right _ mem
    · exact isAlpha_of_isDigit digit

theorem temporaryName?_isIdentifier (named : temporaryName? n = some name) : IsIdentifier name := by
  rcases temporaryName?_eq_some named with ⟨small, rfl⟩ | ⟨-, rfl⟩
  · have letters : ∀ n < 26, Text.isIdentifierPart (letter n) = true := by decide
    constructor
    · simp [Text.isIdentifierText, letters n small]
      decide
    · exact ofWord?_eq_none (c := '_') (by simp) (by decide)
  · exact numbered_isIdentifier (by decide) _

theorem Searches.isIdentifier (h : Searches s r n name) (proper : r.isProper = true) : IsIdentifier name := by
  induction h with
  | next _ _ ih => exact ih
  | found named _ =>
    cases r with
    | unique base =>
      cases named
      simp only [Request.isProper, Bool.or_eq_true, beq_iff_eq] at proper
      exact numbered_isIdentifier (isIdentifierText_stem proper) _
    | temporary => exact temporaryName?_isIdentifier named

theorem answers_are_identifiers (s : NameSupply) (rs : List Request) :
    List.Forall₂ (fun r name => r.isProper = true → IsIdentifier name) rs (s.answers rs) := by
  induction rs generalizing s with
  | nil => exact .nil
  | cons r rs ih => exact .cons (answer_ends_search s r).isIdentifier (ih _)

/-! ## Names of modules -/

theorem isIdentifierPart_of_isNameChar (h : isNameChar c = true) : Text.isIdentifierPart c = true := by
  simp only [isNameChar, Char.isAlphanum, Bool.or_eq_true, beq_iff_eq] at h
  rcases h with (letter | digit) | rfl
  · simp [Text.isIdentifierPart, Text.isIdentifierStart, letter]
  · exact isIdentifierPart_of_isDigit digit
  · decide

theorem isIdentifierStart_of_isNameChar (h : isNameChar c = true) (other : c.isDigit = false) :
    Text.isIdentifierStart c = true := by
  simp only [isNameChar, Char.isAlphanum, other, Bool.or_false, Bool.or_eq_true, beq_iff_eq] at h
  rcases h with letter | rfl
  · simp [Text.isIdentifierStart, letter]
  · decide

theorem isIdentifierText_moduleStem (moduleName : String) : Text.isIdentifierText (moduleStem moduleName) = true := by
  rw [moduleStem]
  generalize (moduleName.toList.reverse.takeWhile fun c => c != '/' && c != '\\').reverse = last
  have parts : ∀ c ∈ last.map fun c => if isNameChar c then c else '_', Text.isIdentifierPart c = true := by
    intro c mem
    obtain ⟨d, -, rfl⟩ := List.mem_map.mp mem
    split
    · exact isIdentifierPart_of_isNameChar ‹_›
    · decide
  cases last with
  | nil => decide +kernel
  | cons c cs =>
    obtain ⟨first, others⟩ := List.forall_mem_cons.mp (List.map_cons ▸ parts)
    rw [if_neg (by simp), Text.isIdentifierText, String.toList_ofList, List.map_cons]
    by_cases digit : c.isDigit = true
    · rw [if_pos (show (c :: cs).head?.any (·.isDigit) = true from digit)]
      simp only [List.cons_append, List.nil_append, List.all_cons, Bool.and_eq_true, List.all_eq_true]
      exact ⟨by decide, first, others⟩
    · rw [if_neg (show ¬ (c :: cs).head?.any (·.isDigit) = true from digit)]
      simp only [List.nil_append, Bool.and_eq_true, List.all_eq_true]
      refine ⟨?_, others⟩
      split
      · exact isIdentifierStart_of_isNameChar ‹_› (Bool.not_eq_true _ ▸ digit)
      · decide

/-- Whatever names are taken and whatever is asked for, each search ends, with a name of its own. -/
theorem requests_give_new_identifiers (taken : List String) (requests : List Request) :
    (∀ (s : NameSupply) (r : Request), Searches s r (r.start s) (s.answer r).1) ∧
      (∀ name ∈ (ofNames taken).answers requests, name ∉ taken) ∧ ((ofNames taken).answers requests).Nodup ∧
      List.Forall₂ (fun r name => r.isProper = true → IsIdentifier name) requests ((ofNames taken).answers requests) ∧
      ∀ moduleName : String, (Request.unique (moduleStem moduleName)).isProper = true := by
  obtain ⟨t, gives⟩ := gives_answers (ofNames taken) requests
  refine ⟨answer_ends_search, ?_, gives.row.distinct, answers_are_identifiers _ requests, ?_⟩
  · intro name mem
    rw [← mem_ofNames]
    exact gives.row.fresh name mem
  · intro moduleName
    simp [Request.isProper, isIdentifierText_moduleStem]

theorem request_beside_taken_name :
    (Request.unique (moduleStem "./m")).isProper = true ∧
      (ofNames ["m_1"]).answers [.unique (moduleStem "./m")] = ["m_2"] ∧ IsIdentifier "m_2" := by
  obtain ⟨ends, -, -, identifiers, proper⟩ := requests_give_new_identifiers ["m_1"] [.unique (moduleStem "./m")]
  have base : moduleStem "./m" = "m" := by decide +kernel
  have search : Searches (ofNames ["m_1"]) (.unique (moduleStem "./m")) 1 "m_2" := by
    rw [base]
    apply Searches.next
    · rintro other ⟨⟩
      exact mem_ofNames.mpr (by decide +kernel)
    · apply Searches.found (by decide +kernel)
      rw [mem_ofNames]
      decide
  have name : (ofNames ["m_1"]).answers [.unique (moduleStem "./m")] = ["m_2"] :=
    congrArg (fun name => [name]) ((ends _ _).eq search)
  rw [name] at identifiers
  refine ⟨proper "./m", name, ?_⟩
  cases identifiers with
  | cons first _ => exact first (proper "./m")

end NameSupply

end ScriptFrontend
