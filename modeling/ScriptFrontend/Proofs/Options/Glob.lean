import ScriptFrontend.Options.Glob
import ScriptFrontend.Proofs.Text.Path

/-!
# What patterns of paths cover

A pattern covers the paths that it fits and all that is below them. The rows of outcomes tell for each end
of a pattern and each end of a path whether the one covers the other, from the end on. A search that goes
down a tree of directories, but not into those that are excluded, finds what is included and not excluded.
-/

namespace ScriptFrontend

/-! ## What patterns stand for -/

def GlobPart.Stands : GlobPart → List Char → Prop
  | .char c, u => u = [c]
  | .one, u => ∃ c, u = [c] ∧ c ≠ '/'
  | .star, u => '/' ∉ u
  | .anything, u => '\n' ∉ u
  | .directories, u => ∃ dirs : List (List Char), u = dirs.flatMap (· ++ ['/']) ∧ ∀ d ∈ dirs, d ≠ [] ∧ '/' ∉ d

namespace Glob

/-- A pattern fits a text. What two stars stand for that are not before a slash is left open. -/
inductive Fits (double : List Char → Prop) : List Char → List Char → Prop
  | nil : Fits double [] []
  /-- Two stars before a slash stand for any number of whole directories. -/
  | directories {ps w : List Char} {dirs : List (List Char)} : (∀ d ∈ dirs, d ≠ [] ∧ '/' ∉ d) → Fits double ps w →
    Fits double ('*' :: '*' :: '/' :: ps) (dirs.flatMap (· ++ ['/']) ++ w)
  | double {ps u w : List Char} : (∀ qs, ps ≠ '/' :: qs) → double u → Fits double ps w →
    Fits double ('*' :: '*' :: ps) (u ++ w)
  | star {ps u w : List Char} : (∀ qs, ps ≠ '*' :: qs) → '/' ∉ u → Fits double ps w →
    Fits double ('*' :: ps) (u ++ w)
  /-- A question mark stands for one character of a name. -/
  | one {ps w : List Char} {c : Char} : c ≠ '/' → Fits double ps w → Fits double ('?' :: ps) (c :: w)
  | char {ps w : List Char} {c : Char} : c ≠ '*' → c ≠ '?' → Fits double ps w → Fits double (c :: ps) (c :: w)

/-- Parts of a pattern read a text from its start, and what they leave of it is such a text. -/
def Reads (ends : List Char → Prop) : List GlobPart → List Char → Prop
  | [], w => ends w
  | p :: ps, w => ∃ u v, w = u ++ v ∧ p.Stands u ∧ Reads ends ps v

variable {ends P : List Char → Prop} {ps : List GlobPart} {cs u v w : List Char} {c d x : Char}

theorem reads_iff_split : Reads ends ps w ↔ ∃ u v, w = u ++ v ∧ Reads (· = []) ps u ∧ ends v := by
  induction ps generalizing w with
  | nil =>
    constructor
    · intro rest
      exact ⟨[], w, rfl, rfl, rest⟩
    · rintro ⟨u, v, rfl, rfl, rest⟩
      exact rest
  | cons p ps ih =>
    constructor
    · rintro ⟨first, v, rfl, stands, reads⟩
      obtain ⟨u, v, rfl, reads, rest⟩ := ih.mp reads
      exact ⟨first ++ u, v, (List.append_assoc ..).symm, ⟨first, u, rfl, stands, reads⟩, rest⟩
    · rintro ⟨u, v, rfl, ⟨first, u, rfl, stands, reads⟩, rest⟩
      exact ⟨first, u ++ v, List.append_assoc .., stands, ih.mpr ⟨u, v, rfl, reads, rest⟩⟩

theorem partsOf_double (other : ∀ qs, cs ≠ '/' :: qs) : partsOf ('*' :: '*' :: cs) = .anything :: partsOf cs := by
  rw [partsOf]
  exact other

theorem partsOf_star (other : ∀ qs, cs ≠ '*' :: qs) : partsOf ('*' :: cs) = .star :: partsOf cs := by
  rw [partsOf]
  · exact fun qs same => other _ same
  · exact other

theorem partsOf_char (star : c ≠ '*') (one : c ≠ '?') : partsOf (c :: cs) = .char c :: partsOf cs := by
  rw [partsOf]
  · exact fun qs same => absurd same star
  · exact fun qs same => absurd same star
  · exact star
  · exact one

/-- The parts of a pattern read what the pattern fits, if that is one line. -/
theorem fits_iff {p : List Char} (plain : '\n' ∉ w) : Fits (fun _ => True) p w ↔ Reads (· = []) (partsOf p) w := by
  constructor
  · intro fits
    induction fits with
    | nil => exact rfl
    | directories each _ ih =>
      exact ⟨_, _, rfl, ⟨_, rfl, each⟩, ih fun mem => plain (List.mem_append_right _ mem)⟩
    | double other _ _ ih =>
      rw [partsOf_double other]
      exact ⟨_, _, rfl, fun mem => plain (List.mem_append_left _ mem),
        ih fun mem => plain (List.mem_append_right _ mem)⟩
    | star other inside _ ih =>
      rw [partsOf_star other]
      exact ⟨_, _, rfl, inside, ih fun mem => plain (List.mem_append_right _ mem)⟩
    | one inside _ ih => exact ⟨[_], _, rfl, ⟨_, rfl, inside⟩, ih fun mem => plain (List.mem_cons_of_mem _ mem)⟩
    | char star one _ ih =>
      rw [partsOf_char star one]
      exact ⟨[_], _, rfl, rfl, ih fun mem => plain (List.mem_cons_of_mem _ mem)⟩
  · intro reads
    induction p using partsOf.induct generalizing w with
    | case1 =>
      obtain rfl : w = [] := reads
      exact .nil
    | case2 cs ih =>
      obtain ⟨u, v, rfl, ⟨dirs, rfl, each⟩, reads⟩ := reads
      exact .directories each (ih (fun mem => plain (List.mem_append_right _ mem)) reads)
    | case3 cs other ih =>
      rw [partsOf_double other] at reads
      obtain ⟨u, v, rfl, -, reads⟩ := reads
      exact .double other trivial (ih (fun mem => plain (List.mem_append_right _ mem)) reads)
    | case4 cs _ other ih =>
      rw [partsOf_star other] at reads
      obtain ⟨u, v, rfl, inside, reads⟩ := reads
      exact .star other inside (ih (fun mem => plain (List.mem_append_right _ mem)) reads)
    | case5 cs ih =>
      obtain ⟨u, v, rfl, ⟨c, rfl, inside⟩, reads⟩ := reads
      exact .one inside (ih (fun mem => plain (List.mem_cons_of_mem _ mem)) reads)
    | case6 c cs _ _ star one ih =>
      rw [partsOf_char star one] at reads
      obtain ⟨u, v, rfl, rfl, reads⟩ := reads
      exact .char star one (ih (fun mem => plain (List.mem_cons_of_mem _ mem)) reads)

/-! ## Rows of outcomes -/

/-- What may stand behind a directory that is covered: nothing, or the rest of a path below it on one line. -/
def IsRest (w : List Char) : Prop := w = [] ∨ ∃ rest, w = '/' :: rest ∧ '\n' ∉ rest

/-- What stands behind the first slash of a text is such a text. -/
def Behind (P : List Char → Prop) (w : List Char) : Prop :=
  ∃ front rest, w = front ++ '/' :: rest ∧ '/' ∉ front ∧ P rest

theorem not_behind_nil : ¬ Behind P [] := by
  rintro ⟨front, rest, same, -⟩
  exact List.append_ne_nil_of_right_ne_nil front (List.cons_ne_nil '/' rest) same.symm

theorem behind_cons : Behind P (c :: w) ↔ if c = '/' then P w else Behind P w := by
  split
  case isTrue slash =>
    subst slash
    constructor
    · rintro ⟨front, rest, same, closed, held⟩
      cases front with
      | nil =>
        obtain rfl := (List.cons.inj same).2
        exact held
      | cons d front =>
        obtain ⟨rfl, -⟩ := List.cons.inj same
        exact absurd (List.mem_cons_self ..) closed
    · intro held
      exact ⟨[], w, rfl, List.not_mem_nil, held⟩
  case isFalse other =>
    constructor
    · rintro ⟨front, rest, same, closed, held⟩
      cases front with
      | nil => exact absurd (List.cons.inj same).1 other
      | cons d front =>
        obtain ⟨-, rfl⟩ := List.cons.inj same
        exact ⟨front, rest, rfl, fun mem => closed (List.mem_cons_of_mem _ mem), held⟩
    · rintro ⟨front, rest, rfl, closed, held⟩
      exact ⟨c :: front, rest, rfl, List.not_mem_cons_of_ne_of_not_mem (Ne.symm other) closed, held⟩

/-- A run without a character is over, or goes on with another character. -/
theorem run_cons : (∃ u v, c :: w = u ++ v ∧ x ∉ u ∧ P v) ↔
    P (c :: w) ∨ c ≠ x ∧ ∃ u v, w = u ++ v ∧ x ∉ u ∧ P v := by
  constructor
  · rintro ⟨u, v, same, closed, held⟩
    cases u with
    | nil => exact .inl (same ▸ held)
    | cons d u =>
      obtain ⟨rfl, rfl⟩ := List.cons.inj same
      obtain ⟨other, closed⟩ := List.ne_and_not_mem_of_not_mem_cons closed
      exact .inr ⟨Ne.symm other, u, v, rfl, closed, held⟩
  · rintro (held | ⟨other, u, v, rfl, closed, held⟩)
    · exact ⟨[], c :: w, rfl, List.not_mem_nil, held⟩
    · exact ⟨c :: u, v, rfl, List.not_mem_cons_of_ne_of_not_mem (Ne.symm other) closed, held⟩

theorem run_nil : (∃ u v, [] = u ++ v ∧ x ∉ u ∧ P v) ↔ P [] := by
  constructor
  · rintro ⟨u, v, same, -, held⟩
    rwa [(List.append_eq_nil_iff.mp same.symm).2] at held
  · intro held
    exact ⟨[], [], rfl, List.not_mem_nil, held⟩

theorem reads_star_cons : Reads ends (.star :: ps) (c :: w) ↔
    Reads ends ps (c :: w) ∨ c ≠ '/' ∧ Reads ends (.star :: ps) w := run_cons

theorem reads_anything_cons : Reads ends (.anything :: ps) (c :: w) ↔
    Reads ends ps (c :: w) ∨ c ≠ '\n' ∧ Reads ends (.anything :: ps) w := run_cons

theorem reads_char_cons : Reads ends (.char d :: ps) (c :: w) ↔ c = d ∧ Reads ends ps w := by
  constructor
  · rintro ⟨u, v, same, rfl, reads⟩
    obtain ⟨rfl, rfl⟩ := List.cons.inj same
    exact ⟨rfl, reads⟩
  · rintro ⟨rfl, reads⟩
    exact ⟨[c], w, rfl, rfl, reads⟩

theorem reads_one_cons : Reads ends (.one :: ps) (c :: w) ↔ c ≠ '/' ∧ Reads ends ps w := by
  constructor
  · rintro ⟨u, v, same, ⟨d, rfl, inside⟩, reads⟩
    obtain ⟨rfl, rfl⟩ := List.cons.inj same
    exact ⟨inside, reads⟩
  · rintro ⟨inside, reads⟩
    exact ⟨[c], w, rfl, ⟨c, rfl, inside⟩, reads⟩

theorem reads_directories_cons : Reads ends (.directories :: ps) (c :: w) ↔
    Reads ends ps (c :: w) ∨ c ≠ '/' ∧ Behind (Reads ends (.directories :: ps)) w := by
  constructor
  · rintro ⟨_, v, same, ⟨dirs, rfl, each⟩, reads⟩
    cases dirs with
    | nil => exact .inl (same ▸ reads)
    | cons first dirs =>
      obtain ⟨named, closed⟩ := each first (List.mem_cons_self ..)
      obtain ⟨d, front, rfl⟩ := List.exists_cons_of_ne_nil named
      obtain ⟨other, inner⟩ := List.ne_and_not_mem_of_not_mem_cons closed
      rw [List.flatMap_cons, List.cons_append, List.cons_append, List.cons_append] at same
      obtain ⟨rfl, rfl⟩ := List.cons.inj same
      refine .inr ⟨Ne.symm other, front, dirs.flatMap (· ++ ['/']) ++ v, by simp, inner, ?_⟩
      exact ⟨_, v, rfl, ⟨dirs, rfl, fun d mem => each d (List.mem_cons_of_mem _ mem)⟩, reads⟩
  · rintro (reads | ⟨other, front, rest, rfl, closed, _, v, rfl, ⟨dirs, rfl, each⟩, reads⟩)
    · exact ⟨[], c :: w, rfl, ⟨[], rfl, List.forall_mem_nil _⟩, reads⟩
    · refine ⟨_, v, ?_, ⟨(c :: front) :: dirs, rfl, ?_⟩, reads⟩
      · simp
      · exact List.forall_mem_cons.mpr
          ⟨⟨List.cons_ne_nil c front, List.not_mem_cons_of_ne_of_not_mem (Ne.symm other) closed⟩, each⟩

theorem reads_nil (part : GlobPart) : Reads ends (part :: ps) [] ↔
    (match part with
      | .char _ | .one => False
      | .star | .anything | .directories => Reads ends ps []) := by
  cases part with
  | char d =>
    refine ⟨?_, False.elim⟩
    rintro ⟨u, v, same, rfl, -⟩
    cases same
  | one =>
    refine ⟨?_, False.elim⟩
    rintro ⟨u, v, same, ⟨c, rfl, -⟩, -⟩
    cases same
  | star => exact run_nil
  | anything => exact run_nil
  | directories =>
    constructor
    · rintro ⟨u, v, same, -, reads⟩
      rwa [(List.append_eq_nil_iff.mp same.symm).2] at reads
    · intro reads
      exact ⟨[], [], rfl, ⟨[], rfl, List.forall_mem_nil _⟩, reads⟩

/-- The outcome tells whether the parts cover a text, and whether they cover what is behind its first slash. -/
structure Tells (ps : List GlobPart) (w : List Char) (o : Outcome) : Prop where
  isMatch : o.isMatch = true ↔ Reads IsRest ps w
  isMatchBehind : o.isMatchBehind = true ↔ Behind (Reads IsRest ps) w

/-- A row has an outcome for each end of the parts. What is behind the first slash does not matter where all parts
are used up. -/
inductive IsRow (w : List Char) : List GlobPart → List Outcome → Prop
  | nil {o : Outcome} : (o.isMatch = true ↔ IsRest w) → IsRow w [] [o]
  | cons {p : GlobPart} {ps : List GlobPart} {o : Outcome} {row : List Outcome} : Tells (p :: ps) w o →
    IsRow w ps row → IsRow w (p :: ps) (o :: row)

variable {row : List Outcome}

theorem IsRow.first (h : IsRow w ps row) : (firstOf row).isMatch = true ↔ Reads IsRest ps w := by
  cases h with
  | nil tells => exact tells
  | cons tells _ => exact tells.isMatch

theorem isRow_endRow (ps : List GlobPart) : IsRow [] ps (endRow ps) := by
  induction ps with
  | nil => exact .nil ⟨fun _ => .inl rfl, fun _ => rfl⟩
  | cons part ps ih =>
    refine .cons ⟨?_, ?_⟩ ih
    · rw [reads_nil]
      cases part with
      | char d => exact ⟨nofun, False.elim⟩
      | one => exact ⟨nofun, False.elim⟩
      | star => exact ih.first
      | anything => exact ih.first
      | directories => exact ih.first
    · exact ⟨nofun, fun behind => absurd behind not_behind_nil⟩

theorem isRest_cons : IsRest (c :: w) ↔ c = '/' ∧ '\n' ∉ w := by
  constructor
  · rintro (same | ⟨rest, same, plain⟩)
    · cases same
    · obtain ⟨rfl, rfl⟩ := List.cons.inj same
      exact ⟨rfl, plain⟩
  · rintro ⟨rfl, plain⟩
    exact .inr ⟨w, rfl, plain⟩

theorem isRow_rowBefore (c : Char) (h : IsRow w ps row) : IsRow (c :: w) ps (rowBefore c w ps row) := by
  induction h with
  | nil => exact .nil (by simp [isRest_cons])
  | @cons part ps old olds tells rest ih =>
    refine .cons ⟨?_, ?_⟩ ih
    · cases part with
      | char d => rw [reads_char_cons, ← rest.first]; simp
      | one => rw [reads_one_cons, ← rest.first]; simp
      | star => rw [reads_star_cons, ← ih.first, ← tells.isMatch]; simp
      | anything => rw [reads_anything_cons, ← ih.first, ← tells.isMatch]; simp
      | directories => rw [reads_directories_cons, ← ih.first, ← tells.isMatchBehind]; simp
    · rw [behind_cons, ← tells.isMatch, ← tells.isMatchBehind]
      by_cases slash : c = '/' <;> simp [slash]

theorem isRow_rowOf (ps : List GlobPart) (w : List Char) : IsRow w ps (rowOf ps w) := by
  induction w with
  | nil => exact isRow_endRow ps
  | cons c w ih => exact isRow_rowBefore c ih

/-! ## What is covered -/

/-- The pattern of a text without `./` at its start and slashes at its end, and with slashes for backslashes. -/
def bare (pattern : String) : List Char :=
  (((dropHere pattern.toList).reverse.dropWhile (· == '/')).reverse).map fun c => if c == '\\' then '/' else c

def LiesAt (path directory : List Char) : Prop := path = directory ∨ ∃ rest, path = directory ++ '/' :: rest

/-- The pattern fits the path or a directory on the way to it. -/
def Covers (pattern path : String) : Prop :=
  ∃ directory, LiesAt path.toList directory ∧ Fits (fun _ => True) (bare pattern) directory

theorem LiesAt.trans (h : LiesAt u v) (h' : LiesAt v w) : LiesAt u w := by
  obtain rfl | ⟨rest, rfl⟩ := h'
  · exact h
  · obtain rfl | ⟨rest', rfl⟩ := h
    · exact .inr ⟨rest, rfl⟩
    · exact .inr ⟨rest ++ '/' :: rest', by simp⟩

theorem matchesPath_iff (pattern : String) {path : String} (plain : '\n' ∉ path.toList) :
    (ofText pattern).matchesPath path = true ↔ Covers pattern path := by
  have row := (isRow_rowOf (ofText pattern).parts path.toList).first
  rw [matchesPath, row, reads_iff_split]
  change (∃ u v, path.toList = u ++ v ∧ Reads (· = []) (partsOf (bare pattern)) u ∧ IsRest v) ↔ _
  constructor
  · rintro ⟨u, v, same, reads, rest⟩
    have fits := (fits_iff fun mem => plain (same ▸ List.mem_append_left _ mem)).mpr reads
    refine ⟨u, ?_, fits⟩
    obtain rfl | ⟨rest, rfl, -⟩ := rest
    · exact .inl (same.trans (List.append_nil u))
    · exact .inr ⟨rest, same⟩
  · rintro ⟨u, same | ⟨rest, same⟩, fits⟩
    · have reads := (fits_iff (same ▸ plain)).mp fits
      exact ⟨u, [], same.trans (List.append_nil u).symm, reads, .inl rfl⟩
    · have reads := (fits_iff fun mem => plain (same ▸ List.mem_append_left _ mem)).mp fits
      refine ⟨u, '/' :: rest, same, reads, .inr ⟨rest, rfl, fun mem => plain ?_⟩⟩
      exact same ▸ List.mem_append_right _ (List.mem_cons_of_mem _ mem)

end Glob

/-! ## Directories -/

inductive Directory where
  | empty
  | file (name : String) (rest : Directory)
  | directory (name : String) (inner rest : Directory)

namespace Directory

open ScriptFrontend.Path

def names : Directory → List String
  | .empty => []
  | .file name rest | .directory name _ rest => name :: rest.names

def isName (name : String) : Bool :=
  !isBlank name && name != ".." && !name.toList.contains '/' && !name.toList.contains '\n'

def isProper : Directory → Bool
  | .empty => true
  | .file name rest => isName name && !rest.names.contains name && rest.isProper
  | .directory name inner rest => isName name && !rest.names.contains name && inner.isProper && rest.isProper

def paths (above : List String) : Directory → List String
  | .empty => []
  | .file name rest => ofPieces (above ++ [name]) :: rest.paths above
  | .directory name inner rest => inner.paths (above ++ [name]) ++ rest.paths above

/-- Looks for files in a directory and in those below it, but not in one that is excluded. -/
def walk (isExcluded isWanted : String → Bool) (above : List String) : Directory → List String
  | .empty => []
  | .file name rest =>
    let path := ofPieces (above ++ [name])
    if !isExcluded path && isWanted path then path :: rest.walk isExcluded isWanted above
    else rest.walk isExcluded isWanted above
  | .directory name inner rest =>
    let path := ofPieces (above ++ [name])
    if isExcluded path then rest.walk isExcluded isWanted above
    else inner.walk isExcluded isWanted (above ++ [name]) ++ rest.walk isExcluded isWanted above

variable {t : Directory} {above : List String} {path : String} {isExcluded isWanted : String → Bool}

def AreNames (above : List String) : Prop := ∀ name ∈ above, isName name = true

theorem not_mem_of_isName {name : String} (proper : isName name = true) :
    '/' ∉ name.toList ∧ '\n' ∉ name.toList := by
  simp only [isName, Bool.and_eq_true_iff, Bool.not_eq_true', List.contains_eq_mem, decide_eq_false_iff_not]
    at proper
  exact ⟨proper.1.2, proper.2⟩

theorem isProper_file {name : String} {rest : Directory} : (file name rest).isProper = true ↔
    isName name = true ∧ name ∉ rest.names ∧ rest.isProper = true := by
  simp [isProper, and_assoc]

theorem isProper_directory {name : String} {inner rest : Directory} : (directory name inner rest).isProper = true ↔
    isName name = true ∧ name ∉ rest.names ∧ inner.isProper = true ∧ rest.isProper = true := by
  simp [isProper, and_assoc]

theorem AreNames.plain (h : AreNames above) : ∀ p ∈ above, '/' ∉ p.toList :=
  fun p mem => (not_mem_of_isName (h p mem)).1

theorem AreNames.concat (h : AreNames above) {name : String} (proper : isName name = true) :
    AreNames (above ++ [name]) := by
  intro p mem
  rcases List.mem_append.mp mem with mem | mem
  · exact h p mem
  · rwa [List.mem_singleton.mp mem]

theorem mem_paths (proper : t.isProper = true) (mem : path ∈ t.paths above) : ∃ name more,
    name ∈ t.names ∧ AreNames (name :: more) ∧ path = ofPieces (above ++ name :: more) := by
  induction t generalizing above with
  | empty => cases mem
  | file name rest ih =>
    obtain ⟨named, -, proper⟩ := isProper_file.mp proper
    rcases List.mem_cons.mp mem with rfl | mem
    · exact ⟨name, [], List.mem_cons_self .., List.forall_mem_singleton.mpr named, rfl⟩
    · obtain ⟨first, more, held, areNames, same⟩ := ih proper mem
      exact ⟨first, more, List.mem_cons_of_mem _ held, areNames, same⟩
  | directory name inner rest ih ih' =>
    obtain ⟨named, -, inside, proper⟩ := isProper_directory.mp proper
    rcases List.mem_append.mp mem with mem | mem
    · obtain ⟨first, more, -, areNames, same⟩ := ih inside mem
      refine ⟨name, first :: more, List.mem_cons_self .., List.forall_mem_cons.mpr ⟨named, areNames⟩, ?_⟩
      rw [same, List.append_assoc]
      rfl
    · obtain ⟨first, more, held, areNames, same⟩ := ih' proper mem
      exact ⟨first, more, List.mem_cons_of_mem _ held, areNames, same⟩

theorem AreNames.plain_append {ps : List String} (h : AreNames above) (h' : AreNames ps) :
    ∀ p ∈ above ++ ps, '/' ∉ p.toList := by
  intro p mem
  rcases List.mem_append.mp mem with mem | mem
  · exact h.plain p mem
  · exact h'.plain p mem

theorem ofPieces_inj {ps qs : List String} (some : ps ≠ []) (some' : qs ≠ []) (plain : ∀ p ∈ ps, '/' ∉ p.toList)
    (plain' : ∀ p ∈ qs, '/' ∉ p.toList) (same : ofPieces ps = ofPieces qs) : ps = qs := by
  rw [← pieces_ofPieces some plain, same, pieces_ofPieces some' plain']

theorem not_mem_paths (areNames : AreNames above) (proper : t.isProper = true) {name : String}
    {more : List String} (other : name ∉ t.names) (named : AreNames (name :: more)) :
    ofPieces (above ++ name :: more) ∉ t.paths above := by
  intro mem
  obtain ⟨first, more', held, named', same⟩ := mem_paths proper mem
  have same := ofPieces_inj (by simp) (by simp) (areNames.plain_append named) (areNames.plain_append named') same
  obtain ⟨rfl, -⟩ := List.cons.inj (List.append_cancel_left same)
  exact other held

theorem nodup_paths (areNames : AreNames above) (proper : t.isProper = true) : (t.paths above).Nodup := by
  induction t generalizing above with
  | empty => exact List.nodup_nil
  | file name rest ih =>
    obtain ⟨named, other, proper⟩ := isProper_file.mp proper
    refine List.nodup_cons.mpr ⟨?_, ih areNames proper⟩
    exact not_mem_paths areNames proper other (List.forall_mem_singleton.mpr named)
  | directory name inner rest ih ih' =>
    obtain ⟨named, other, inside, proper⟩ := isProper_directory.mp proper
    refine List.nodup_append.mpr ⟨ih (areNames.concat named) inside, ih' areNames proper, ?_⟩
    rintro path mem _ mem' rfl
    obtain ⟨first, more, -, areNames', rfl⟩ := mem_paths inside mem
    rw [List.append_assoc] at mem'
    exact not_mem_paths areNames proper other (List.forall_mem_cons.mpr ⟨named, areNames'⟩) mem'

/-! ## The search -/

/-- The directories on the way along some names, from the top, with what they lead to. -/
def heads (ps : List String) : List String := (List.range ps.length).map fun i => ofPieces (ps.take (i + 1))

theorem prefixes_ofPieces {ps : List String} (some : ps ≠ []) (plain : ∀ p ∈ ps, '/' ∉ p.toList) :
    prefixes (ofPieces ps) = heads ps := by
  rw [prefixes, pieces_ofPieces some plain]
  rfl

theorem mem_heads {ps : List String} {p : String} :
    p ∈ heads ps ↔ ∃ first rest, first ≠ [] ∧ ps = first ++ rest ∧ p = ofPieces first := by
  simp only [heads, List.mem_map, List.mem_range]
  constructor
  · rintro ⟨i, inside, rfl⟩
    refine ⟨ps.take (i + 1), ps.drop (i + 1), ?_, (List.take_append_drop ..).symm, rfl⟩
    exact List.ne_nil_of_length_pos (by rw [List.length_take]; omega)
  · rintro ⟨first, rest, some, rfl, rfl⟩
    have length := List.length_pos_iff.mpr some
    refine ⟨first.length - 1, by rw [List.length_append]; omega, ?_⟩
    rw [Nat.sub_add_cancel length, List.take_left]

theorem heads_concat (ps : List String) (name : String) :
    heads (ps ++ [name]) = heads ps ++ [ofPieces (ps ++ [name])] := by
  rw [heads, List.length_append, List.length_singleton, List.range_succ, List.map_append, heads]
  congr 1
  · refine List.map_congr_left fun i inside => ?_
    rw [List.take_append_of_le_length (List.mem_range.mp inside)]
  · rw [List.map_singleton, List.take_of_length_le (by simp)]

theorem any_heads_concat (isExcluded : String → Bool) (ps : List String) (name : String) :
    (heads (ps ++ [name])).any isExcluded =
      ((heads ps).any isExcluded || isExcluded (ofPieces (ps ++ [name]))) := by
  rw [heads_concat, List.any_append, List.any_cons, List.any_nil, Bool.or_false]

/-- Nothing below a directory that is excluded is found without the search either. -/
theorem filter_paths_eq_nil (areNames : AreNames above) (proper : t.isProper = true)
    (out : (heads above).any isExcluded = true) :
    (t.paths above).filter (fun path => isWanted path && !(prefixes path).any isExcluded) = [] := by
  refine List.filter_eq_nil_iff.mpr fun path mem => ?_
  obtain ⟨name, more, -, named, rfl⟩ := mem_paths proper mem
  obtain ⟨p, mem, excluded⟩ := List.any_eq_true.mp out
  obtain ⟨first, rest, some, same, rfl⟩ := mem_heads.mp mem
  have held : ofPieces first ∈ heads (above ++ name :: more) :=
    mem_heads.mpr ⟨first, rest ++ name :: more, some, by rw [same, List.append_assoc], rfl⟩
  rw [prefixes_ofPieces (by simp) (areNames.plain_append named), List.any_eq_true.mpr ⟨_, held, excluded⟩]
  simp

/-- The search finds the files that are wanted and have nothing excluded on the way to them. -/
theorem walk_eq (areNames : AreNames above) (proper : t.isProper = true)
    (free : (heads above).any isExcluded = false) : t.walk isExcluded isWanted above =
      (t.paths above).filter fun path => isWanted path && !(prefixes path).any isExcluded := by
  induction t generalizing above with
  | empty => rfl
  | file name rest ih =>
    obtain ⟨named, -, proper⟩ := isProper_file.mp proper
    have here := prefixes_ofPieces (List.append_ne_nil_of_right_ne_nil above (List.cons_ne_nil name []))
      (areNames.concat named).plain
    have way := any_heads_concat isExcluded above name
    rw [free, Bool.false_or] at way
    rw [walk, paths, List.filter_cons, here, way, ih areNames proper free, Bool.and_comm]
  | directory name inner rest ih ih' =>
    obtain ⟨named, -, inside, proper⟩ := isProper_directory.mp proper
    have areNames' := areNames.concat named
    have way := any_heads_concat isExcluded above name
    rw [free, Bool.false_or] at way
    rw [walk, paths, List.filter_append, ih' areNames proper free]
    split
    case isTrue out => rw [filter_paths_eq_nil areNames' inside (way.trans out), List.nil_append]
    case isFalse into => rw [ih areNames' inside (way.trans (Bool.eq_false_iff.mpr into))]

end Directory

/-! ## What is found -/

namespace Path

open Directory Glob

variable {patterns included excluded files : List String} {path : String}

def matchesSome (patterns : List String) (path : String) : Bool := (patterns.map ofText).any (·.matchesPath path)

theorem matchesSome_iff (plain : '\n' ∉ path.toList) :
    matchesSome patterns path = true ↔ ∃ pattern ∈ patterns, Covers pattern path := by
  rw [matchesSome, List.any_map, List.any_eq_true]
  exact exists_congr fun pattern => and_congr_right fun _ => matchesPath_iff pattern plain

theorem discover_eq (files included excluded : List String) : discover files included excluded =
    (files.filter fun path => (isSource path && matchesSome included path) &&
      !(prefixes path).any (matchesSome excluded)).mergeSort le := by
  rw [discover]
  congr 2
  funext path
  exact Bool.and_right_comm ..

theorem liesAt_of_mem_prefixes {directory : String} (mem : directory ∈ prefixes path) :
    LiesAt path.toList directory.toList := by
  obtain ⟨first, rest, some, same, rfl⟩ := mem_heads.mp mem
  rw [← ofPieces_pieces path, same]
  by_cases more : rest = []
  · rw [more, List.append_nil]
    exact .inl rfl
  · refine .inr ⟨(ofPieces rest).toList, ?_⟩
    rw [ofPieces, String.intercalate_append_of_ne_nil some more, String.toList_append, String.toList_append]
    simp [ofPieces]

theorem mem_prefixes_self (path : String) : path ∈ prefixes path :=
  mem_heads.mpr ⟨pieces path, [], by simp [pieces, List.splitOn_ne_nil], (List.append_nil _).symm,
    (ofPieces_pieces path).symm⟩

/-- What is excluded with a directory above it is excluded itself, so looking at the directories changes nothing. -/
theorem any_prefixes (plain : '\n' ∉ path.toList) :
    (prefixes path).any (matchesSome patterns) = matchesSome patterns path := by
  rw [Bool.eq_iff_iff, List.any_eq_true]
  constructor
  · rintro ⟨directory, mem, found⟩
    have lies := liesAt_of_mem_prefixes mem
    have plain' : '\n' ∉ directory.toList := by
      obtain same | ⟨rest, same⟩ := lies
      · exact same ▸ plain
      · exact fun mem => plain (same ▸ List.mem_append_left _ mem)
    obtain ⟨pattern, held, d, lies', fits⟩ := (matchesSome_iff plain').mp found
    exact (matchesSome_iff plain).mpr ⟨pattern, held, d, lies.trans lies', fits⟩
  · intro found
    exact ⟨path, mem_prefixes_self path, found⟩

theorem mem_discover (plain : '\n' ∉ path.toList) : path ∈ discover files included excluded ↔
    path ∈ files ∧ isSource path = true ∧ (∃ pattern ∈ included, Covers pattern path) ∧
      ¬ ∃ pattern ∈ excluded, Covers pattern path := by
  rw [discover_eq, List.mem_mergeSort, List.mem_filter, any_prefixes plain, ← matchesSome_iff plain,
    ← matchesSome_iff plain, Bool.and_eq_true_iff, Bool.and_eq_true_iff, Bool.not_eq_true', Bool.not_eq_true,
    and_assoc]

theorem le_iff {a b : String} : le a b = true ↔ ¬ components b < components a := by
  rw [le, Bool.not_eq_true', decide_eq_false_iff_not]

theorem sorted_mergeSort (files : List String) : (files.mergeSort le).Pairwise fun a b => le a b = true := by
  refine List.pairwise_mergeSort ?_ ?_ files
  · intro a b c first second
    exact le_iff.mpr (List.le_trans (α := String) (le_iff.mp first) (le_iff.mp second))
  · intro a b
    rw [Bool.or_eq_true_iff, le_iff, le_iff]
    exact List.le_total (α := String) (components a) (components b)

def search (included excluded : List String) (t : Directory) : List String :=
  (t.walk (matchesSome excluded) (fun path => isSource path && matchesSome included path) []).mergeSort le

theorem search_eq_discover {t : Directory} (proper : t.isProper = true) (included excluded : List String) :
    search included excluded t = discover (t.paths []) included excluded := by
  rw [search, walk_eq (List.forall_mem_nil _) proper rfl, discover_eq]

theorem not_mem_ofPieces {c : Char} {ps : List String} (other : c ≠ '/') (plain : ∀ p ∈ ps, c ∉ p.toList) :
    c ∉ (ofPieces ps).toList := by
  induction ps with
  | nil => exact List.not_mem_nil
  | cons p ps ih =>
    obtain ⟨first, rest⟩ := List.forall_mem_cons.mp plain
    by_cases more : ps = []
    · rw [more, ofPieces, String.intercalate_singleton]
      exact first
    · rw [ofPieces, String.intercalate_cons_of_ne_nil more, String.toList_append, String.toList_append]
      simp only [List.mem_append, not_or]
      exact ⟨⟨first, fun mem => other (List.mem_singleton.mp mem)⟩, ih rest⟩

theorem on_line_of_mem_paths {t : Directory} (proper : t.isProper = true) (mem : path ∈ t.paths []) :
    '\n' ∉ path.toList := by
  obtain ⟨name, more, -, named, rfl⟩ := mem_paths proper mem
  exact not_mem_ofPieces (by decide) fun p mem => (not_mem_of_isName (named p mem)).2

/-- A pattern matches a path on one line if and only if it fits the path or a directory on the way to it. And the
search in a directory, whatever the order of its entries, finds what would be found among all files below it: in
order, once each, the sources that some pattern includes and none excludes. -/
theorem patterns_and_search : (∀ (pattern path : String), '\n' ∉ path.toList →
      ((ofText pattern).matchesPath path = true ↔ Covers pattern path)) ∧
    ∀ (included excluded : List String) (t : Directory), t.isProper = true →
      search included excluded t = discover (t.paths []) included excluded ∧
      (search included excluded t).Pairwise (fun a b => le a b = true) ∧ (search included excluded t).Nodup ∧
      ∀ path, path ∈ search included excluded t ↔ path ∈ t.paths [] ∧ isSource path = true ∧
        (∃ pattern ∈ included, Covers pattern path) ∧ ¬ ∃ pattern ∈ excluded, Covers pattern path := by
  refine ⟨fun pattern path => matchesPath_iff pattern, fun included excluded t proper => ?_⟩
  rw [search_eq_discover proper]
  refine ⟨rfl, ?_, ?_, fun path => ?_⟩
  · rw [discover_eq]
    exact sorted_mergeSort _
  · rw [discover_eq, (List.mergeSort_perm _ le).nodup_iff]
    exact (nodup_paths (List.forall_mem_nil _) proper).filter _
  · by_cases mem : path ∈ t.paths []
    · exact mem_discover (on_line_of_mem_paths proper mem)
    · rw [discover_eq, List.mem_mergeSort, List.mem_filter]
      exact ⟨fun found => absurd found.1 mem, fun found => absurd found.1 mem⟩

theorem patterns_and_search_below_src :
    let t : Directory := .directory "src" (.file "b.ts" (.file "a.ts" .empty))
      (.directory "node_modules" (.file "c.ts" .empty) .empty)
    Covers "src/**/*" "src/deep/a.ts" ∧ t.isProper = true ∧ "src/a.ts" ∈ search ["**/*"] ["node_modules"] t ∧
      "node_modules/c.ts" ∉ search ["**/*"] ["node_modules"] t := by
  intro t
  obtain ⟨covers, found⟩ := patterns_and_search
  have proper : t.isProper = true := by decide +kernel
  obtain ⟨-, -, -, mem⟩ := found ["**/*"] ["node_modules"] t proper
  have all : Covers "**/*" "src/a.ts" := (covers "**/*" "src/a.ts" (by decide)).mp (by decide +kernel)
  have out : Covers "node_modules" "node_modules/c.ts" :=
    (covers "node_modules" "node_modules/c.ts" (by decide)).mp (by decide +kernel)
  have free : ¬ Covers "node_modules" "src/a.ts" := fun covered =>
    absurd ((covers "node_modules" "src/a.ts" (by decide)).mpr covered) (by decide +kernel)
  refine ⟨(covers "src/**/*" "src/deep/a.ts" (by decide)).mp (by decide +kernel), proper, ?_, ?_⟩
  · refine (mem "src/a.ts").mpr ⟨by decide +kernel, by decide +kernel, ⟨"**/*", List.mem_singleton_self _, all⟩, ?_⟩
    rintro ⟨pattern, held, covered⟩
    exact free (List.mem_singleton.mp held ▸ covered)
  · intro found
    exact ((mem "node_modules/c.ts").mp found).2.2.2 ⟨"node_modules", List.mem_singleton_self _, out⟩

/-- Two stars that are not before a slash stand for more than parts of a name. -/
theorem two_stars_pass_slashes : (ofText "a**b.ts").matchesPath "a/x/b.ts" = true ∧
    ¬ ∃ directory, LiesAt "a/x/b.ts".toList directory ∧ Fits (fun u => '/' ∉ u) "a**b.ts".toList directory := by
  refine ⟨by decide +kernel, ?_⟩
  rintro ⟨directory, lies, fits⟩
  have pattern : "a**b.ts".toList = ['a', '*', '*', 'b', '.', 't', 's'] := by decide
  have path : "a/x/b.ts".toList = ['a', '/', 'x', '/', 'b', '.', 't', 's'] := by decide
  rw [pattern] at fits
  rw [path] at lies
  cases fits with
  | char _ _ fits =>
    cases fits with
    | star other => exact other _ rfl
    | char other => exact other rfl
    | @double _ u _ _ closed fits =>
      cases fits with
      | @char _ w _ _ _ _ =>
        -- The run before the letter begins with the slash, or is empty and the letter is the slash.
        obtain ⟨tail, same⟩ : ∃ tail, ['/', 'x', '/', 'b', '.', 't', 's'] = u ++ 'b' :: tail := by
          obtain same | ⟨rest, same⟩ := lies
          · exact ⟨w, (List.cons.inj same).2⟩
          · exact ⟨w ++ '/' :: rest, by simpa using (List.cons.inj same).2⟩
        cases u with
        | nil => exact absurd (List.cons.inj same).1 (by decide)
        | cons c u =>
          obtain ⟨rfl, -⟩ := List.cons.inj same
          exact closed (List.mem_cons_self ..)

end Path

end ScriptFrontend
