import ScriptFrontend.Text.Path

/-!
# Names along a path

A path is told by its anchor and by the names along it. Paths that are joined, made relative or given
another extension have names that come from those of the paths they are made of.
-/

namespace ScriptFrontend.Path

def namesOf (path : String) : List String := (pieces path).filter (!isBlank ·)

def anchorOf : List String → Option String
  | [] => none
  | p :: ps => if p = "" ∧ ps ≠ [] then some "/" else if p = "." then some "." else none

variable {path base rest extension name : String} {ps qs front blanks : List String}

/-! ## Pieces -/

theorem not_mem_of_mem_splitOn {c : Char} {cs part : List Char} (mem : part ∈ cs.splitOn c) : c ∉ part := by
  induction cs generalizing part with
  | nil =>
    rw [List.splitOn_nil, List.mem_singleton] at mem
    exact mem ▸ List.not_mem_nil
  | cons d cs ih =>
    rw [List.splitOn_cons_eq_if_modifyHead] at mem
    split at mem
    · rcases List.mem_cons.mp mem with rfl | mem
      · exact List.not_mem_nil
      · exact ih mem
    · rename_i other
      obtain ⟨first, more, parts⟩ := List.exists_cons_of_ne_nil (List.splitOn_ne_nil c cs)
      rw [parts] at mem ih
      rcases List.mem_cons.mp mem with rfl | mem
      · refine List.not_mem_cons_of_ne_of_not_mem ?_ (ih (List.mem_cons_self ..))
        exact fun same => other (beq_iff_eq.mpr same.symm)
      · exact ih (List.mem_cons_of_mem _ mem)

theorem not_mem_slash {p : String} (mem : p ∈ pieces path) : '/' ∉ p.toList := by
  obtain ⟨cs, held, rfl⟩ := List.mem_map.mp mem
  rw [String.toList_ofList]
  exact not_mem_of_mem_splitOn held

theorem map_toList_pieces (path : String) : (pieces path).map String.toList = path.toList.splitOn '/' := by
  rw [pieces, List.map_map]
  exact List.map_id'' (fun _ => String.toList_ofList) _

theorem toList_ofPieces (ps : List String) : (ofPieces ps).toList = ['/'].intercalate (ps.map String.toList) := by
  rw [ofPieces, String.toList_intercalate]
  rfl

theorem pieces_ofPieces (some : ps ≠ []) (plain : ∀ p ∈ ps, '/' ∉ p.toList) : pieces (ofPieces ps) = ps := by
  rw [pieces, toList_ofPieces, List.splitOn_intercalate]
  · rw [List.map_map]
    exact List.map_id'' (fun _ => String.ofList_toList) ps
  · rintro cs mem
    obtain ⟨p, held, rfl⟩ := List.mem_map.mp mem
    exact plain p held
  · rwa [Ne, List.map_eq_nil_iff]

theorem ofPieces_pieces (path : String) : ofPieces (pieces path) = path := by
  rw [← String.toList_inj, toList_ofPieces, map_toList_pieces, List.intercalate_splitOn]

theorem pieces_append (a b : String) : pieces (a ++ "/" ++ b) = pieces a ++ pieces b := by
  have chars : (a ++ "/" ++ b).toList = a.toList ++ '/' :: b.toList := by simp
  rw [pieces, chars, List.splitOn_append_cons_self, List.map_append]
  rfl

theorem namesOf_append (a b : String) : namesOf (a ++ "/" ++ b) = namesOf a ++ namesOf b := by
  rw [namesOf, pieces_append, List.filter_append]
  rfl

/-! ## Anchors -/

theorem isAbsolute_iff_head : isAbsolute path = true ↔ path.toList.head? = some '/' := by
  rw [isAbsolute, String.startsWith_string_iff]
  cases path.toList with
  | nil => simp
  | cons c cs => simp [List.cons_prefix_cons, eq_comm]

theorem isAbsolute_iff_pieces : isAbsolute path = true ↔ ∃ p ps, pieces path = "" :: p :: ps := by
  rw [isAbsolute_iff_head]
  constructor
  · intro head
    obtain ⟨cs, chars⟩ := List.head?_eq_some_iff.mp head
    obtain ⟨first, more, parts⟩ := List.exists_cons_of_ne_nil (List.splitOn_ne_nil '/' cs)
    refine ⟨.ofList first, more.map .ofList, ?_⟩
    rw [pieces, chars, List.splitOn_cons_eq_if_modifyHead, if_pos BEq.rfl, parts]
    rfl
  · rintro ⟨p, ps, same⟩
    rw [← ofPieces_pieces path, same, toList_ofPieces]
    rfl

theorem anchor?_eq (path : String) : anchor? path = anchorOf (pieces path) := by
  rw [anchor?]
  split
  case isTrue absolute =>
    obtain ⟨p, ps, same⟩ := isAbsolute_iff_pieces.mp absolute
    rw [same]
    rfl
  case isFalse relative =>
    rw [isAbsolute_iff_pieces] at relative
    cases same : pieces path with
    | nil => rfl
    | cons p ps =>
      have inner : ¬ (p = "" ∧ ps ≠ []) := by
        rintro ⟨rfl, some⟩
        obtain ⟨q, qs, rfl⟩ := List.exists_cons_of_ne_nil some
        exact relative ⟨q, qs, same⟩
      simp [anchorOf, inner]

theorem anchor?_eq_slash : anchor? path = some "/" ↔ isAbsolute path = true := by
  rw [anchor?]
  split <;> simp_all

theorem eq_of_anchor? {p : String} (found : anchor? path = some p) : p = "/" ∨ p = "." := by
  rw [anchor?] at found
  split at found
  · exact .inl (Option.some.inj found).symm
  · split at found
    · exact .inr (Option.some.inj found).symm
    · cases found

theorem namesOf_eq_filter_body (path : String) : namesOf path = (body path).filter (!isBlank ·) := by
  rw [body]
  split
  case isFalse => rfl
  case isTrue anchored =>
    rw [anchor?_eq] at anchored
    rw [namesOf]
    generalize pieces path = ps at anchored ⊢
    cases ps with
    | nil => rfl
    | cons p ps =>
      have blank : isBlank p = true := by
        simp only [anchorOf] at anchored
        split at anchored
        · rename_i first
          rw [first.1]
          rfl
        · split at anchored
          · rename_i first
            rw [first]
            rfl
          · cases anchored
      rw [List.filter_cons_of_neg (by simp [blank]), List.tail_cons]

theorem components_eq (path : String) : components path = (anchor? path).toList ++ namesOf path := by
  rw [components, namesOf_eq_filter_body]

theorem not_mem_namesOf {p a b : String} (found : anchor? a = some p) : p ∉ namesOf b := by
  intro mem
  obtain ⟨held, some⟩ := List.mem_filter.mp mem
  rcases eq_of_anchor? found with rfl | rfl
  · exact not_mem_slash held (List.mem_singleton_self _)
  · cases some

theorem components_eq_iff {a b : String} :
    components a = components b ↔ anchor? a = anchor? b ∧ namesOf a = namesOf b := by
  rw [components_eq, components_eq]
  constructor
  · intro same
    cases first : anchor? a with
    | none =>
      cases second : anchor? b with
      | none => exact ⟨rfl, by rwa [first, second] at same⟩
      | some p =>
        rw [first, second] at same
        have mem : p ∈ [] ++ namesOf a := same ▸ List.mem_cons_self ..
        exact absurd mem (not_mem_namesOf second)
    | some p =>
      cases second : anchor? b with
      | none =>
        rw [first, second] at same
        have mem : p ∈ [] ++ namesOf b := same ▸ List.mem_cons_self ..
        exact absurd mem (not_mem_namesOf first)
      | some q =>
        rw [first, second] at same
        exact ⟨congrArg some (List.cons.inj same).1, (List.cons.inj same).2⟩
  · rintro ⟨anchor, same⟩
    rw [anchor, same]

/-! ## Blank pieces at the end -/

theorem isBlank_of_dropWhile {first : String} (parts : ps.dropWhile isBlank = first :: qs) :
    isBlank first = false := by
  have head := List.head?_dropWhile_not isBlank ps
  rw [parts] at head
  exact Bool.eq_false_iff.mpr (by simpa using head)

theorem trimmed_cases (ps : List String) : (trimmed ps = [] ∧ ∀ p ∈ ps, isBlank p = true) ∨
    ∃ front last blanks, ps = front ++ last :: blanks ∧ trimmed ps = front ++ [last] ∧ isBlank last = false ∧
      ∀ p ∈ blanks, isBlank p = true := by
  have all : ∀ p ∈ ps.reverse.takeWhile isBlank, isBlank p = true := List.all_eq_true.mp List.all_takeWhile
  have parts := congrArg List.reverse (List.takeWhile_append_dropWhile (p := isBlank) (l := ps.reverse))
  rw [List.reverse_append, List.reverse_reverse] at parts
  cases tail : ps.reverse.dropWhile isBlank with
  | nil =>
    refine .inl ⟨by rw [trimmed, tail]; rfl, fun p mem => all p ?_⟩
    rw [tail, List.reverse_nil, List.nil_append] at parts
    rwa [← parts, List.mem_reverse] at mem
  | cons last front =>
    refine .inr ⟨front.reverse, last, (ps.reverse.takeWhile isBlank).reverse, ?_, ?_, isBlank_of_dropWhile tail,
      fun p mem => all p (List.mem_reverse.mp mem)⟩
    · rw [tail, List.reverse_cons, List.append_assoc] at parts
      exact parts.symm
    · rw [trimmed, tail, List.reverse_cons]

theorem filter_blanks (all : ∀ p ∈ blanks, isBlank p = true) : blanks.filter (!isBlank ·) = [] := by
  rw [List.filter_eq_nil_iff]
  intro p mem
  simp [all p mem]

theorem filter_split {last : String} (some : isBlank last = false) (all : ∀ p ∈ blanks, isBlank p = true) :
    (front ++ last :: blanks).filter (!isBlank ·) = front.filter (!isBlank ·) ++ [last] := by
  rw [List.filter_append, List.filter_cons_of_pos (by simp [some]), filter_blanks all]

theorem filter_trimmed (ps : List String) : (trimmed ps).filter (!isBlank ·) = ps.filter (!isBlank ·) := by
  obtain ⟨none, all⟩ | ⟨front, last, blanks, parts, kept, some, all⟩ := trimmed_cases ps
  · rw [none, filter_blanks all]
    rfl
  · rw [kept, parts, filter_split some all, filter_split some (List.forall_mem_nil _)]

theorem anchorOf_cons {first : String} (some : isBlank first = false) : anchorOf (first :: ps) = none := by
  rw [isBlank, Bool.or_eq_false_iff, beq_eq_false_iff_ne, beq_eq_false_iff_ne] at some
  rw [anchorOf, if_neg fun first => some.1 first.1, if_neg some.2]

theorem anchorOf_split {last new : String} {blanks blanks' : List String} (some : isBlank last = false)
    (some' : isBlank new = false) : anchorOf (front ++ last :: blanks) = anchorOf (front ++ new :: blanks') := by
  cases front with
  | nil => rw [List.nil_append, List.nil_append, anchorOf_cons some, anchorOf_cons some']
  | cons p front => simp [anchorOf]

theorem getLast?_trimmed (ps : List String) : (trimmed ps).getLast? = (ps.filter (!isBlank ·)).getLast? := by
  obtain ⟨none, all⟩ | ⟨front, last, blanks, parts, kept, some, all⟩ := trimmed_cases ps
  · rw [none, filter_blanks all]
  · rw [kept, parts, filter_split some all, List.getLast?_concat, List.getLast?_concat]

theorem fileName?_eq (path : String) : fileName? path = (namesOf path).getLast?.filter (· != "..") := by
  rw [fileName?, getLast?_trimmed, namesOf_eq_filter_body]

/-! ## Paths made of pieces -/

theorem namesOf_ofPieces (plain : ∀ p ∈ ps, '/' ∉ p.toList) : namesOf (ofPieces ps) = ps.filter (!isBlank ·) := by
  cases ps with
  | nil => rfl
  | cons p ps => rw [namesOf, pieces_ofPieces (List.cons_ne_nil p ps) plain]

theorem anchor?_ofPieces (plain : ∀ p ∈ ps, '/' ∉ p.toList) : anchor? (ofPieces ps) = anchorOf ps := by
  cases ps with
  | nil => rfl
  | cons p ps => rw [anchor?_eq, pieces_ofPieces (List.cons_ne_nil p ps) plain]

theorem mem_of_mem_trimmed {p : String} (mem : p ∈ trimmed ps) : p ∈ ps := by
  rw [trimmed, List.mem_reverse] at mem
  exact List.mem_reverse.mp (List.dropWhile_subset _ mem)

theorem mem_of_mem_body {p : String} (mem : p ∈ body path) : p ∈ pieces path := by
  rw [body] at mem
  split at mem
  · exact List.mem_of_mem_tail mem
  · exact mem

/-! ## Extensions -/

/-- A text is put together again from its parts up to the last separator and from what stands behind that. -/
theorem intercalate_front {c : Char} {cs last : List Char} {front : List (List Char)} (some : front ≠ [])
    (parts : cs.splitOn c = front ++ [last]) : [c].intercalate front ++ c :: last = cs := by
  have closed (part : List Char) (mem : part ∈ front ++ [last]) : c ∉ part := not_mem_of_mem_splitOn (parts ▸ mem)
  have same : ([c].intercalate front ++ c :: last).splitOn c = cs.splitOn c := by
    rw [List.splitOn_append_cons_self, parts,
      List.splitOn_intercalate c (fun part mem => closed part (List.mem_append_left _ mem)) some,
      List.splitOn_eq_singleton (closed last (List.mem_append_right _ (List.mem_singleton_self _)))]
  calc [c].intercalate front ++ c :: last
    _ = [c].intercalate (([c].intercalate front ++ c :: last).splitOn c) := (List.intercalate_splitOn c).symm
    _ = [c].intercalate (cs.splitOn c) := congrArg _ same
    _ = cs := List.intercalate_splitOn c

theorem splitName_cases (name : String) : splitName name = (name, none) ∨
    ∃ stem extension, splitName name = (stem, some extension) ∧ stem ≠ "" ∧ name = stem ++ "." ++ extension := by
  rw [splitName]
  split
  case h_2 => exact .inl rfl
  case h_1 extension last rest parts =>
    have parts : name.toList.splitOn '.' = rest.reverse ++ [last] ++ [extension] := by
      rw [← List.reverse_inj, parts]
      simp
    have joined := intercalate_front (by simp) parts
    dsimp only
    split
    · exact .inl rfl
    · rename_i some
      refine .inr ⟨_, _, rfl, by simpa using some, ?_⟩
      rw [← String.toList_inj, ← joined]
      simp

theorem stem_ne_empty (some : name ≠ "") : (splitName name).1 ≠ "" := by
  obtain same | ⟨stem, extension, same, kept, -⟩ := splitName_cases name
  · rwa [same]
  · rwa [same]

theorem mem_of_mem_stem {c : Char} (mem : c ∈ (splitName name).1.toList) : c ∈ name.toList := by
  obtain same | ⟨stem, extension, same, -, parts⟩ := splitName_cases name
  · rwa [same] at mem
  · rw [same] at mem
    rw [parts, String.toList_append, String.toList_append]
    exact List.mem_append_left _ (List.mem_append_left _ mem)

def rename (extension name : String) : String := (splitName name).1 ++ "." ++ extension

/-- What may stand behind the last dot of a name. -/
structure IsExtension (extension : String) : Prop where
  some : extension ≠ ""
  plain : '/' ∉ extension.toList
  closed : '.' ∉ extension.toList

theorem isBlank_rename (some : name ≠ "") : isBlank (rename extension name) = false := by
  have length : 2 ≤ (rename extension name).toList.length := by
    have stem := List.length_pos_iff.mpr (mt String.toList_eq_nil_iff.mp (stem_ne_empty some))
    have dot : ".".toList.length = 1 := rfl
    simp only [rename, String.toList_append, List.length_append]
    omega
  rw [isBlank, Bool.or_eq_false_iff, beq_eq_false_iff_ne, beq_eq_false_iff_ne]
  refine ⟨?_, ?_⟩ <;>
    · intro same
      rw [same] at length
      exact absurd length (by decide)

section

variable (ext : IsExtension extension)

include ext

theorem rename_ne_parent (name : String) : rename extension name ≠ ".." := by
  intro same
  have last : (rename extension name).toList.getLast? = some '.' := same ▸ rfl
  obtain ⟨c, found⟩ := Option.isSome_iff_exists.mp
    (List.getLast?_isSome.mpr (mt String.toList_eq_nil_iff.mp ext.some))
  rw [rename, String.toList_append, List.getLast?_append, found] at last
  exact ext.closed (Option.some.inj last ▸ List.mem_of_getLast? found)

theorem not_mem_slash_rename (plain : '/' ∉ name.toList) : '/' ∉ (rename extension name).toList := by
  simp only [rename, String.toList_append, List.mem_append, not_or]
  exact ⟨⟨fun mem => plain (mem_of_mem_stem mem), by decide⟩, ext.plain⟩

theorem stem_eq_of_rename_eq {extension' name' : String} (ext' : IsExtension extension')
    (same : rename extension name = rename extension' name') : (splitName name).1 = (splitName name').1 := by
  have parts (e stem : String) (ext : IsExtension e) :
      (stem ++ "." ++ e).toList.splitOn '.' = stem.toList.splitOn '.' ++ [e.toList] := by
    rw [String.toList_append, String.toList_append, List.append_assoc]
    change (stem.toList ++ '.' :: e.toList).splitOn '.' = _
    rw [List.splitOn_append_cons_self, List.splitOn_eq_singleton ext.closed]
  have both := congrArg (fun s : String => s.toList.splitOn '.') same
  simp only [rename, parts _ _ ext, parts _ _ ext'] at both
  have stems := congrArg (['.'].intercalate ·) (List.append_inj_left' both rfl)
  simp only [List.intercalate_splitOn] at stems
  exact String.toList_inj.mp stems

theorem withExtension_spec (found : fileName? path = some name) :
    anchor? (withExtension path extension) = anchor? path ∧
      namesOf (withExtension path extension) = (namesOf path).dropLast ++ [rename extension name] := by
  rw [fileName?_eq, Option.filter_eq_some_iff] at found
  obtain ⟨none, all⟩ | ⟨front, last, blanks, parts, kept, some, all⟩ := trimmed_cases (pieces path)
  · rw [namesOf, filter_blanks all] at found
    cases found.1
  · have split : namesOf path = front.filter (!isBlank ·) ++ [last] := by rw [namesOf, parts, filter_split some all]
    obtain rfl : last = name := by
      have last := found.1
      rw [split, List.getLast?_concat] at last
      exact Option.some.inj last
    have some' : isBlank (rename extension last) = false := isBlank_rename (by rintro rfl; cases some)
    have inside (p : String) (mem : p ∈ front ++ last :: blanks) : '/' ∉ p.toList := not_mem_slash (parts ▸ mem)
    have plain : ∀ p ∈ front ++ [rename extension last], '/' ∉ p.toList := by
      intro p mem
      rcases List.mem_append.mp mem with mem | mem
      · exact inside p (List.mem_append_left _ mem)
      · rw [List.mem_singleton.mp mem]
        exact not_mem_slash_rename ext (inside last (List.mem_append_right _ (List.mem_cons_self ..)))
    have made : withExtension path extension = ofPieces (front ++ [rename extension last]) := by
      have name : fileName? path = Option.some last := by
        rw [fileName?_eq, Option.filter_eq_some_iff]
        exact found
      rw [withExtension, name]
      dsimp only
      rw [kept, List.dropLast_concat]
      rfl
    rw [made, anchor?_ofPieces plain, namesOf_ofPieces plain, anchor?_eq, parts, split, List.dropLast_concat]
    exact ⟨anchorOf_split some' some, filter_split some' (List.forall_mem_nil _)⟩

/-- A row of names with another extension for the last one, unless that is two dots. -/
def renamed (extension : String) (ns : List String) : List String :=
  match ns.getLast?.filter (· != "..") with
  | none => ns
  | some name => ns.dropLast ++ [rename extension name]

theorem withExtension_leads (path : String) : anchor? (withExtension path extension) = anchor? path ∧
    namesOf (withExtension path extension) = renamed extension (namesOf path) := by
  rw [renamed, ← fileName?_eq]
  cases found : fileName? path with
  | none =>
    rw [withExtension, found]
    exact ⟨rfl, rfl⟩
  | some name => exact withExtension_spec ext found

end

/-- Rows of names that are the same, but for the extension of the last name. -/
inductive Alike : List String → List String → Prop
  | same (ns : List String) : Alike ns ns
  | last (front : List String) {n m : String} : n ≠ ".." → m ≠ ".." → (splitName n).1 = (splitName m).1 →
    Alike (front ++ [n]) (front ++ [m])

theorem Alike.append (first : List String) {ns ms : List String} (alike : Alike ns ms) :
    Alike (first ++ ns) (first ++ ms) := by
  cases alike with
  | same => exact .same _
  | last front some some' same =>
    rw [← List.append_assoc, ← List.append_assoc]
    exact .last _ some some' same

theorem alike_concat {front front' : List String} {n m : String} : Alike (front ++ [n]) (front' ++ [m]) ↔
    front = front' ∧ (n = m ∨ n ≠ ".." ∧ m ≠ ".." ∧ (splitName n).1 = (splitName m).1) := by
  constructor
  · intro alike
    generalize first : front ++ [n] = ns at alike
    generalize second : front' ++ [m] = ms at alike
    cases alike with
    | same =>
      obtain ⟨fronts, last⟩ := List.append_inj' (first.trans second.symm) rfl
      exact ⟨fronts, .inl (List.singleton_inj.mp last)⟩
    | last front some some' same =>
      obtain ⟨rfl, one⟩ := List.append_inj' first rfl
      obtain ⟨rfl, other⟩ := List.append_inj' second rfl
      obtain rfl := List.singleton_inj.mp one
      obtain rfl := List.singleton_inj.mp other
      exact ⟨rfl, .inr ⟨some, some', same⟩⟩
  · rintro ⟨rfl, rfl | ⟨some, some', same⟩⟩
    · exact .same _
    · exact .last front some some' same

theorem renamed_cases (extension : String) (ns : List String) :
    ns.getLast?.filter (· != "..") = none ∧ renamed extension ns = ns ∨
      ∃ front n, ns = front ++ [n] ∧ n ≠ ".." ∧ renamed extension ns = front ++ [rename extension n] := by
  rw [renamed]
  cases found : ns.getLast?.filter (· != "..") with
  | none => exact .inl ⟨rfl, rfl⟩
  | some n =>
    obtain ⟨last, some⟩ := Option.filter_eq_some_iff.mp found
    obtain ⟨front, rfl⟩ := List.getLast?_eq_some_iff.mp last
    exact .inr ⟨front, n, rfl, by simpa using some, by rw [List.dropLast_concat]⟩

/-- Rows of names lead apart with any extensions, unless they are alike. -/
theorem alike_of_renamed_eq {e e' : String} {ns ms : List String} (ext : IsExtension e) (ext' : IsExtension e')
    (same : renamed e ns = renamed e' ms) : Alike ns ms := by
  have apart (e : String) (ext : IsExtension e) (front : List String) (n : String) :
      (front ++ [rename e n]).getLast?.filter (· != "..") = some (rename e n) := by
    rw [List.getLast?_concat, Option.filter_some, if_pos (by simpa using rename_ne_parent ext n)]
  obtain ⟨none, first⟩ | ⟨front, n, rfl, some, first⟩ := renamed_cases e ns <;>
    obtain ⟨none', second⟩ | ⟨front', m, rfl, some', second⟩ := renamed_cases e' ms <;>
      rw [first, second] at same
  · exact same ▸ .same ns
  · rw [same, apart e' ext'] at none
    cases none
  · rw [← same, apart e ext] at none'
    cases none'
  · obtain ⟨rfl, last⟩ := List.append_inj' same rfl
    exact .last front some some' (stem_eq_of_rename_eq ext ext' (List.cons.inj last).1)

theorem not_mem_parent_renamed {ns : List String} (ext : IsExtension extension) (plain : ".." ∉ ns) :
    ".." ∉ renamed extension ns := by
  obtain ⟨-, same⟩ | ⟨front, n, rfl, -, same⟩ := renamed_cases extension ns <;> rw [same]
  · exact plain
  · intro mem
    rcases List.mem_append.mp mem with mem | mem
    · exact plain (List.mem_append_left _ mem)
    · exact rename_ne_parent ext n (List.mem_singleton.mp mem).symm

theorem renamed_ne_nil {ns : List String} (some : ns ≠ []) : renamed extension ns ≠ [] := by
  obtain ⟨-, same⟩ | ⟨front, n, -, -, same⟩ := renamed_cases extension ns <;> rw [same]
  · exact some
  · exact List.append_ne_nil_of_right_ne_nil _ (List.cons_ne_nil _ _)

/-- Both paths begin at the same place and go along the same names, but for an extension. -/
def SameButExtension (a b : String) : Prop := anchor? a = anchor? b ∧ Alike (namesOf a) (namesOf b)

/-! ## Paths below another one -/

theorem filter_dropWhile (ps : List String) :
    (ps.dropWhile isBlank).filter (!isBlank ·) = ps.filter (!isBlank ·) := by
  induction ps with
  | nil => rfl
  | cons p ps ih =>
    rw [List.dropWhile_cons]
    split
    · rename_i blank
      rw [ih, List.filter_cons_of_neg (by simp [blank])]
    · rfl

/-- Going down along names leaves what stands behind them. -/
theorem filter_of_descend {ns : List String} (h : descend ps ns = some qs) :
    ps.filter (!isBlank ·) = ns ++ qs.filter (!isBlank ·) ∧ qs ⊆ ps := by
  induction ns generalizing ps with
  | nil =>
    obtain rfl := Option.some.inj h
    exact ⟨rfl, fun _ => id⟩
  | cons n ns ih =>
    rw [descend] at h
    split at h
    · cases h
    · rename_i first rest parts
      have some := isBlank_of_dropWhile parts
      split at h
      · rename_i same
        obtain ⟨split, sub⟩ := ih h
        rw [← filter_dropWhile, parts, List.filter_cons_of_pos (by simp [some]), split, eq_of_beq same]
        exact ⟨rfl, fun p mem => List.dropWhile_subset _ (parts ▸ List.mem_cons_of_mem _ (sub mem))⟩
      · cases h

theorem descend_isSome {ns : List String} (h : ns <+: ps.filter (!isBlank ·)) : (descend ps ns).isSome = true := by
  induction ns generalizing ps with
  | nil => rfl
  | cons n ns ih =>
    rw [← filter_dropWhile] at h
    rw [descend]
    cases parts : ps.dropWhile isBlank with
    | nil =>
      rw [parts] at h
      cases List.prefix_nil.mp h
    | cons first rest =>
      have some := isBlank_of_dropWhile parts
      rw [parts, List.filter_cons_of_pos (by simp [some]), List.cons_prefix_cons] at h
      dsimp only
      rw [h.1, if_pos BEq.rfl]
      exact ih h.2

/-- The pieces that a path starts with again after its body is cut from it. -/
def kept (path : String) : List String := (anchor? path).toList.map fun a => if a == "/" then "" else a

theorem kept_cases (path : String) : isAbsolute path = true ∧ kept path = [""] ∨
    isAbsolute path = false ∧ anchor? path = some "." ∧ kept path = ["."] ∨
    isAbsolute path = false ∧ anchor? path = none ∧ kept path = [] ∧ body path = pieces path := by
  cases absolute : isAbsolute path with
  | true =>
    refine .inl ⟨rfl, ?_⟩
    rw [kept, anchor?_eq_slash.mpr absolute]
    rfl
  | false =>
    cases found : anchor? path with
    | none => exact .inr (.inr ⟨rfl, rfl, by rw [kept, found]; rfl, by rw [body, found]; rfl⟩)
    | some p =>
      rcases eq_of_anchor? found with rfl | rfl
      · rw [anchor?_eq_slash.mp found] at absolute
        cases absolute
      · exact .inr (.inl ⟨rfl, rfl, by rw [kept, found]; rfl⟩)

theorem isBlank_of_mem_kept {p : String} (mem : p ∈ kept path) : '/' ∉ p.toList ∧ isBlank p = true := by
  obtain ⟨-, same⟩ | ⟨-, -, same⟩ | ⟨-, -, same, -⟩ := kept_cases path <;> rw [same] at mem
  · rw [List.mem_singleton.mp mem]
    decide
  · rw [List.mem_singleton.mp mem]
    decide
  · cases mem

theorem whole_spec (path : String) :
    let rest := ofPieces (kept path ++ trimmed (body path))
    let whole := if rest == "" && isAbsolute path then "/" else rest
    anchor? whole = anchor? path ∧ namesOf whole = namesOf path := by
  intro rest whole
  have plain : ∀ p ∈ kept path ++ trimmed (body path), '/' ∉ p.toList := by
    intro p mem
    rcases List.mem_append.mp mem with mem | mem
    · exact (isBlank_of_mem_kept mem).1
    · exact not_mem_slash (mem_of_mem_body (mem_of_mem_trimmed mem))
  have same : namesOf rest = namesOf path := by
    rw [namesOf_ofPieces plain, List.filter_append, filter_blanks fun p mem => (isBlank_of_mem_kept mem).2,
      filter_trimmed, namesOf_eq_filter_body]
    rfl
  by_cases root : (rest == "" && isAbsolute path) = true
  · have whole : whole = "/" := if_pos root
    rw [Bool.and_eq_true, beq_iff_eq] at root
    rw [root.1] at same
    rw [whole, anchor?_eq_slash.mpr root.2]
    exact ⟨anchor?_eq_slash.mpr (isAbsolute_iff_head.mpr rfl), same⟩
  · have whole : whole = rest := if_neg root
    rw [whole]
    refine ⟨?_, same⟩
    rw [anchor?_ofPieces plain]
    obtain ⟨absolute, front⟩ | ⟨-, found, front⟩ | ⟨-, found, front, all⟩ := kept_cases path
    · rw [anchor?_eq_slash.mpr absolute, front]
      cases parts : trimmed (body path) with
      | nil =>
        have empty : rest = "" := by
          change ofPieces (kept path ++ trimmed (body path)) = ""
          rw [front, parts]
          rfl
        rw [empty, absolute] at root
        exact absurd rfl root
      | cons p ps => rfl
    · rw [found, front]
      rfl
    · rw [front, all, List.nil_append, anchor?_eq]
      obtain ⟨none, -⟩ | ⟨front, last, blanks, parts, kept, some, -⟩ := trimmed_cases (pieces path)
      · rw [none, ← anchor?_eq, found]
        rfl
      · rw [kept, parts, anchorOf_split some some]

/-- The rest of a path below another one has the names behind those of that one. Below a path that says nothing
it is the whole path. -/
theorem below?_spec (h : below? path base = some rest) :
    namesOf path = namesOf base ++ namesOf rest ∧
      (components base = [] ∧ anchor? rest = anchor? path ∨ anchor? path = anchor? base ∧ anchor? rest = none) := by
  rw [below?] at h
  dsimp only at h
  split at h
  case isTrue empty =>
    have empty := List.isEmpty_iff.mp empty
    have none : namesOf base = [] := (List.append_eq_nil_iff.mp (components_eq base ▸ empty)).2
    obtain ⟨anchor, same⟩ := whole_spec path
    rw [← Option.some.inj h, none]
    exact ⟨same.symm, .inl ⟨empty, anchor⟩⟩
  case isFalse =>
    split at h
    · cases h
    · rename_i anchors
      obtain ⟨left, found, rfl⟩ := Option.map_eq_some_iff.mp h
      obtain ⟨split, sub⟩ := filter_of_descend found
      have plain : ∀ p ∈ trimmed (left.dropWhile isBlank), '/' ∉ p.toList := fun p mem =>
        not_mem_slash (mem_of_mem_body (sub (List.dropWhile_subset _ (mem_of_mem_trimmed mem))))
      rw [namesOf_ofPieces plain, anchor?_ofPieces plain, filter_trimmed, filter_dropWhile, namesOf_eq_filter_body,
        namesOf_eq_filter_body, split]
      refine ⟨rfl, .inr ⟨by simpa using anchors, ?_⟩⟩
      obtain ⟨none, -⟩ | ⟨front, last, blanks, parts, kept, some, -⟩ := trimmed_cases (left.dropWhile isBlank)
      · rw [none]
        rfl
      · have same : anchorOf (front ++ [last]) = anchorOf (front ++ last :: blanks) := anchorOf_split some some
        rw [kept, same, ← parts]
        cases first : left.dropWhile isBlank with
        | nil => rfl
        | cons p ps => exact anchorOf_cons (isBlank_of_dropWhile first)

/-- A path begins where another one does and goes along its names first. -/
def Under (path base : String) : Prop := anchor? path = anchor? base ∧ namesOf base <+: namesOf path

theorem below?_isSome : (below? path base).isSome = true ↔ components base = [] ∨ Under path base := by
  rw [below?]
  dsimp only
  split
  case isTrue empty => exact ⟨fun _ => .inl (List.isEmpty_iff.mp empty), fun _ => rfl⟩
  case isFalse some =>
    rw [List.isEmpty_iff] at some
    split
    · rename_i other
      rw [bne_iff_ne] at other
      exact ⟨nofun, fun found => found.elim (absurd · some) fun under => absurd under.1 other⟩
    · rename_i same
      have same : anchor? path = anchor? base := by simpa using same
      rw [Option.isSome_map, Under, namesOf_eq_filter_body base, namesOf_eq_filter_body path]
      constructor
      · intro found
        obtain ⟨left, found⟩ := Option.isSome_iff_exists.mp found
        exact .inr ⟨same, _, (filter_of_descend found).1.symm⟩
      · rintro (empty | under)
        · exact absurd empty some
        · exact descend_isSome under.2

/-! ## Joined paths -/

theorem isAbsolute_append (some : base ≠ "") : isAbsolute (base ++ path) = isAbsolute base := by
  obtain ⟨c, cs, chars⟩ := List.exists_cons_of_ne_nil (mt String.toList_eq_nil_iff.mp some)
  rw [Bool.eq_iff_iff, isAbsolute_iff_head, isAbsolute_iff_head, String.toList_append, chars]
  rfl

theorem namesOf_join (relative : isAbsolute path = false) : namesOf (join base path) = namesOf base ++ namesOf path := by
  rw [join, if_neg (by simp [relative])]
  split
  · rename_i direct
    rcases Bool.or_eq_true_iff.mp direct with empty | ends
    · rw [eq_of_beq empty, String.empty_append]
      rfl
    · rw [← String.endsWith_toSlice, String.Slice.endsWith_string_iff, String.copy_toSlice] at ends
      obtain ⟨front, chars⟩ := ends
      obtain rfl : .ofList front ++ "/" = base := by rw [← String.toList_inj, ← chars]; simp
      rw [namesOf_append]
      have empty : namesOf (.ofList front ++ "/") = namesOf (.ofList front) := by
        rw [← String.append_empty (s := .ofList front ++ "/"), namesOf_append]
        exact List.append_nil _
      rw [empty]
  · exact namesOf_append base path

theorem isAbsolute_join (relative : isAbsolute path = false) : isAbsolute (join base path) = isAbsolute base := by
  rw [join, if_neg (by simp [relative])]
  by_cases some : base = ""
  · have empty : (base == "" || base.endsWith "/") = true := Bool.or_eq_true_iff.mpr (.inl (beq_iff_eq.mpr some))
    rw [if_pos empty, some, String.empty_append, relative]
    rfl
  · split
    · exact isAbsolute_append some
    · rw [String.append_assoc, isAbsolute_append some]

/-- A path begins where another one does, and goes along its names and then along more of them, none of which
leads back. -/
def IsBelow (path dir : String) : Prop :=
  isAbsolute path = isAbsolute dir ∧ ∃ rest, namesOf path = namesOf dir ++ rest ∧ rest ≠ [] ∧ ".." ∉ rest

end ScriptFrontend.Path
