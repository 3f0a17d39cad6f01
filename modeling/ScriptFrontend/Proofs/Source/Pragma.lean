import Mathlib.Data.List.SplitBy
import ScriptFrontend.Proofs.Source.Update

/-!
# What a file records of its pragmas

A pragma that a file records stands in one of the comments that lead the file, and has a value that is not empty
for each argument that its rule asks for, unless the text breaks off behind its name. A file that a reference names
stands between two quotes of that comment, just where its range says.
-/

namespace ScriptFrontend

/-- A value stands between two quotes of one kind from an offset of a text on. -/
def Text.StandsQuoted (s value : String) (offset : Nat) : Prop :=
  ∃ front quote behind, s.toList = (front ++ [quote]) ++ (value.toList ++ quote :: behind) ∧
    String.utf8Len (front ++ [quote]) = offset ∧ (quote = '\'' ∨ quote = '"') ∧ quote ∉ value.toList

namespace Text.StandsQuoted

variable {s value : String} {offset i j : Nat}

theorem slice_eq (h : StandsQuoted s value offset) : slice s offset (offset + value.utf8ByteSize) = value := by
  obtain ⟨front, quote, behind, same, rfl, -⟩ := h
  have ends : String.utf8Len (front ++ [quote]) + value.utf8ByteSize =
      String.utf8Len (front ++ [quote] ++ value.toList) := by
    simp only [String.utf8Len_append, String.utf8Len_toList]
  rw [ends, slice_of_split same, String.ofList_toList]

/-- What is quoted in a part of a text is quoted in the text. -/
theorem of_slice (hi : Boundary s i) (hj : Boundary s j) (ij : i ≤ j)
    (h : StandsQuoted (slice s i j) value offset) :
    StandsQuoted s value (i + offset) ∧ i + offset + value.utf8ByteSize < j := by
  obtain ⟨l, m, r, whole, rfl, rfl⟩ := hi.split_between hj ij
  rw [slice_of_split whole] at h
  obtain ⟨front, quote, behind, same, rfl, isQuote, inside⟩ := h
  rw [String.toList_ofList] at same
  subst same
  refine ⟨⟨l ++ front, quote, behind ++ r, ?_, ?_, isQuote, inside⟩, ?_⟩
  · rw [whole]
    simp only [List.append_assoc, List.cons_append]
  · simp only [String.utf8Len_append]
    omega
  · have := quote.utf8Size_pos
    simp only [String.utf8Len_append, String.utf8Len_cons, String.utf8Len_toList]
    omega

end Text.StandsQuoted

namespace Pragma

/-! ## Named arguments -/

variable {name cs value rest : List Char}

theorem afterName?_suffix (h : afterName? name cs = some rest) : rest <:+ cs := by
  induction name generalizing cs with
  | nil =>
    cases h
    exact List.suffix_refl _
  | cons n name ih =>
    cases cs with
    | nil => cases h
    | cons c cs =>
      rw [afterName?] at h
      split at h
      · exact (ih h).trans (List.suffix_cons c cs)
      · cases h

theorem dropBlanks_suffix (cs : List Char) : dropBlanks cs <:+ cs := List.dropWhile_suffix _

/-- A text with some character in it goes up to the first of them. -/
theorem takeWhile_ne_append {c : Char} (mem : c ∈ cs) :
    ∃ behind, cs = cs.takeWhile (· != c) ++ c :: behind ∧ c ∉ cs.takeWhile (· != c) := by
  obtain ⟨front, behind, rfl, lacks⟩ := List.eq_append_cons_of_mem mem
  have taken : (front ++ c :: behind).takeWhile (· != c) = front := by
    rw [List.takeWhile_append_of_pos fun d inFront => bne_iff_ne.mpr (ne_of_mem_of_not_mem inFront lacks),
      List.takeWhile_cons_of_neg (by simp), List.append_nil]
  exact ⟨behind, by rw [taken], by rwa [taken]⟩

/-- A value that was found stands behind a quote and goes on to the next such quote. -/
theorem quotedAfter?_found (h : quotedAfter? name cs = some (value, rest)) :
    ∃ quote behind, quote :: rest <:+ cs ∧ rest = value ++ quote :: behind ∧
      (quote = '\'' ∨ quote = '"') ∧ quote ∉ value := by
  cases cs with
  | nil => cases h
  | cons c cs =>
    rw [quotedAfter?] at h
    split at h
    · cases h
    · obtain ⟨afterName, named, h⟩ := Option.bind_eq_some_iff.mp h
      split at h
      · rename_i afterEquals equals
        split at h
        · rename_i quote afterQuote opened
          dsimp only at h
          split at h
          · cases h
          · rename_i isQuote
            split at h
            · rename_i closes
              cases h
              obtain ⟨behind, whole, lacks⟩ := takeWhile_ne_append (List.contains_iff_mem.mp closes)
              refine ⟨quote, behind, ?_, whole, by simpa [imp_iff_or_not, or_comm] using isQuote, lacks⟩
              have inside : '=' :: afterEquals <:+ cs := equals ▸ (dropBlanks_suffix _).trans (afterName?_suffix named)
              have opening : quote :: rest <:+ afterEquals := opened ▸ dropBlanks_suffix _
              exact ((opening.trans (List.suffix_cons _ _)).trans inside).trans (List.suffix_cons c cs)
            · cases h
        · cases h
      · cases h

theorem findQuoted?_found (h : findQuoted? name cs = some (value, rest)) :
    ∃ quote behind, quote :: rest <:+ cs ∧ rest = value ++ quote :: behind ∧
      (quote = '\'' ∨ quote = '"') ∧ quote ∉ value := by
  induction cs with
  | nil => cases h
  | cons c cs ih =>
    rw [findQuoted?] at h
    cases here : quotedAfter? name (c :: cs) with
    | some found =>
      rw [here] at h
      cases h
      exact quotedAfter?_found here
    | none =>
      rw [here] at h
      obtain ⟨quote, behind, suffix, parts⟩ := ih h
      exact ⟨quote, behind, suffix.trans (List.suffix_cons c cs), parts⟩

theorem namedValue?_found {comment argument text : String} {offset : Nat}
    (h : namedValue? comment argument = some (text, offset)) :
    text ≠ "" ∧ Text.StandsQuoted comment text offset := by
  rw [namedValue?] at h
  obtain ⟨⟨value, rest⟩, found, h⟩ := Option.bind_eq_some_iff.mp h
  obtain ⟨quote, behind, ⟨front, whole⟩, rfl, isQuote, inside⟩ := findQuoted?_found found
  dsimp only at h
  split at h
  · cases h
  · rename_i solid
    cases h
    rw [List.isEmpty_iff] at solid
    have size : comment.utf8ByteSize - (String.ofList (value ++ quote :: behind)).utf8ByteSize =
        String.utf8Len (front ++ [quote]) := by
      rw [← String.utf8Len_toList, ← whole, String.utf8ByteSize_ofList]
      simp only [String.utf8Len_append, String.utf8Len_cons, String.utf8Len_nil]
      omega
    refine ⟨?_, front, quote, behind, ?_, size.symm, isQuote, ?_⟩
    · simpa using solid
    · rw [← whole, String.toList_ofList]
      simp
    · rwa [String.toList_ofList]

/-! ## Arguments that a rule asks for -/

theorem mem_of_lookup {l : List (String × String)} {key v : String} (h : l.lookup key = some v) : (key, v) ∈ l := by
  obtain ⟨front, behind, rfl, -⟩ := List.lookup_eq_some_iff.mp h
  exact List.mem_append_right _ List.mem_cons_self

/-- A pragma has values for the arguments of its rule, in their order. None is empty, and none that the rule asks
for is left out. -/
structure Fulfils (p : Pragma) (r : PragmaRule) : Prop where
  rule : r ∈ rules
  name : r.name = p.name
  arguments : (p.arguments.map Prod.fst).Sublist (r.arguments.map (·.name))
  required : ∀ a ∈ r.arguments, a.isRequired = true → ∃ v, p.argument? a.name = some v
  solid : ∀ a ∈ p.arguments, a.2 ≠ ""

variable {p : Pragma} {r : PragmaRule} {form : PragmaForm} {range : Text.Range}

theorem Fulfils.argument?_ne_empty (h : p.Fulfils r) {argument v : String} (has : p.argument? argument = some v) :
    v ≠ "" := h.solid (argument, v) (mem_of_lookup has)

theorem rule?_found {word : String} (h : rule? word form = some r) : r ∈ rules ∧ r.name = word ∧ r.form = form := by
  have fits := List.find?_some h
  rw [Bool.and_eq_true, beq_iff_eq, beq_iff_eq] at fits
  exact ⟨List.mem_of_find?_eq_some h, fits⟩

theorem fulfils_of_collect? (rule : r ∈ rules) {value? : PragmaArgument → Option String}
    {collected : List (String × String)} (solid : ∀ a v, value? a = some v → v ≠ "")
    (h : collect? value? r.arguments = some collected) : Fulfils ⟨r.name, range, collected⟩ r := by
  have parts : ∀ (arguments : List PragmaArgument) (collected : List (String × String)),
      collect? value? arguments = some collected →
        (collected.map Prod.fst).Sublist (arguments.map (·.name)) ∧
          (∀ a ∈ arguments, a.isRequired = true → a.name ∈ collected.map Prod.fst) ∧ ∀ a ∈ collected, a.2 ≠ "" := by
    intro arguments
    induction arguments with
    | nil =>
      rintro _ ⟨⟩
      exact ⟨.slnil, List.forall_mem_nil _, List.forall_mem_nil _⟩
    | cons a rest ih =>
      intro collected h
      rw [collect?] at h
      cases value : value? a with
      | some v =>
        rw [value] at h
        obtain ⟨others, collects, rfl⟩ := Option.map_eq_some_iff.mp h
        obtain ⟨sublist, required, nonempty⟩ := ih others collects
        refine ⟨sublist.cons_cons _, ?_, List.forall_mem_cons.mpr ⟨solid a v value, nonempty⟩⟩
        rw [List.forall_mem_cons]
        exact ⟨fun _ => List.mem_cons_self, fun b mem asked => List.mem_cons_of_mem _ (required b mem asked)⟩
      | none =>
        rw [value] at h
        dsimp only at h
        split at h
        · cases h
        · rename_i optional
          obtain ⟨sublist, required, nonempty⟩ := ih collected h
          refine ⟨sublist.cons _, ?_, nonempty⟩
          rw [List.forall_mem_cons]
          exact ⟨fun asked => absurd asked optional, required⟩
  obtain ⟨arguments, required, nonempty⟩ := parts _ _ h
  refine ⟨rule, rfl, arguments, fun a mem asked => ?_, nonempty⟩
  obtain ⟨entry, has, key⟩ := List.mem_map.mp (required a mem asked)
  exact Option.isSome_iff_exists.mp (List.lookup_isSome_iff.mpr ⟨entry, has, beq_iff_eq.mpr key.symm⟩)

/-! ## Pragmas in comments -/

structure EndsText (p : Pragma) (cs : List Char) : Prop where
  known : p.name ∈ rules.map (·.name)
  bare : p.arguments = []
  ends : ∃ word, '@' :: word <:+ cs ∧ p.name = lowerName (String.ofList word)

theorem EndsText.not_closed (h : p.EndsText cs) : ¬['*', '/'] <:+ cs := by
  intro closed
  obtain ⟨word, ends, isName⟩ := h.ends
  have last : ('@' :: word).getLast? = some '/' := by
    obtain ⟨front, rfl⟩ := ends
    obtain ⟨front', same⟩ := closed
    have := congrArg List.getLast? same
    simpa [List.getLast?_append] using this.symm
  have slash : p.name.toList.getLast? = some '/' := by
    cases word with
    | nil => exact absurd last (by decide)
    | cons c word =>
      rw [List.getLast?_cons_cons] at last
      rw [isName, lowerName, String.toList_ofList, String.toList_ofList, List.getLast?_map, last]
      decide
  have other : ∀ name ∈ rules.map (·.name), name.toList.getLast? ≠ some '/' := by decide
  exact other p.name h.known slash

theorem ofLine?_fulfils {comment : String} (h : ofLine? comment range = some p) :
    p.range = range ∧ ∃ r, p.Fulfils r := by
  rw [ofLine?] at h
  split at h
  · obtain ⟨r, found, h⟩ := Option.bind_eq_some_iff.mp h
    obtain ⟨collected, collects, h⟩ := Option.bind_eq_some_iff.mp h
    cases h
    obtain ⟨rule, rfl, -⟩ := rule?_found found
    refine ⟨rfl, r, fulfils_of_collect? rule (fun a v value => ?_) collects⟩
    obtain ⟨⟨text, offset⟩, found, rfl⟩ := Option.map_eq_some_iff.mp value
    exact (namedValue?_found found).1
  · obtain ⟨word, -, h⟩ := Option.bind_eq_some_iff.mp h
    obtain ⟨r, found, h⟩ := Option.bind_eq_some_iff.mp h
    cases h
    obtain ⟨rule, rfl, isLine⟩ := rule?_found found
    -- No pragma of a line takes arguments.
    have none : ∀ r ∈ rules, r.form = .line → r.arguments = [] := by decide
    refine ⟨rfl, r, rule, rfl, List.nil_sublist _, ?_, List.forall_mem_nil _⟩
    rw [none r rule isLine]
    exact List.forall_mem_nil _

theorem ne_empty_of_mem_wordsOf {word : String} (h : word ∈ wordsOf cs) : word ≠ "" := by
  obtain ⟨chars, mem, rfl⟩ := List.mem_map.mp h
  have := List.ne_nil_of_mem_splitBy (List.mem_filter.mp mem).1
  simpa using this

theorem ofWord?_fulfils {word : String} (h : ofWord? word cs range = some p) :
    p.range = range ∧ p.name = word ∧
      (cs = [] ∧ p.name ∈ rules.map (·.name) ∧ p.arguments = [] ∨ ∃ r, p.Fulfils r) := by
  rw [ofWord?] at h
  obtain ⟨r, found, h⟩ := Option.bind_eq_some_iff.mp h
  obtain ⟨rule, rfl, -⟩ := rule?_found found
  split at h
  · rename_i nothing
    cases h
    exact ⟨rfl, rfl, .inl ⟨List.isEmpty_iff.mp nothing, List.mem_map_of_mem rule, rfl⟩⟩
  · obtain ⟨collected, collects, h⟩ := Option.bind_eq_some_iff.mp h
    cases h
    refine ⟨rfl, rfl, .inr ⟨r, fulfils_of_collect? rule (fun a v value => ?_) collects⟩⟩
    exact ne_empty_of_mem_wordsOf (List.of_mem_zip (mem_of_lookup value)).2

/-- Where nothing counts as following a word, the text ends with it. -/
theorem takeWhile_isInWord_eq (nothing : (if ((cs.dropWhile isInWord).takeWhile Text.isUnicodeBlank).isEmpty then []
    else (cs.dropWhile isInWord).takeWhile Text.isUnicodeBlank ++ rest) = []) : cs.takeWhile isInWord = cs := by
  have none : (cs.dropWhile isInWord).takeWhile Text.isUnicodeBlank = [] := by
    split at nothing
    · exact List.isEmpty_iff.mp ‹_›
    · exact (List.append_eq_nil_iff.mp nothing).1
  have last : cs.dropWhile isInWord = [] := by
    have ends := List.head?_dropWhile_not isInWord cs
    cases dropped : cs.dropWhile isInWord with
    | nil => rfl
    | cons c behind =>
      have blank : Text.isUnicodeBlank c = true := by simpa [dropped, isInWord] using ends
      rw [dropped, List.takeWhile_cons_of_pos blank] at none
      cases none
  conv_rhs => rw [← List.takeWhile_append_dropWhile (p := isInWord) (l := cs), last, List.append_nil]

theorem ofBlock_go_fulfils {comment : List Char} (fuel : Nat) (within : cs <:+ comment) :
    ∀ p ∈ ofBlock.go range fuel cs, p.range = range ∧ ((∃ r, p.Fulfils r) ∨ p.EndsText comment) := by
  induction fuel generalizing cs with
  | zero => exact List.forall_mem_nil _
  | succ fuel ih =>
    intro p mem
    rw [ofBlock.go] at mem
    have dropped : cs.dropWhile (· != '@') <:+ comment := (List.dropWhile_suffix _).trans within
    split at mem
    · cases mem
    · rename_i sign rest atSign
      rw [atSign] at dropped
      have isSign : sign = '@' := by
        have := List.head?_dropWhile_not (· != '@') cs
        simpa [atSign] using this
      subst isSign
      have behind : rest <:+ comment := (List.suffix_cons _ _).trans dropped
      have named : rest.dropWhile isInWord <:+ comment := (List.dropWhile_suffix _).trans behind
      dsimp only [wordBefore] at mem
      split at mem
      · exact ih named p mem
      · rcases List.mem_append.mp mem with here | later
        · obtain ⟨isRange, isName, ⟨nothing, known, bare⟩ | fulfils⟩ := ofWord?_fulfils (Option.mem_toList.mp here)
          · refine ⟨isRange, .inr ⟨known, bare, rest, dropped, ?_⟩⟩
            rw [isName, takeWhile_isInWord_eq nothing]
          · exact ⟨isRange, .inl fulfils⟩
        · refine ih ?_ p later
          split
          · exact named
          · exact ((List.dropWhile_suffix _).trans (dropBlanks_suffix _)).trans named

/-- A pragma was recorded of a comment of a text: it stands there, and has the values that its rule asks for unless
the comment ends with its name. -/
structure IsRecordedOf (p : Pragma) (text : String) (c : Comment) : Prop where
  leads : c ∈ Comment.leading text 0
  range : p.range = ⟨c.pos, c.stop⟩
  fulfils : (∃ r, p.Fulfils r) ∨ p.EndsText (c.text text).toList

theorem ofText_recorded {text : String} (h : p ∈ ofText text) : ∃ c, p.IsRecordedOf text c := by
  obtain ⟨c, leads, mem⟩ := List.mem_flatMap.mp h
  rw [ofComment] at mem
  split at mem
  · obtain ⟨isRange, fulfils⟩ := ofBlock_go_fulfils _ (List.suffix_refl _) p mem
    exact ⟨c, leads, isRange, fulfils⟩
  · obtain ⟨isRange, fulfils⟩ := ofLine?_fulfils (Option.mem_toList.mp mem)
    exact ⟨c, leads, isRange, .inl fulfils⟩

theorem IsRecordedOf.fulfils_of_closed {text : String} {c : Comment} (h : p.IsRecordedOf text c)
    (closed : ['*', '/'] <:+ (c.text text).toList) : ∃ r, p.Fulfils r :=
  h.fulfils.resolve_right fun ends => ends.not_closed closed

/-- In a comment that breaks off behind the name of a pragma the pragma has no value at all. -/
example : ofText "/*@jsx" = [⟨"jsx", ⟨0, 6⟩, []⟩] := by decide +kernel

theorem mem_groups {pragmas : List Pragma} {group : String × List Pragma} (h : group ∈ groups pragmas) :
    ∀ p ∈ group.2, p ∈ pragmas ∧ p.name = group.1 := by
  obtain ⟨name, -, rfl⟩ := List.mem_map.mp h
  intro p mem
  rw [List.mem_filter, beq_iff_eq] at mem
  exact mem

end Pragma

/-! ## Files that references name -/

namespace Directives

variable {text : String} {p : Pragma} {d : Directives} {r : FileReference} {pragmas : List Pragma}

/-- A reference names a file between two quotes in a comment that leads the text, where its range says. -/
structure Names (text : String) (r : FileReference) : Prop where
  solid : r.fileName ≠ ""
  quoted : Text.StandsQuoted text r.fileName r.range.pos
  stop : r.range.stop = r.range.pos + r.fileName.utf8ByteSize
  inside : ∃ c ∈ Comment.leading text 0, c.pos ≤ r.range.pos ∧ r.range.stop < c.stop

theorem Names.slice_eq (h : Names text r) : Text.slice text r.range.pos r.range.stop = r.fileName := by
  rw [h.stop, h.quoted.slice_eq]

def references (d : Directives) : List FileReference := d.files ++ d.types ++ d.libraries

theorem reference?_names {c : Comment} {argument : String} (recorded : p.IsRecordedOf text c)
    (h : reference? text p argument = some r) : Names text r := by
  obtain ⟨⟨value, offset⟩, found, h⟩ := Option.bind_eq_some_iff.mp h
  cases h
  obtain ⟨solid, quoted⟩ := Pragma.namedValue?_found found
  have isFrom := Comment.leading_isFrom recorded.leads
  rw [recorded.range] at quoted ⊢
  obtain ⟨quoted, inside⟩ := quoted.of_slice isFrom.cut isFrom.cutStop isFrom.order
  exact ⟨solid, quoted, rfl, c, recorded.leads, Nat.le_add_right _ _, inside⟩

theorem mem_references_add (h : r ∈ (add text d p).1.references) :
    r ∈ d.references ∨ ∃ argument, reference? text p argument = some r := by
  rw [add] at h
  split at h
  · rw [addReference] at h
    split at h
    · exact .inl h
    · split at h
      · rename_i types
        simp only [references, List.mem_append, List.mem_singleton] at h ⊢
        rcases h with (files | known | rfl) | libraries
        · exact .inl (.inl (.inl files))
        · exact .inl (.inl (.inr known))
        · exact .inr ⟨_, types⟩
        · exact .inl (.inr libraries)
      · rename_i libraries
        simp only [references, List.mem_append, List.mem_singleton] at h ⊢
        rcases h with earlier | known | rfl
        · exact .inl (.inl earlier)
        · exact .inl (.inr known)
        · exact .inr ⟨_, libraries⟩
      · rename_i files
        simp only [references, List.mem_append, List.mem_singleton] at h ⊢
        rcases h with ((known | rfl) | types) | libraries
        · exact .inl (.inl (.inl known))
        · exact .inr ⟨_, files⟩
        · exact .inl (.inl (.inr types))
        · exact .inl (.inr libraries)
      · exact .inl h
  · rw [addDependency] at h
    split at h <;> exact .inl h
  · exact .inl h
  · rw [addCheck] at h
    split at h <;> exact .inl h
  · rw [addCheck] at h
    split at h <;> exact .inl h
  · exact .inl h

theorem ofPragmas_names (recorded : ∀ p ∈ pragmas, ∃ c, p.IsRecordedOf text c) :
    ∀ r ∈ (ofPragmas text pragmas).1.references, Names text r := by
  rw [ofPragmas]
  refine List.foldlRecOn pragmas _ (motive := fun (s : Directives × List PragmaFault) =>
    ∀ r ∈ s.1.references, Names text r) ?_ ?_
  · exact List.forall_mem_nil _
  · rintro ⟨d, faults⟩ known p mem r added
    obtain ⟨c, recordedOf⟩ := recorded p mem
    rcases mem_references_add added with earlier | ⟨argument, found⟩
    · exact known r earlier
    · exact reference?_names recordedOf found

end Directives

/-! ## Files -/

namespace SourceFile

/-- The pragmas of a file, and the files that they refer to, are told by the comments that lead it. -/
structure RecordsPragmas (f : SourceFile) : Prop where
  pragmas : ∀ group ∈ f.pragmas, ∀ p ∈ group.2, p.name = group.1 ∧ ∃ c, p.IsRecordedOf f.text c
  references : ∀ r ∈ f.directives.references, Directives.Names f.text r

theorem withPragmas_records (f : SourceFile) : f.withPragmas.RecordsPragmas := by
  have recorded : ∀ group ∈ Pragma.groups (Pragma.ofText f.text), ∀ p ∈ group.2,
      p.name = group.1 ∧ ∃ c, p.IsRecordedOf f.text c := by
    intro group mem p inGroup
    obtain ⟨found, named⟩ := Pragma.mem_groups mem p inGroup
    exact ⟨named, Pragma.ofText_recorded found⟩
  unfold withPragmas
  dsimp only
  refine ⟨recorded, Directives.ofPragmas_names fun p mem => ?_⟩
  obtain ⟨group, inGroups, inGroup⟩ := List.mem_flatMap.mp mem
  exact (recorded group inGroups p inGroup).2

theorem ofScript_records (s : ParserState) (setParents : Bool) : (ofScript s setParents).RecordsPragmas := by
  unfold ofScript
  exact withPragmas_records _

theorem ofState_records (s : ParserState) (root : Node) : (ofState s root).RecordsPragmas :=
  ⟨List.forall_mem_nil _, List.forall_mem_nil _⟩

theorem parse_records (fileName text : String) (target : ScriptTarget) (kind : ScriptKind) (setParents : Bool) :
    (parse fileName text target kind setParents).RecordsPragmas := by
  unfold parse
  dsimp only
  split
  · exact ofState_records _ _
  · exact ofScript_records _ _

theorem Produced.records {f : SourceFile} (produced : f.Produced) : f.RecordsPragmas := by
  induction produced with
  | parse => exact parse_records ..
  | parseJson => exact ofState_records _ _
  | @update f _ text c checks _ _ ih =>
    have again : (f.readAgain text).RecordsPragmas := parse_records ..
    rw [SourceFile.update]
    split
    · exact again
    split
    · exact ih
    split
    · exact again
    dsimp only
    split
    · exact ofScript_records _ _
    · exact again

/-- However a file was made, its pragmas stand in the comments that lead it. Those of a comment that is closed have the
values that their rules ask for, none of them empty. What they refer to stands where its range says. -/
theorem Produced.recordsPragmas {f : SourceFile} (produced : f.Produced) :
    (∀ group ∈ f.pragmas, ∀ p ∈ group.2, p.name = group.1 ∧ ∃ c, p.IsRecordedOf f.text c ∧
      (['*', '/'] <:+ (c.text f.text).toList →
        ∃ r, p.Fulfils r ∧ ∀ argument v, p.argument? argument = some v → v ≠ "")) ∧
      ∀ r ∈ f.directives.references, Directives.Names f.text r ∧
        Text.slice f.text r.range.pos r.range.stop = r.fileName := by
  obtain ⟨pragmas, references⟩ := produced.records
  refine ⟨fun group inGroups p inGroup => ?_, fun r mem => ⟨references r mem, (references r mem).slice_eq⟩⟩
  obtain ⟨named, c, recorded⟩ := pragmas group inGroups p inGroup
  refine ⟨named, c, recorded, fun closed => ?_⟩
  obtain ⟨r, fulfils⟩ := recorded.fulfils_of_closed closed
  exact ⟨r, fulfils, fun _ _ => fulfils.argument?_ne_empty⟩

theorem recordsPragmas_of_reference :
    ∃ f, f = parse "a.tsx" "/// <reference path=\"b.ts\" />\n/* @jsx h */ a" .esNext .tsx false ∧ f.Produced ∧
      f.pragmas.map Prod.fst = ["reference", "jsx"] ∧
      f.directives.references.map FileReference.fileName = ["b.ts"] ∧
      ∀ r ∈ f.directives.references, Directives.Names f.text r ∧
        Text.slice f.text r.range.pos r.range.stop = r.fileName := by
  refine ⟨_, rfl, .parse .., by decide +kernel, by decide +kernel, ?_⟩
  exact (Produced.recordsPragmas (.parse ..)).2

end SourceFile

end ScriptFrontend
