import Mathlib.Data.List.Pairwise
import ScriptFrontend.Output.Emit
import ScriptFrontend.Program.Project
import ScriptFrontend.Proofs.Context.Production
import ScriptFrontend.Proofs.Text.Path

/-!
# Outputs of a program

The path of an output has another extension than that of its source, and begins at the directory for
outputs where there is one. Behind that stand the names that are kept of the source: its own name, those
behind the root of the sources, or all.

A program keeps its files by paths that lead to different places, and each file knows its path. So the
paths of the outputs can be told from those of the files: beside their sources outputs lie apart if those
do, and in another directory if that is so of what is kept of their sources.
-/

namespace ScriptFrontend.Output

open ScriptFrontend.Path

variable {options : Options} {source dir root : String} {ns : List String}

theorem extensionOf_isExtension (jsx : JsxKind) (kind : ScriptKind) (extension : String) :
    IsExtension (extensionOf jsx kind extension) := by
  rw [extensionOf]
  split
  case h_5 => split <;> exact ⟨by decide, by decide, by decide⟩
  all_goals exact ⟨by decide, by decide, by decide⟩

/-- What is kept of a source for the path of its output below another directory. -/
def kept (options : Options) (source : String) : String :=
  match options.rootDir with
  | some root => (below? source root).getD source
  | none => (fileName? source).getD source

theorem kept_eq_of_root (set : options.rootDir = some root) :
    kept options source = (below? source root).getD source := by
  rw [kept, set]

theorem pathOf_beside (out : options.outDir = none) (source : String) (kind : ScriptKind) : ∃ extension,
    IsExtension extension ∧ pathOf options source kind = withExtension source extension := by
  refine ⟨_, extensionOf_isExtension options.jsx kind ((extension? source).getD ""), ?_⟩
  rw [pathOf, out]

theorem pathOf_away (out : options.outDir = some dir) (source : String) (kind : ScriptKind) : ∃ extension,
    IsExtension extension ∧
      pathOf options source kind = join dir (withExtension (kept options source) extension) := by
  refine ⟨_, extensionOf_isExtension options.jsx kind ((extension? source).getD ""), ?_⟩
  rw [pathOf, out]
  rfl

/-- Names of a source that its output keeps below another directory. -/
inductive Keeps (options : Options) (source : String) : List String → Prop
  | name {n : String} : options.rootDir = none → fileName? source = some n → Keeps options source [n]
  | under {root : String} {ns : List String} : options.rootDir = some root → anchor? source = anchor? root →
    namesOf source = namesOf root ++ ns → Keeps options source ns
  /-- Elsewhere, all names of a path that begins at the current directory. -/
  | elsewhere {root : String} : options.rootDir = some root → ¬ Under source root → isAbsolute source = false →
    Keeps options source (namesOf source)

/-- Only a source without a name keeps none, and one outside of the root that begins at another place. -/
theorem keeps_some (named : options.rootDir = none → (fileName? source).isSome = true)
    (placed : ∀ root, options.rootDir = some root → isAbsolute source = true → Under source root) :
    ∃ ns, Keeps options source ns := by
  cases set : options.rootDir with
  | none =>
    obtain ⟨n, found⟩ := Option.isSome_iff_exists.mp (named set)
    exact ⟨[n], .name set found⟩
  | some root =>
    by_cases under : Under source root
    · obtain ⟨anchor, ns, same⟩ := under
      exact ⟨ns, .under set anchor same.symm⟩
    · exact ⟨namesOf source, .elsewhere set under (Bool.eq_false_iff.mpr (mt (placed root set) under))⟩

theorem fileName_leads {n : String} (found : fileName? source = some n) :
    isAbsolute n = false ∧ namesOf n = [n] := by
  rw [fileName?_eq, Option.filter_eq_some_iff] at found
  obtain ⟨held, named⟩ := List.mem_filter.mp (List.mem_of_getLast? found.1)
  have some : isBlank n = false := by simpa using named
  have plain : ∀ p ∈ [n], '/' ∉ p.toList := by
    intro p mem
    rw [List.mem_singleton.mp mem]
    exact not_mem_slash held
  have anchor := anchor?_ofPieces plain
  have same := namesOf_ofPieces plain
  rw [List.filter_cons_of_pos (by simpa using some), List.filter_nil] at same
  rw [anchorOf_cons some] at anchor
  refine ⟨Bool.eq_false_iff.mpr fun absolute => ?_, same⟩
  exact absurd (anchor?_eq_slash.mpr absolute) (by rw [show anchor? n = none from anchor]; exact nofun)

theorem isAbsolute_eq_of_anchor? {a b : String} (same : anchor? a = anchor? b) : isAbsolute a = isAbsolute b := by
  rw [Bool.eq_iff_iff, ← anchor?_eq_slash, ← anchor?_eq_slash, same]

theorem isAbsolute_of_anchor?_none (none : anchor? source = none) : isAbsolute source = false :=
  Bool.eq_false_iff.mpr fun absolute => by rw [anchor?_eq_slash.mpr absolute] at none; cases none

theorem kept_elsewhere (set : options.rootDir = some root) (outside : ¬ Under source root) :
    anchor? (kept options source) = anchor? source ∧ namesOf (kept options source) = namesOf source := by
  rw [kept_eq_of_root set]
  cases found : below? source root with
  | none => exact ⟨rfl, rfl⟩
  | some rest =>
    obtain ⟨split, ⟨empty, start⟩ | ⟨anchor, -⟩⟩ := below?_spec found
    · rw [components_eq, List.append_eq_nil_iff] at empty
      rw [empty.2, List.nil_append] at split
      exact ⟨start, split.symm⟩
    · exact absurd ⟨anchor, _, split.symm⟩ outside

/-- What is kept of a source leads from the current directory along the names that are kept. -/
theorem Keeps.leads (keeps : Keeps options source ns) :
    isAbsolute (kept options source) = false ∧ namesOf (kept options source) = ns := by
  cases keeps with
  | name set found =>
    rw [kept, set, found]
    exact fileName_leads found
  | @under root ns set anchor same =>
    obtain ⟨rest, found⟩ := Option.isSome_iff_exists.mp (below?_isSome.mpr (.inr ⟨anchor, ns, same.symm⟩))
    obtain ⟨split, start⟩ := below?_spec found
    have behind : kept options source = rest := by rw [kept_eq_of_root set, found]; rfl
    rw [behind]
    refine ⟨?_, List.append_cancel_left (split.symm.trans same)⟩
    obtain ⟨empty, start⟩ | ⟨-, none⟩ := start
    · rw [components_eq, List.append_eq_nil_iff, Option.toList_eq_nil_iff] at empty
      exact isAbsolute_of_anchor?_none (start.trans (anchor.trans empty.1))
    · exact isAbsolute_of_anchor?_none none
  | @elsewhere root set outside relative =>
    obtain ⟨anchor, same⟩ := kept_elsewhere set outside
    exact ⟨(isAbsolute_eq_of_anchor? anchor).trans relative, same⟩

/-- An output beside its source leads where that does, along names with another extension. -/
theorem pathOf_beside_leads (out : options.outDir = none) (source : String) (kind : ScriptKind) : ∃ extension,
    IsExtension extension ∧ anchor? (pathOf options source kind) = anchor? source ∧
      namesOf (pathOf options source kind) = renamed extension (namesOf source) := by
  obtain ⟨extension, ext, path⟩ := pathOf_beside out source kind
  exact ⟨extension, ext, path ▸ withExtension_leads ext source⟩

/-- An output in another directory leads from there along the names that are kept, with another extension. -/
theorem pathOf_away_leads (out : options.outDir = some dir) (keeps : Keeps options source ns) (kind : ScriptKind) :
    ∃ extension, IsExtension extension ∧ isAbsolute (pathOf options source kind) = isAbsolute dir ∧
      namesOf (pathOf options source kind) = namesOf dir ++ renamed extension ns := by
  obtain ⟨extension, ext, path⟩ := pathOf_away out source kind
  obtain ⟨relative, same⟩ := keeps.leads
  obtain ⟨anchor, given⟩ := withExtension_leads ext (kept options source)
  have relative' := (isAbsolute_eq_of_anchor? anchor).trans relative
  refine ⟨extension, ext, ?_, ?_⟩
  · rw [path, isAbsolute_join relative']
  · rw [path, namesOf_join relative', given, same]

/-- An output of an absolute source outside of the root leads where that does, whatever directory is given. -/
theorem pathOf_elsewhere_leads (out : options.outDir = some dir) (set : options.rootDir = some root)
    (outside : ¬ Under source root) (absolute : isAbsolute source = true) (kind : ScriptKind) : ∃ extension,
    IsExtension extension ∧ namesOf (pathOf options source kind) = renamed extension (namesOf source) := by
  obtain ⟨extension, ext, path⟩ := pathOf_away out source kind
  obtain ⟨anchor, same⟩ := kept_elsewhere set outside
  obtain ⟨anchor', given⟩ := withExtension_leads ext (kept options source)
  have absolute' := (isAbsolute_eq_of_anchor? (anchor'.trans anchor)).trans absolute
  exact ⟨extension, ext, by rw [path, join, if_pos absolute', given, same]⟩

theorem pathOf_isBelow (out : options.outDir = some dir) (keeps : Keeps options source ns) (some : ns ≠ [])
    (plain : ".." ∉ ns) (kind : ScriptKind) : IsBelow (pathOf options source kind) dir := by
  obtain ⟨extension, ext, start, path⟩ := pathOf_away_leads out keeps kind
  exact ⟨start, _, path, renamed_ne_nil some, not_mem_parent_renamed ext plain⟩

end ScriptFrontend.Output

namespace ScriptFrontend

/-! ## Names of files -/

namespace SourceFile

theorem run_names {α : Type} (p : Parse α) [KeepsContext p] (s : ParserState) :
    (p.run s).2.fileName = s.fileName ∧ (p.run s).2.scriptKind = s.scriptKind := by
  obtain ⟨name, -, kind, -⟩ := ParserState.Context.mk.inj (Parse.run_sameContext p s)
  exact ⟨name, kind⟩

structure IsCalled (f : SourceFile) (fileName : String) (kind : ScriptKind) (declares : Bool) : Prop where
  fileName : f.fileName = fileName
  kind : f.kind = kind
  isDeclarationFile : f.isDeclarationFile = declares

theorem withPragmas_isCalled (f : SourceFile) : f.withPragmas.IsCalled f.fileName f.kind f.isDeclarationFile := by
  unfold withPragmas
  exact ⟨rfl, rfl, rfl⟩

theorem ofScript_isCalled (s : ParserState) (setParents : Bool) :
    (ofScript s setParents).IsCalled s.fileName s.scriptKind (isDeclarationName s.fileName) := by
  have names := run_names Parse.script { s with
    contextFlags := s.contextFlags ||| if isDeclarationName s.fileName then NodeFlags.ambient else .empty }
  unfold ofScript
  dsimp only
  revert names
  generalize Parse.script.run _ = r
  rintro ⟨name, kind⟩
  obtain ⟨fileName, kind', declares⟩ := withPragmas_isCalled { ofState r.2 r.1 with
    isDeclarationFile := isDeclarationName s.fileName, hasParents := setParents
    moduleIndicator := moduleIndicator? r.1 }
  exact ⟨fileName.trans name, kind'.trans kind, declares⟩

theorem parse_isCalled (fileName text : String) (target : ScriptTarget) (kind : ScriptKind) (setParents : Bool) :
    (parse fileName text target kind setParents).IsCalled fileName (kind.resolve fileName)
      (kind.resolve fileName != .json && isDeclarationName fileName) := by
  unfold parse
  dsimp only
  split
  case isTrue json =>
    have names := run_names Parse.json (.initial fileName text target (kind.resolve fileName) none 0)
    revert names
    generalize Parse.json.run _ = r
    rintro ⟨name, kind'⟩
    exact ⟨name, kind', by rw [json]; rfl⟩
  case isFalse other =>
    obtain ⟨name, kind', declares⟩ :=
      ofScript_isCalled (.initial fileName text target (kind.resolve fileName) none 0) setParents
    exact ⟨name, kind', by rw [declares, bne_iff_ne.mpr other]; rfl⟩

theorem update_fileName (f : SourceFile) (text : String) (c : Text.Change) (checks : Bool) :
    (f.update text c checks).fileName = f.fileName := by
  have again : (f.readAgain text).fileName = f.fileName := (parse_isCalled ..).fileName
  have moved (root : Node) : (f.readWith root text).fileName = f.fileName := (ofScript_isCalled ..).fileName
  unfold update
  dsimp only
  split
  · exact again
  · split
    · rfl
    · split
      · exact again
      · split
        · exact moved _
        · exact again

/-- The name of a file that is read decides whether it has an output. -/
theorem hasOutput_parse (fileName text : String) (target : ScriptTarget) (kind : ScriptKind) (setParents : Bool) :
    Output.hasOutput (parse fileName text target kind setParents) =
      (kind.resolve fileName != .json && !isDeclarationName fileName) := by
  have called := parse_isCalled fileName text target kind setParents
  rw [Output.hasOutput, called.kind, called.isDeclarationFile]
  cases kind.resolve fileName != .json <;> simp

end SourceFile

namespace Program

open ScriptFrontend.Path Output

variable {options : Options} {p : Program} {path text key : String} {f : SourceFile} {a b : String}

theorem samePath_iff : samePath a b = true ↔ components a = components b := beq_iff_eq

theorem samePath_comm (a b : String) : samePath a b = samePath b a := by
  rw [Bool.eq_iff_iff, samePath_iff, samePath_iff, eq_comm]

/-- The programs that come from one without files by giving files their texts and taking files out. -/
inductive Reached (options : Options) : Program → Prop
  | start : Reached options { options }
  | setSource {p : Program} (path text : String) : Reached options p → Reached options (p.setSource path text).2
  | removeSource {p : Program} (path : String) : Reached options p → Reached options (p.removeSource path).2

/-- Files are kept by their names, which lead to different places. -/
structure Holds (options : Options) (p : Program) : Prop where
  options : p.options = options
  named : ∀ file ∈ p.files, file.2.fileName = file.1
  apart : p.files.Pairwise fun a b => samePath a.1 b.1 = false

theorem Holds.eq_of_samePath (h : Holds options p) {x y : String × SourceFile} (left : x ∈ p.files)
    (right : y ∈ p.files) (same : samePath x.1 y.1 = true) : x = y := by
  by_contra other
  have : Std.Symm fun a b : String × SourceFile => samePath a.1 b.1 = false :=
    ⟨fun a b apart => (samePath_comm b.1 a.1).trans apart⟩
  have apart := h.apart.forall left right other
  rw [same] at apart
  cases apart

theorem mem_of_file? (found : p.file? path = some f) : ∃ key, (key, f) ∈ p.files ∧ samePath path key = true := by
  obtain ⟨⟨key, f⟩, first, rfl⟩ := Option.map_eq_some_iff.mp found
  have same := List.find?_some first
  exact ⟨key, List.mem_of_find?_eq_some first, same⟩

theorem Holds.file?_eq (h : Holds options p) (mem : (key, f) ∈ p.files) (same : samePath path key = true) :
    p.file? path = some f := by
  have found : (p.files.find? (samePath path ·.1)).isSome = true :=
    List.find?_isSome.mpr ⟨(key, f), mem, same⟩
  obtain ⟨⟨key', f'⟩, found⟩ := Option.isSome_iff_exists.mp found
  have same' := List.find?_some found
  rw [samePath_iff] at same same'
  have one := h.eq_of_samePath (List.mem_of_find?_eq_some found) mem (samePath_iff.mpr (same'.symm.trans same))
  rw [file?, found, one]
  rfl

theorem Holds.append (h : Holds options p) (new : p.file? path = none) :
    Holds options { p with files := p.files ++ [(path, p.parse path text)] } where
  options := h.options
  named := by
    intro file mem
    rcases List.mem_append.mp mem with mem | mem
    · exact h.named file mem
    · rw [List.mem_singleton.mp mem]
      exact (SourceFile.parse_isCalled ..).fileName
  apart := by
    rw [file?, Option.map_eq_none_iff, List.find?_eq_none] at new
    refine List.pairwise_append.mpr ⟨h.apart, List.pairwise_singleton _ _, fun file mem last mem' => ?_⟩
    rw [List.mem_singleton.mp mem', samePath_comm]
    exact Bool.eq_false_iff.mpr (new file mem)

theorem Holds.replace (h : Holds options p) (found : p.file? path = some f) {f' : SourceFile}
    (name : f'.fileName = f.fileName) : Holds options (p.replace path f') where
  options := h.options
  named := by
    intro file mem
    obtain ⟨⟨key, old⟩, held, rfl⟩ := List.mem_map.mp mem
    dsimp only
    split
    · rename_i same
      have one := h.file?_eq held same
      rw [found] at one
      obtain rfl := Option.some.inj one
      exact name.trans (h.named _ held)
    · exact h.named _ held
  apart := by
    refine List.pairwise_map.mpr (h.apart.imp fun {x y} apart => ?_)
    have keeps (x : String × SourceFile) :
        (if samePath path x.1 = true then (x.1, f') else (x.1, x.2)).1 = x.1 := by split <;> rfl
    exact (congrArg₂ samePath (keeps x) (keeps y)).trans apart

theorem Holds.setSource (h : Holds options p) (path text : String) : Holds options (p.setSource path text).2 := by
  rw [Program.setSource]
  cases found : p.file? path with
  | none => exact h.append found
  | some f =>
    dsimp only
    split
    · exact h
    · exact h.replace found (SourceFile.update_fileName ..)

theorem Holds.removeSource (h : Holds options p) (path : String) : Holds options (p.removeSource path).2 where
  options := h.options
  named file mem := h.named file (List.mem_filter.mp mem).1
  apart := h.apart.filter _

theorem Reached.holds (reached : Reached options p) : Holds options p := by
  induction reached with
  | start => exact ⟨rfl, fun _ mem => absurd mem List.not_mem_nil, List.Pairwise.nil⟩
  | setSource path text _ ih => exact ih.setSource path text
  | removeSource path _ ih => exact ih.removeSource path

/-- Each file that is read from a tree of files is given its text. -/
theorem Reached.reload {t : FileTree} {paths : List String} {q : Program} (reached : Reached options p)
    (loaded : paths.foldlM (fun p path => (p.reload t path).map (·.2)) p = .ok q) : Reached options q := by
  induction paths generalizing p with
  | nil =>
    obtain rfl := Except.ok.inj loaded
    exact reached
  | cons path rest ih =>
    rw [List.foldlM_cons] at loaded
    cases found : t.read? path with
    | none =>
      rw [Program.reload, found] at loaded
      cases loaded
    | some text =>
      rw [Program.reload, found] at loaded
      exact ih (reached.setSource path text) loaded

/-- The program of all inputs of a project is reached from one without files. -/
theorem load_reached {project : Project} {t : FileTree} (loaded : load project t = .ok p) :
    Reached project.options p :=
  Reached.start.reload loaded

/-! ## Outputs -/

def Emits (p : Program) (key : String) (x : OutputFile) : Prop :=
  ∃ f out, (key, f) ∈ p.files ∧ Output.ofFile p.options f = .ok out ∧ x ∈ out.files

theorem emits_iff_emitFile? (reached : Reached options p) {x : OutputFile} :
    (∃ key, samePath path key = true ∧ p.Emits key x) ↔ ∃ out, p.emitFile? path = some (.ok out) ∧ x ∈ out.files := by
  constructor
  · rintro ⟨key, same, f, out, mem, made, held⟩
    exact ⟨out, by rw [emitFile?, reached.holds.file?_eq mem same, Option.map_some, made], held⟩
  · rintro ⟨out, made, held⟩
    obtain ⟨f, found, made⟩ := Option.map_eq_some_iff.mp made
    obtain ⟨key, mem, same⟩ := mem_of_file? found
    exact ⟨key, same, f, out, mem, made, held⟩

/-- Whatever is written on the way, each output is made of one of the files. -/
theorem exists_of_mem_emitAll {files : List (String × SourceFile)} {t : FileTree} {outs : List Output} {out : Output}
    (made : (emitAll options files t).1 = .ok outs) (held : out ∈ outs) :
    ∃ file ∈ files, Output.ofFile options file.2 = .ok out := by
  induction files generalizing t outs with
  | nil =>
    obtain rfl := Except.ok.inj made
    cases held
  | cons file rest ih =>
    obtain ⟨key, f⟩ := file
    rw [emitAll] at made
    cases given : Output.ofFile options f with
    | error e =>
      rw [given] at made
      cases made
    | ok first =>
      rw [given] at made
      dsimp only at made
      generalize (if options.noEmit = true then (true, t) else writeAll t first.files) = written at made
      split at made
      · cases made
      · dsimp only at made
        cases following : (emitAll options rest written.2).1 with
        | error e =>
          rw [following] at made
          cases made
        | ok others =>
          rw [following] at made
          obtain rfl := Except.ok.inj made
          rcases List.mem_cons.mp held with rfl | held
          · exact ⟨_, List.mem_cons_self .., given⟩
          · obtain ⟨file, mem, given⟩ := ih following held
            exact ⟨file, List.mem_cons_of_mem _ mem, given⟩

theorem emits_of_emit {t : FileTree} {outs : List Output} (made : (p.emit t).1 = .ok outs) {out : Output}
    (held : out ∈ outs) {x : OutputFile} (inside : x ∈ out.files) : ∃ key, p.Emits key x := by
  obtain ⟨⟨key, f⟩, mem, given⟩ := exists_of_mem_emitAll made held
  exact ⟨key, f, out, mem, given, inside⟩

theorem path_of_mem_files {out : Output} (made : Output.ofFile options f = .ok out) {x : OutputFile}
    (held : x ∈ out.files) : x.path = pathOf options f.fileName f.kind := by
  unfold Output.ofFile at made
  split at made
  · obtain rfl := Except.ok.inj made
    cases held
  · dsimp only at made
    split at made
    · cases found : (LoweredFile.ofFile f).registered? {} with
      | error e =>
        rw [found] at made
        cases made
      | ok registered =>
        rw [found] at made
        obtain rfl := Except.ok.inj made
        rw [List.mem_singleton.mp held]
    · obtain rfl := Except.ok.inj made
      rw [List.mem_singleton.mp held]

theorem Emits.path_eq (reached : Reached options p) {x : OutputFile} (emits : p.Emits key x) :
    ∃ kind, x.path = pathOf options key kind := by
  obtain ⟨f, out, mem, made, held⟩ := emits
  have name := reached.holds.named _ mem
  dsimp only at name
  rw [reached.holds.options] at made
  exact ⟨f.kind, name ▸ path_of_mem_files made held⟩

/-- A file that is written as it stands has an output if its name does not say otherwise. -/
theorem exists_emits (written : p.options.module = .asWritten) (mem : (key, f) ∈ p.files)
    (some : hasOutput f = true) : ∃ text, p.Emits key ⟨pathOf p.options f.fileName f.kind, text⟩ := by
  let text := (LoweredFile.ofFile f).script {}
  let out : Output := { text, files := [⟨pathOf p.options f.fileName f.kind, text⟩] }
  have made : Output.ofFile p.options f = .ok out := by
    unfold Output.ofFile
    rw [some, written]
    rfl
  exact ⟨text, f, out, mem, made, List.mem_singleton_self _⟩

/-- What is written for a project was made of one of its files. It lies where the path of that file says, and the file
has it for an output when it is asked for alone. -/
theorem outputs_come_from_files {project : Project} {t u : FileTree} (loaded : load project t = .ok p)
    {outs : List Output} (made : (p.emit u).1 = .ok outs) :
    ∀ out ∈ outs, ∀ x ∈ out.files, ∃ key, p.Emits key x ∧ (∃ kind, x.path = pathOf project.options key kind) ∧
      ∃ alone, p.emitFile? key = some (.ok alone) ∧ x ∈ alone.files := by
  intro out held x inside
  have reached := load_reached loaded
  obtain ⟨key, emits⟩ := emits_of_emit made held inside
  have same : samePath key key = true := samePath_iff.mpr rfl
  exact ⟨key, emits, emits.path_eq reached, (emits_iff_emitFile? reached).mp ⟨key, same, emits⟩⟩

theorem project_of_one_file_has_output :
    let project : Project := ⟨{ module := .asWritten, noEmit := true }, ["a.ts"]⟩
    let t : FileTree := { files := [(["a.ts"], "")] }
    ∃ p outs, load project t = .ok p ∧ (p.emit t).1 = .ok outs ∧
      ∃ out ∈ outs, ∃ x ∈ out.files, ∃ key kind, p.Emits key x ∧ x.path = pathOf project.options key kind := by
  intro project t
  have plain : FileTree.isRefused "a.ts" = false := by
    rw [FileTree.isRefused, String.contains_char_eq]
    decide +kernel
  have read : t.read? "a.ts" = some "" := by
    rw [FileTree.read?, FileTree.place?, plain]
    decide +kernel
  let p : Program := (({ options := project.options } : Program).setSource "a.ts" "").2
  have loaded : load project t = .ok p := by
    change (({ options := project.options } : Program).reload t "a.ts").map (·.2) >>= pure = _
    rw [reload, read]
    rfl
  let f := ({ options := project.options } : Program).parse "a.ts" ""
  have files : p.files = [("a.ts", f)] := rfl
  have some : hasOutput f = true := by decide +kernel
  let text := (LoweredFile.ofFile f).script {}
  let out : Output := { text, files := [⟨pathOf project.options f.fileName f.kind, text⟩] }
  have given : Output.ofFile project.options f = .ok out := by
    unfold Output.ofFile
    rw [some]
    rfl
  have made : (p.emit t).1 = .ok [out] := by
    change (emitAll project.options p.files t).1 = _
    rw [files, emitAll, given]
    rfl
  obtain ⟨key, emits, ⟨kind, path⟩, -⟩ := outputs_come_from_files loaded made out (List.mem_singleton_self _)
    ⟨pathOf project.options f.fileName f.kind, text⟩ (List.mem_singleton_self _)
  exact ⟨p, [out], loaded, made, out, List.mem_singleton_self _, _, List.mem_singleton_self _, key, kind, emits, path⟩

/-- A program of two files without texts. -/
def pair (options : Options) (a b : String) : Program :=
  ((({ options } : Program).setSource a "").2.setSource b "").2

theorem pair_reached (options : Options) (a b : String) : Reached options (pair options a b) :=
  (Reached.start.setSource a "").setSource b ""

theorem pair_emits (options : Options) (a b : String) (written : options.module = .asWritten)
    (apart : samePath b a = false)
    (given : ∀ key ∈ [a, b], ScriptKind.ofFileName key ≠ .json ∧ SourceFile.isDeclarationName key = false) :
    ∃ x y : OutputFile, (pair options a b).Emits a x ∧ (pair options a b).Emits b y ∧
      x.path = pathOf options a (.ofFileName a) ∧ y.path = pathOf options b (.ofFileName b) := by
  have files : (pair options a b).files =
      [(a, ({ options } : Program).parse a ""), (b, ({ options } : Program).parse b "")] := by
    simp [pair, Program.setSource, file?, apart, Program.parse]
  have emits (key : String) (mem : key ∈ [a, b]) :
      ∃ x, (pair options a b).Emits key x ∧ x.path = pathOf options key (.ofFileName key) := by
    have held : (key, ({ options } : Program).parse key "") ∈ (pair options a b).files := by
      rw [files]
      simp only [List.mem_cons, List.not_mem_nil, or_false] at mem ⊢
      exact mem.imp (fun same => by rw [same]) fun same => by rw [same]
    have some : hasOutput (({ options } : Program).parse key "") = true := by
      obtain ⟨kind, declares⟩ := given key mem
      rw [Program.parse, SourceFile.hasOutput_parse, declares]
      simpa [ScriptKind.resolve] using kind
    have name : (({ options } : Program).parse key "").IsCalled key (ScriptKind.unknown.resolve key) _ :=
      SourceFile.parse_isCalled ..
    have same : (pair options a b).options = options := (pair_reached options a b).holds.options
    obtain ⟨text, emits⟩ := exists_emits (same.symm ▸ written) held some
    exact ⟨_, emits, by rw [same, name.fileName, name.kind]; rfl⟩
  obtain ⟨x, first, path⟩ := emits a (List.mem_cons_self ..)
  obtain ⟨y, second, path'⟩ := emits b (List.mem_cons_of_mem _ (List.mem_singleton_self _))
  exact ⟨x, y, first, second, path, path'⟩

/-! ## Outputs lie apart -/

/-- Outputs of files that lead to different places, also without their extensions, do so too if they stand
beside their sources. Away from them they do if the names that are kept of the sources are different without
the extension; so do those of two sources under the root, and those of two outside of it that begin at one place.
An output that keeps names stands below the directory for outputs, unless one of them leads back. -/
theorem outputs_lie_apart (reached : Reached options p) {x y : OutputFile} (first : p.Emits a x)
    (second : p.Emits b y) :
    (options.outDir = none → ¬ SameButExtension a b → samePath x.path y.path = false) ∧
      ∀ dir, options.outDir = some dir →
        (∀ ns ms, Keeps options a ns → Keeps options b ms → ¬ Alike ns ms → samePath x.path y.path = false) ∧
        (∀ root, options.rootDir = some root → Under a root → Under b root → ¬ SameButExtension a b →
          samePath x.path y.path = false) ∧
        (∀ root, options.rootDir = some root → ¬ Under a root → ¬ Under b root → isAbsolute a = isAbsolute b →
          ¬ Alike (namesOf a) (namesOf b) → samePath x.path y.path = false) ∧
        ∀ ns, Keeps options a ns → ns ≠ [] → ".." ∉ ns → IsBelow x.path dir := by
  obtain ⟨kind, first⟩ := first.path_eq reached
  obtain ⟨kind', second⟩ := second.path_eq reached
  rw [first, second]
  have away (dir : String) (out : options.outDir = some dir) (ns ms : List String) (keeps : Keeps options a ns)
      (keeps' : Keeps options b ms) (apart : ¬ Alike ns ms) :
      samePath (pathOf options a kind) (pathOf options b kind') = false := by
    obtain ⟨e, ext, -, names⟩ := pathOf_away_leads out keeps kind
    obtain ⟨e', ext', -, names'⟩ := pathOf_away_leads out keeps' kind'
    refine Bool.eq_false_iff.mpr fun same => apart (alike_of_renamed_eq ext ext' ?_)
    have same := (components_eq_iff.mp (samePath_iff.mp same)).2
    exact List.append_cancel_left (names.symm.trans (same.trans names'))
  refine ⟨fun beside apart => ?_, fun dir out => ⟨away dir out, ?_, ?_, ?_⟩⟩
  · obtain ⟨e, ext, anchor, names⟩ := pathOf_beside_leads beside a kind
    obtain ⟨e', ext', anchor', names'⟩ := pathOf_beside_leads beside b kind'
    refine Bool.eq_false_iff.mpr fun same => apart ?_
    obtain ⟨start, same⟩ := components_eq_iff.mp (samePath_iff.mp same)
    exact ⟨anchor.symm.trans (start.trans anchor'),
      alike_of_renamed_eq ext ext' (names.symm.trans (same.trans names'))⟩
  · rintro root set ⟨start, ns, path⟩ ⟨start', ms, path'⟩ apart
    refine away dir out ns ms (.under set start path.symm) (.under set start' path'.symm) fun alike => apart ?_
    exact ⟨start.trans start'.symm, path ▸ path' ▸ alike.append _⟩
  · intro root set outside outside' start apart
    cases absolute : isAbsolute a with
    | false =>
      exact away dir out _ _ (.elsewhere set outside absolute) (.elsewhere set outside' (start ▸ absolute)) apart
    | true =>
      obtain ⟨e, ext, names⟩ := pathOf_elsewhere_leads out set outside absolute kind
      obtain ⟨e', ext', names'⟩ := pathOf_elsewhere_leads out set outside' (start ▸ absolute) kind'
      refine Bool.eq_false_iff.mpr fun same => apart (alike_of_renamed_eq ext ext' ?_)
      exact names.symm.trans ((components_eq_iff.mp (samePath_iff.mp same)).2.trans names')
  · exact fun ns keeps some plain => pathOf_isBelow out keeps some plain kind

theorem outputs_lie_apart_under_root :
    let options : Options := { module := .asWritten, outDir := some "dist", rootDir := some "src" }
    ∃ x y, Reached options (pair options "src/a.ts" "src/b.ts") ∧
      (pair options "src/a.ts" "src/b.ts").Emits "src/a.ts" x ∧
      (pair options "src/a.ts" "src/b.ts").Emits "src/b.ts" y ∧
      samePath x.path y.path = false ∧ IsBelow x.path "dist" := by
  intro options
  have reached := pair_reached options "src/a.ts" "src/b.ts"
  obtain ⟨x, y, first, second, -⟩ :=
    pair_emits options "src/a.ts" "src/b.ts" rfl (by decide +kernel) (by decide +kernel)
  have names : namesOf "src/a.ts" = ["src"] ++ ["a.ts"] ∧ namesOf "src/b.ts" = ["src"] ++ ["b.ts"] ∧
    namesOf "src" = ["src"] := by decide +kernel
  have anchors : anchor? "src/a.ts" = anchor? "src" ∧ anchor? "src/b.ts" = anchor? "src" := by decide +kernel
  have apart : ¬ SameButExtension "src/a.ts" "src/b.ts" := by
    rintro ⟨-, alike⟩
    rw [names.1, names.2.1, alike_concat] at alike
    revert alike
    decide +kernel
  have keeps : Keeps options "src/a.ts" ["a.ts"] := .under rfl anchors.1 (by rw [names.1, names.2.2])
  obtain ⟨-, away⟩ := outputs_lie_apart reached first second
  obtain ⟨-, under, -, below⟩ := away "dist" rfl
  refine ⟨x, y, reached, first, second, under "src" rfl ⟨anchors.1, ?_⟩ ⟨anchors.2, ?_⟩ apart,
    below ["a.ts"] keeps (by decide) (by decide)⟩
  · exact ⟨["a.ts"], by rw [names.1, names.2.2]⟩
  · exact ⟨["b.ts"], by rw [names.2.1, names.2.2]⟩

/-- Where no root is given, files of one name in two directories meet in the directory for outputs. -/
theorem outputs_meet_without_root :
    let options : Options := { module := .asWritten, outDir := some "dist" }
    ∃ x y, Reached options (pair options "a/x.ts" "b/x.ts") ∧ (pair options "a/x.ts" "b/x.ts").Emits "a/x.ts" x ∧
      (pair options "a/x.ts" "b/x.ts").Emits "b/x.ts" y ∧ ¬ SameButExtension "a/x.ts" "b/x.ts" ∧
      x.path = "dist/x.js" ∧ y.path = "dist/x.js" := by
  intro options
  obtain ⟨x, y, first, second, path, path'⟩ :=
    pair_emits options "a/x.ts" "b/x.ts" rfl (by decide +kernel) (by decide +kernel)
  have names : namesOf "a/x.ts" = ["a"] ++ ["x.ts"] ∧ namesOf "b/x.ts" = ["b"] ++ ["x.ts"] := by decide +kernel
  refine ⟨x, y, pair_reached .., first, second, ?_, path.trans (by decide +kernel), path'.trans (by decide +kernel)⟩
  rintro ⟨-, alike⟩
  rw [names.1, names.2, alike_concat] at alike
  exact absurd alike.1 (by decide)

end Program

end ScriptFrontend
