import Mathlib.Data.List.Forall2
import ScriptFrontend.Proofs.Token.LineBreak
import ScriptFrontend.Proofs.Token.Tiling

/-!
# Leaving trivia out

A scanner that leaves trivia out finds the tokens that one finds which stops at each piece of trivia,
and reports the same errors. The second goes on piece by piece where the first makes one step, so what
the first notes of line breaks is compared with the pieces that the second found before the token.
-/

namespace ScriptFrontend.Scanner

open Token Token.Window

def look (s : Scanner) : Kind × Nat × Nat × String := (s.token, s.tokenStart, s.pos, s.value)

def BreaksLine (s : Scanner) : Prop :=
  s.token = .newLineTrivia ∨ (s.token = .multiLineCommentTrivia ∧
    ∃ c ∈ s.tokenText.toList, Text.isLineBreak c = true)

/-- The tokens among some, each with the pieces of trivia right before it; `before` came first. -/
def withTrivia : List Scanner → List Scanner → List (List Scanner × Scanner)
  | _, [] => []
  | before, t :: ts =>
    if t.token.isTrivia then withTrivia (before ++ [t]) ts else (before, t) :: withTrivia [] ts

/-- Two scanners at one place of a text, with the same errors. The first leaves trivia out. -/
structure InStep (s f : Scanner) : Prop where
  window_eq : s.window = f.window
  pos_eq : s.pos = f.pos
  errors_eq : s.errors = f.errors
  unheard : s.heard = none ∧ f.heard = none
  skips : s.skipsTrivia = true
  bare : f.skipsTrivia = false

structure Matches (s f : Scanner) : Prop extends s.InStep f where
  look_eq : s.look = f.look

/-- Going on over pieces of trivia to a token. -/
inductive Skims : Scanner → List Scanner → Scanner → Prop
  | token {f : Scanner} (solid : f.scan.token.isTrivia = false) : Skims f [] f.scan
  | trivia {f t : Scanner} {vs : List Scanner} (piece : f.scan.token.isTrivia = true)
      (rest : Skims f.scan vs t) : Skims f (f.scan :: vs) t

variable {text : String} {s f t : Scanner} {vs ts quiet full : List Scanner}

/-! ## One token -/

theorem report_unheard (unheard : s.heard = none) (errors : List ScanError) :
    s.report errors = { s with errors := s.errors ++ errors.toArray } := by
  rw [report, unheard]

theorem land_unheard (unheard : s.heard = none) (start : Nat) (l : Lexeme) :
    s.land start l =
      { s with pos := l.stop, tokenStart := start, token := l.kind, value := l.value,
               flags := s.flags ||| l.flags, errors := s.errors ++ l.errors.toArray } := by
  rw [Scanner.land, report_unheard]
  exact unheard

theorem pass_unheard (unheard : s.heard = none) (l : Lexeme) :
    s.pass l =
      { s with pos := l.stop, flags := s.flags ||| l.flags,
               errors := s.errors ++ l.errors.toArray } := by
  rw [Scanner.pass, report_unheard]
  exact unheard

theorem land_notes (start : Nat) (l : Lexeme) :
    (s.land start l).hasFlag TokenFlags.precedingLineBreak =
      (s.hasFlag TokenFlags.precedingLineBreak || l.flags.has TokenFlags.precedingLineBreak) := by
  rw [hasFlag, Scanner.land, report_toTokenState]
  exact TokenFlags.has_break_or s.flags l.flags

theorem pass_notes (l : Lexeme) :
    (s.pass l).hasFlag TokenFlags.precedingLineBreak =
      (s.hasFlag TokenFlags.precedingLineBreak || l.flags.has TokenFlags.precedingLineBreak) := by
  rw [hasFlag, Scanner.pass, report_toTokenState]
  exact TokenFlags.has_break_or s.flags l.flags

theorem InStep.land (h : s.InStep f) (l : Lexeme) :
    (s.land s.pos l).Matches (f.fresh.land f.pos l) := by
  obtain ⟨window, pos, errors, ⟨heard, heard'⟩, skips, bare⟩ := h
  rw [land_unheard heard, land_unheard (s := f.fresh) heard']
  refine ⟨⟨window, rfl, ?_, ⟨heard, heard'⟩, skips, bare⟩, ?_⟩
  · exact congrArg (· ++ l.errors.toArray) errors
  · simp only [look, pos]

/-- The first passes a piece of trivia that the second lands on. -/
theorem InStep.pass (h : s.InStep f) (l : Lexeme) : (s.pass l).InStep (f.fresh.land f.pos l) := by
  obtain ⟨window, -, errors, ⟨heard, heard'⟩, skips, bare⟩ := h
  rw [pass_unheard heard, land_unheard (s := f.fresh) heard']
  exact ⟨window, rfl, congrArg (· ++ l.errors.toArray) errors, ⟨heard, heard'⟩, skips, bare⟩

theorem Ready.scan_bare (h : f.Ready text) (bare : f.skipsTrivia = false) :
    f.scan = f.fresh.land f.pos ((f.window.trivia? f.pos).getD (f.window.token f.pos)) := by
  have inside : f.pos ≤ f.stop := by
    rw [h.stop_eq]
    exact h.cut.le_size
  obtain ⟨fuel, more⟩ := Nat.exists_eq_succ_of_ne_zero (n := f.stop + 1 - f.pos) (by omega)
  have bare : f.fresh.skipsTrivia = false := bare
  rw [Scanner.scan, more, scan.go]
  change _ = f.fresh.land f.pos ((f.fresh.window.trivia? f.fresh.pos).getD _)
  cases f.fresh.window.trivia? f.fresh.pos with
  | none => rfl
  | some l =>
    simp only [bare]
    rfl

theorem Ready.land_breaksLine (h : f.Ready text) {l : Lexeme}
    (found : f.window.trivia? f.pos = some l) :
    (f.fresh.land f.pos l).BreaksLine ↔ l.flags.has TokenFlags.precedingLineBreak = true := by
  rw [trivia?_breaks h.even h.window_cut found, BreaksLine, tokenText, land_token, land_tokenStart,
    land_pos, land_text]
  rfl

/-- What the first scanner finds, the second comes to over pieces of trivia. The first notes a line
break if it had noted one before, or one of them is one. -/
theorem scan_go_skims (fuel : Nat) (h : s.Between text) (ready : f.Ready text)
    (inStep : s.InStep f) (enough : s.stop < s.pos + fuel) :
    ∃ vs t, f.Skims vs t ∧ (scan.go fuel s).Matches t ∧
      ((scan.go fuel s).hasFlag TokenFlags.precedingLineBreak = true ↔
        s.hasFlag TokenFlags.precedingLineBreak = true ∨ ∃ v ∈ vs, v.BreaksLine) := by
  induction fuel generalizing s f with
  | zero =>
    have inside := h.cut.le_size
    rw [h.stop_eq] at enough
    omega
  | succ fuel ih =>
    have next := ready.scan_bare inStep.bare
    have window := inStep.window_eq
    have pos := inStep.pos_eq
    rw [scan.go]
    split
    · rename_i l found
      have past : s.pos < l.stop := trivia?_past h.window_cut found
      have before := h.pass found
      rw [window, pos] at found
      rw [found, Option.getD_some] at next
      have breaks := ready.land_breaksLine found
      have piece : f.scan.token.isTrivia = true := by
        rw [next, land_token]
        exact trivia?_kind found
      obtain ⟨vs, t, skims, matched, notes⟩ := ih before ready.scan.ready
        (next ▸ inStep.pass l) (by simp [Scanner.pass]; omega)
      rw [if_pos inStep.skips]
      refine ⟨_, t, .trivia piece skims, matched, notes.trans ?_⟩
      rw [pass_notes, Bool.or_eq_true, ← breaks, ← next]
      simp only [List.mem_cons, exists_eq_or_imp, or_assoc]
    · rename_i nothing
      rw [window, pos] at nothing
      rw [nothing, Option.getD_none] at next
      have solid : f.scan.token.isTrivia = false := by
        rw [next, land_token]
        exact token_isTrivia f.window f.pos
      refine ⟨[], _, .token solid, ?_, ?_⟩
      · rw [next, window, pos, ← pos]
        exact pos ▸ inStep.land _
      · rw [land_notes, token_calm, Bool.or_false]
        simp

theorem Ready.scan_skims (h : s.Ready text) (ready : f.Ready text) (inStep : s.InStep f) :
    ∃ vs t, f.Skims vs t ∧ s.scan.Matches t ∧
      (s.scan.hasFlag TokenFlags.precedingLineBreak = true ↔ ∃ v ∈ vs, v.BreaksLine) := by
  have same : s.fresh.InStep f :=
    ⟨inStep.window_eq, inStep.pos_eq, inStep.errors_eq, inStep.unheard, inStep.skips, inStep.bare⟩
  obtain ⟨vs, t, skims, matched, notes⟩ := scan_go_skims (s.stop + 1 - s.pos) h.fresh ready same
    (by change s.stop < s.pos + (s.stop + 1 - s.pos); omega)
  refine ⟨vs, t, skims, matched, notes.trans (or_iff_right ?_)⟩
  have calm : s.fresh.flags.Calm := TokenFlags.calm_empty
  exact ne_true_of_eq_false calm

/-! ## The whole run -/

theorem ne_end_of_isTrivia (h : t.token.isTrivia = true) : t.token ≠ .endOfFileToken := by
  intro same
  rw [same] at h
  cases h

theorem Skims.ready (h : f.Skims vs t) (ready : f.Ready text) : t.Ready text := by
  induction h with
  | token _ => exact ready.scan.ready
  | trivia _ _ ih => exact ih ready.scan.ready

theorem Skims.yields_last (h : f.Skims vs t) (ended : t.token = .endOfFileToken) :
    f.Yields (vs ++ [t]) := by
  induction h with
  | token _ => exact .last ended
  | trivia piece _ ih => exact .next (ne_end_of_isTrivia piece) (ih ended)

theorem Skims.yields_next (h : f.Skims vs t) (live : t.token ≠ .endOfFileToken)
    (rest : t.Yields ts) : f.Yields (vs ++ t :: ts) := by
  induction h with
  | token _ => exact .next live rest
  | trivia piece _ ih => exact .next (ne_end_of_isTrivia piece) (ih live rest)

theorem Skims.withTrivia (h : f.Skims vs t) (before ts : List Scanner) :
    withTrivia before (vs ++ t :: ts) = (before ++ vs, t) :: withTrivia [] ts := by
  induction h generalizing before with
  | token solid => simp [Scanner.withTrivia, solid]
  | trivia piece _ ih => simp [Scanner.withTrivia, piece, ih]

theorem withTrivia_tokens (before full : List Scanner) :
    (withTrivia before full).map (·.2) = full.filter fun t => !t.token.isTrivia := by
  induction full generalizing before with
  | nil => rfl
  | cons t ts ih =>
    rw [withTrivia]
    split
    · rename_i piece
      rw [ih, List.filter_cons, piece]
      rfl
    · rename_i solid
      rw [Bool.not_eq_true] at solid
      rw [List.map_cons, ih, List.filter_cons, solid]
      rfl

theorem last_errors (t : Scanner) (ts : List Scanner) :
    (t :: ts).getLast?.map Scanner.errors =
      some ((ts.getLast?.map Scanner.errors).getD t.errors) := by
  rw [List.getLast?_cons, Option.map_some, Option.getD_map]

/-- A token of the first scanner, and one of the second with the pieces of trivia before it, which
begin where the first one's trivia does. -/
structure Follows (text : String) (s : Scanner) (group : List Scanner × Scanner) : Prop
    extends s.Matches group.2 where
  notes : s.hasFlag TokenFlags.precedingLineBreak = true ↔ ∃ v ∈ group.1, v.BreaksLine
  skims : ∃ f : Scanner, f.Ready text ∧ f.skipsTrivia = false ∧ f.pos = s.fullStart ∧
    f.Skims group.1 group.2

/-- Token for token the second scanner finds what the first one does, and the pieces of trivia that
break a line where the first notes it. -/
theorem Yields.follows (h : s.Yields quiet) (ready : s.Ready text) (ready' : f.Ready text)
    (inStep : s.InStep f) :
    ∃ full, f.Yields full ∧ List.Forall₂ (Follows text) quiet (withTrivia [] full) ∧
      quiet.getLast?.map Scanner.errors = full.getLast?.map Scanner.errors := by
  induction h generalizing f with
  | @last s ended =>
    obtain ⟨vs, t, skims, matched, notes⟩ := ready.scan_skims ready' inStep
    have same : s.scan.token = t.token := congrArg Prod.fst matched.look_eq
    have start : f.pos = s.scan.fullStart := inStep.pos_eq ▸ ready.scan_fullStart.symm
    refine ⟨vs ++ [t], skims.yields_last (same ▸ ended), ?_, ?_⟩
    · rw [skims.withTrivia]
      exact .cons ⟨matched, notes, f, ready', inStep.bare, start, skims⟩ .nil
    · simp [matched.errors_eq]
  | @next s ts live _ ih =>
    obtain ⟨vs, t, skims, matched, notes⟩ := ready.scan_skims ready' inStep
    have same : s.scan.token = t.token := congrArg Prod.fst matched.look_eq
    have start : f.pos = s.scan.fullStart := inStep.pos_eq ▸ ready.scan_fullStart.symm
    obtain ⟨full, yields, follows, errors⟩ :=
      ih ready.scan.ready (skims.ready ready') matched.toInStep
    refine ⟨vs ++ t :: full, skims.yields_next (same ▸ live) yields, ?_, ?_⟩
    · rw [skims.withTrivia]
      exact .cons ⟨matched, notes, f, ready', inStep.bare, start, skims⟩ follows
    · rw [List.getLast?_append, last_errors, List.getLast?_cons, Option.some_or,
        ← List.getLast?_cons, last_errors, errors, matched.errors_eq]

/-- Of every text a scanner that leaves trivia out finds the tokens that are none of those that one
finds which does not, with the same errors. It notes a line break before a token just if one of the
pieces of trivia right before it is a line break or a block comment that holds one. -/
theorem skipping_only_drops_trivia (text : String) (target : ScriptTarget)
    (variant : LanguageVariant) :
    ∃ quiet full, (atStart text target variant true).Yields quiet ∧
      (atStart text target variant false).Yields full ∧
      quiet.map look = (full.filter fun t => !t.token.isTrivia).map look ∧
      quiet.getLast?.map Scanner.errors = full.getLast?.map Scanner.errors ∧
      List.Forall₂ (fun t group => t.hasFlag TokenFlags.precedingLineBreak = true ↔
        ∃ v ∈ group.1, v.BreaksLine) quiet (withTrivia [] full) := by
  have ready := (atStart_aligned text target variant true).ready
  have ready' := (atStart_aligned text target variant false).ready
  obtain ⟨quiet, yields⟩ := ready.exists_yields
  obtain ⟨full, yields', follows, errors⟩ :=
    yields.follows ready ready' ⟨rfl, rfl, rfl, ⟨rfl, rfl⟩, rfl, rfl⟩
  refine ⟨quiet, full, yields, yields', ?_, errors, follows.imp fun _ _ h => h.notes⟩
  rw [← withTrivia_tokens [] full, List.map_map, ← List.forall₂_eq_eq_eq,
    List.forall₂_map_left_iff, List.forall₂_map_right_iff]
  exact follows.imp fun _ _ h => h.look_eq

end ScriptFrontend.Scanner
