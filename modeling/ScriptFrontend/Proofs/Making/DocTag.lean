import ScriptFrontend.Grammar.DocTag
import ScriptFrontend.Proofs.Making.Type

/-!
# Nodes of documentation

A course that tells no places tells of the nodes of documentation what it tells of all nodes. Tags of
documentation comments make their nodes like any other reading.
-/

namespace ScriptFrontend

open Diagnostic (Fault)
open Parse

set_option synthInstance.maxSize 4096

class Course.Placeless (W : Type) [Course W] : Prop where
  nowhere : ¬ Course.Places W
  documents : ∀ {g}, Course.Documents W g ↔
    ∀ n : Nonterminal, n.isDoc = true → ∀ w : W, MakesIn g (Course.offset w) w (call? n)
  restricts : ∀ {w : W} {s : ParserState} (start stop : Nat), Course.At w s →
    Course.At w { s with scanner := s.scanner.restrict start stop }

variable {α β W : Type} [Course W] [placeless : Course.Placeless W] {lo : Nat} {w : W}

instance (priority := 2000) (i j : Nat) : AtMost W i j := ⟨fun places => absurd places placeless.nowhere⟩

theorem Laid.call? {g : Productions} (link : Laid W g) (n : Nonterminal) :
    MakesIn g (Course.offset w) w (Parse.call? n) := by
  cases isDoc : n.isDoc with
  | true => exact placeless.documents.mp link.documents n isDoc w
  | false => exact link.reads n isDoc w

instance (priority := 900) (n : Nonterminal) : Makes lo w (call? n) :=
  ⟨fun link => (link.call? n).lower inferInstance⟩

instance (priority := 900) (n : Nonterminal) : Makes lo w (call n) := by
  unfold call
  exact .seq_new inferInstance fun found => .seq_here fun pos => inferInstance

/-! ## Names and types -/

instance (fault : Option Fault) : Makes lo w (docNameOr fault) := by
  unfold docNameOr
  refine .seq_still inferInstance fun kind => .choose (fun _ => inferInstance) fun _ => ?_
  refine .seq_still inferInstance fun _ => .seq_still inferInstance fun text => ?_
  have finished (word : Option Kind) (start stop : Nat) : MakesWhen (ParserState.HasNoted text) lo w (do
      let n ← finishAt .identifier start stop (.identifier text word)
      skipDocToken
      return n) :=
    .seq (i := lo) inferInstance fun n => inferInstance
  infer_instance

instance : Makes lo w docName := by
  unfold docName
  infer_instance

instance : Makes lo w docEntityName := by
  unfold docEntityName
  infer_instance

instance : Makes lo w docDeclaredName? := by
  unfold docDeclaredName?
  infer_instance

instance (bracesOptional : Bool) : Makes lo w (docTypeExpression bracesOptional) := by
  unfold docTypeExpression
  infer_instance

instance : Makes lo w docTypeExpression? := by
  unfold docTypeExpression?
  infer_instance

/-! ## Values -/

section

variable [Parted α]

instance (x y : Option α) [h : Built lo w x] [h' : Built lo w y] : Built lo w (x <|> y) := by
  cases x with
  | none => exact h'
  | some x => exact h

instance (x : Option α) (test : α → Bool) [h : Built lo w x] : Built lo w (x.filter test) := by
  cases x with
  | none => exact h
  | some x =>
    rw [Option.filter_some]
    infer_instance

instance (x : Option β) (f : β → Option α) [h : ∀ y, Built lo w (f y)] : Built lo w (x >>= f) := by
  cases x with
  | none => exact .of_nil rfl
  | some x => exact h x

instance (x : α) [h : Built lo w x] : Built lo w (pure x : Option α) := ⟨h.holds⟩

instance (xs : Array α) (test : α → Bool) [h : Built lo w xs] : Built lo w (xs.filter test) := by
  have items : Built lo w xs.toList := ⟨h.holds⟩
  have kept : Built lo w (xs.filter test).toList := by
    rw [Array.toList_filter]
    exact .of_forall fun _ mem => items.of_mem (List.mem_of_mem_filter mem)
  exact ⟨kept.holds⟩

end

instance : Parted TagHead := ⟨fun x => parts x.name⟩

instance (x : TagHead) [h : Built lo w x] : Built lo w x.name := ⟨h.holds⟩

instance (start indent : Nat) (name : Node) (margin : String) [h : Built lo w name] :
    Built lo w (⟨start, name, indent, margin⟩ : TagHead) :=
  ⟨h.holds⟩

instance : Parted Form.DocTag := ⟨fun x => parts (Form.docTag x).slots⟩

instance (comment : Option String) (bracketed nameFirst : Bool) (tagName : Node) (type name : Option Node)
    (typeParameters : Option NodeList) (base : Option Node) [Built lo w tagName] [Built lo w type]
    [Built lo w name] [Built lo w typeParameters] [Built lo w base] :
    Built lo w (⟨comment, bracketed, nameFirst, tagName, type, name, typeParameters, base⟩ : Form.DocTag) := by
  have parts : Built lo w
      (Form.docTag ⟨comment, bracketed, nameFirst, tagName, type, name, typeParameters, base⟩).slots := by
    infer_instance
  exact ⟨parts.holds⟩

/-! ## Tags -/

instance (h : TagHead) (kind : Kind) (parts : Form.DocTag) [∀ i, Built i w h] [∀ i, Built i w parts] :
    Makes lo w (finishTag h kind parts) := by
  unfold finishTag
  refine .seq_here fun pos => .seq_still inferInstance fun comment => .seq_here fun stop => ?_
  have (i : Nat) (b : W) [h : Built i b parts] : Built i b (Form.docTag { parts with comment }).slots := ⟨h.holds⟩
  infer_instance

instance (h : TagHead) (kind : Kind) [∀ i, Built i w h] : Makes lo w (plainTag h kind) := by
  unfold plainTag
  infer_instance

instance (h : TagHead) (kind : Kind) (bracesOptional : Bool) [∀ i, Built i w h] :
    Makes lo w (typeTag h kind bracesOptional) := by
  unfold typeTag
  infer_instance

instance (h : TagHead) (kind : Kind) [∀ i, Built i w h] : Makes lo w (optionalTypeTag h kind) := by
  unfold optionalTypeTag
  infer_instance

instance : Makes lo w baseName := by
  unfold baseName
  infer_instance

instance (h : TagHead) (kind : Kind) [∀ i, Built i w h] : Makes lo w (heritageTag h kind) := by
  unfold heritageTag
  infer_instance

instance : Makes lo w nameReference := by
  unfold nameReference
  infer_instance

instance (h : TagHead) [∀ i, Built i w h] : Makes lo w (seeTag h) := by
  unfold seeTag
  infer_instance

instance : Makes lo w tagTypeParameter? := by
  unfold tagTypeParameter?
  infer_instance

instance (h : TagHead) [∀ i, Built i w h] : Makes lo w (templateTag h) := by
  unfold templateTag
  infer_instance

instance (targets : DocTargets) (indent : Nat) (parent : Option Node) :
    Makes lo w (docChild? targets indent parent) := by
  unfold docChild?
  infer_instance

instance (targets : DocTargets) (indent : Nat) (parent : Option Node) :
    Makes lo w (docChildren targets indent parent) := by
  unfold docChildren
  infer_instance

instance (type : Option Node) (name : Node) (targets : DocTargets) (indent : Nat) [∀ i, Built i w type]
    [∀ i, Built i w name] :
    Makes lo w (nestedShape? type name targets indent) := by
  unfold nestedShape?
  split <;> infer_instance

instance : Makes lo w bracketedName := by
  unfold bracketedName
  infer_instance

instance (start : Nat) (tagName : Node) (targets : DocTargets) (indent : Nat) [∀ i, Built i w tagName] :
    Makes lo w (namedTag start tagName targets indent) := by
  unfold namedTag
  infer_instance

instance (targets : DocTargets) (indent : Nat) : Makes lo w (ownTag? targets indent) := by
  unfold ownTag?
  infer_instance

instance (targets : DocTargets) (indent : Nat) (parent : Option Node) :
    Makes lo w (docChild targets indent parent) := by
  unfold docChild
  infer_instance

/-! ## Declarations -/

instance (indent : Nat) : Makes lo w (definitionTags indent) := by
  unfold definitionTags
  infer_instance

instance (n : Node) [h : Built lo w n] : Built lo w n.docTagType? := by
  unfold Node.docTagType?
  split
  · rename_i p form
    have slots := (h.slots form).lower h.starts
    simp only [Form.slots] at slots
    split at slots
    · exact slots.tail.tail.head.of_ofNode?
    · exact slots.tail.head.of_ofNode?
  · infer_instance

instance (x : Option Node) [h : Built lo w x] : Built lo w (x.bind Node.docTagType?) := by
  cases x with
  | none => exact .of_nil rfl
  | some n =>
    have : Built lo w n := ⟨h.holds⟩
    exact inferInstanceAs (Built lo w n.docTagType?)

instance (start indent : Nat) (type : Option Node) [∀ i, Built i w type] :
    Makes lo w (definedType? start indent type) := by
  unfold definedType?
  refine .choose (fun _ => .seq_new inferInstance fun tags => ?_) fun _ => inferInstance
  refine .choose (fun _ => inferInstance) fun _ => ?_
  dsimp only
  split
  · rename_i t found
    have : Built lo tags.stage t := .of_some inferInstance found
    infer_instance
  · infer_instance

instance (h : TagHead) [∀ i, Built i w h] : Makes lo w (typedefTag h) := by
  unfold typedefTag
  infer_instance

instance (indent : Nat) : Makes lo w (returnTag? indent) := by
  unfold returnTag?
  infer_instance

instance (start indent : Nat) : Makes lo w (docSignature start indent) := by
  unfold docSignature
  infer_instance

instance (h : TagHead) [∀ i, Built i w h] : Makes lo w (callbackTag h) := by
  unfold callbackTag
  infer_instance

/-! ## Comments -/

instance (earlier : List Node) (indent : Nat) : Makes lo w (docTag earlier indent) := by
  unfold docTag
  refine .seq_still inferInstance fun start => .seq_still inferInstance fun _ =>
    .seq_new inferInstance fun name => ?_
  refine .seq_still inferInstance fun margin => ?_
  dsimp only
  split <;> infer_instance

instance (d : DocText) : Still W (skipFirstLine d) := by
  unfold skipFirstLine
  infer_instance

instance (start stop : Nat) (first : DocText) : Makes lo w (commentText start stop first) := by
  unfold commentText
  infer_instance

instance (start stop : Nat) : Makes lo w (commentAt start stop) := by
  unfold commentAt
  refine .seq_still inferInstance fun text => .choose (fun _ => ?_) fun _ => inferInstance
  refine .seq_still inferInstance fun _ => ⟨fun link s stands => ?_⟩
  have rest (w : W) (d : DocText) : Makes lo w (some <$> commentText start stop d) := inferInstance
  have first : Still W (skipFirstLine { indent := commentIndent text start, state := .afterAsterisk }) :=
    inferInstance
  exact (Makes.seq_still first (rest w)).holds link (placeless.restricts _ _ stands)

end ScriptFrontend
