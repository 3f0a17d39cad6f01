import Mathlib.Order.Defs.Unbundled
import ScriptFrontend.Registration.Module

/-!
# What the steps of a registration keep

The state of a registration changes in few ways: names are taken, variables and functions are put in
front of the body, and exports are held and released. A relation between states that the first two
keep is kept by all that takes patterns and statements apart.
-/

namespace ScriptFrontend.Registration

open Made

/-- A relation between states that taking names and declaring variables keeps. -/
class Stable (R : State → State → Prop) : Prop extends IsPreorder State R where
  unique : ∀ s base, R s { s with names := (s.names.unique base).2 }
  temporary : ∀ s, R s { s with names := s.names.temporary.2 }
  hoist : ∀ s name, R s (if s.hoisted.contains name then s else { s with hoisted := s.hoisted ++ [name] })

class Keeps (R : State → State → Prop) {α : Type} (x : Register α) : Prop where
  keeps : ∀ c s, R s (x c s).2

variable {R : State → State → Prop} [stable : Stable R]

namespace Keeps

variable {α β γ : Type} {x : Register α} {f : α → Register β} {c : Context} {s : State}

omit stable in
theorem bind_run : (x >>= f) c s = f (x c s).1 c (x c s).2 := rfl

instance ofPure (a : α) : Keeps R (pure a : Register α) := ⟨fun _ s => Std.Refl.refl s⟩

instance ofBind [hx : Keeps R x] [hf : ∀ a, Keeps R (f a)] : Keeps R (x >>= f) where
  keeps := by
    intro c s
    rw [bind_run]
    exact IsTrans.trans _ _ _ (hx.keeps c s) ((hf _).keeps c _)

theorem then_ [Keeps R x] (h : ∀ a, Keeps R (f a)) : Keeps R (x >>= f) := ofBind

omit stable in
instance ofMap {g : α → β} [hx : Keeps R x] : Keeps R (g <$> x) := ⟨fun c s => hx.keeps c s⟩

instance ofIte (p : Prop) {_ : Decidable p} (x y : Register α) [Keeps R x] [Keeps R y] :
    Keeps R (if p then x else y) := by
  split <;> infer_instance

instance ofRead : Keeps R (read : Register Context) := ⟨fun _ s => Std.Refl.refl s⟩

omit stable in
theorem ofModify {g : State → State} (h : ∀ s, R s (g s)) : Keeps R (modify g : Register PUnit) :=
  ⟨fun _ s => h s⟩

omit stable in
theorem ofModifyGet {g : State → α × State} (h : ∀ s, R s (g s).2) :
    Keeps R (modifyGet g : Register α) := ⟨fun _ s => h s⟩

instance ofForIn {l : List γ} {init : β} {g : γ → β → Register (ForInStep β)}
    [hg : ∀ a b, Keeps R (g a b)] : Keeps R (forIn l init g) := by
  induction l generalizing init with
  | nil => exact ofPure init
  | cons a l ih =>
    rw [List.forIn_cons]
    have next (r : ForInStep β) :
        Keeps R (match r with
          | .done b => (pure b : Register β)
          | .yield b => forIn l b g) := by
      cases r with
      | done b => exact ofPure b
      | yield b => exact ih
    exact ofBind

instance ofForM {l : List γ} {g : γ → Register PUnit} [hg : ∀ a, Keeps R (g a)] : Keeps R (l.forM g) := by
  induction l with
  | nil => exact ofPure _
  | cons a l ih => exact ofBind (x := g a) (f := fun _ => l.forM g)

instance ofMapM {l : List γ} {g : γ → Register β} [hg : ∀ a, Keeps R (g a)] : Keeps R (l.mapM g) := by
  induction l with
  | nil => exact ofPure _
  | cons a l ih =>
    rw [List.mapM_cons]
    infer_instance

instance ofOptionForM {o : Option γ} {g : γ → Register PUnit} [hg : ∀ a, Keeps R (g a)] :
    Keeps R (o.forM g) := by
  cases o with
  | none => exact ofPure _
  | some a => exact hg a

instance ofOptionMapM {o : Option γ} {g : γ → Register β} [hg : ∀ a, Keeps R (g a)] :
    Keeps R (o.mapM g) := by
  cases o with
  | none => exact ofPure _
  | some a => exact ofMap

end Keeps

/-! ## Variables -/

instance (name : String) : Keeps R (hoist name) := .ofModify fun s => stable.hoist s name

instance (base : String) : Keeps R (newName base) := .ofModifyGet fun s => stable.unique s base

instance : Keeps R newTemporary := by
  have name : Keeps R (modifyGet (m := Register) fun s =>
      (s.names.temporary.1, { s with names := s.names.temporary.2 })) :=
    .ofModifyGet fun s => stable.temporary s
  exact .ofBind

instance (value : Node) : Keeps R (nameValue value) := by
  rw [nameValue]
  split <;> infer_instance

instance (value : Node) (other : Option Node) : Keeps R (withDefault value other) := by
  cases other <;> rw [withDefault] <;> infer_instance

instance (target value : Node) : Keeps R (wholePattern target value) := by
  rw [wholePattern]
  infer_instance

instance flatten_keeps (value target : Node) : Keeps R (flatten value target) := by
  refine flatten.induct (fun value target => Keeps R (flatten value target))
    (fun isObject value index items => Keeps R (flattenElements isObject value index items))
    ?pattern ?name ?done ?left ?taken ?other value target
  case pattern =>
    intro value h multiLine lh items docs origin ih
    rw [flatten]
    dsimp only at ih ⊢
    refine .then_ fun (kept, value) => ?_
    dsimp only
    have := ih value
    split <;> infer_instance
  case name =>
    intro value target other
    rw [flatten]
    · infer_instance
    · exact other
  case done =>
    intro isObject value index
    rw [flattenElements]
    infer_instance
  case left =>
    intro isObject value index head dots key target default docs origin rest parts none ih
    rw [flattenElements]
    simp only [parts] at none
    simp only [none]
    infer_instance
  case taken =>
    intro isObject value index head dots key target default docs origin rest parts part some ih ih'
    rw [flattenElements]
    simp only [parts] at some
    simp only [some]
    infer_instance
  case other =>
    intro isObject value index first rest other ih
    rw [flattenElements]
    · infer_instance
    · exact other

instance flattenElements_keeps (isObject : Bool) (value : Node) (index : Nat) (items : List Node) :
    Keeps R (flattenElements isObject value index items) := by
  induction items generalizing index with
  | nil =>
    rw [flattenElements]
    infer_instance
  | cons first rest ih =>
    have := ih (index + 1)
    rw [flattenElements.eq_def]
    split
    · infer_instance
    · rename_i same
      obtain ⟨rfl, rfl⟩ := List.cons.inj same
      dsimp only
      split <;> infer_instance
    · rename_i same
      obtain ⟨rfl, rfl⟩ := List.cons.inj same
      infer_instance

def variableRound (n : Node) (out : List Node) : Register (ForInStep (List Node)) :=
  match n.form with
  | .variableDeclaration p => do
    p.name.boundTexts.forM hoist
    match p.value with
    | some value =>
      let assigned ← flatten value p.name
      pure (.yield (out ++ assigned))
    | _ => pure (.yield out)
  | _ => pure (.yield out)

instance (n : Node) (out : List Node) : Keeps R (variableRound n out) := by
  rw [variableRound]
  split
  · refine .then_ fun _ => ?_
    split <;> infer_instance
  · infer_instance

instance (l : Node) : Keeps R (hoistVariables l) := by
  unfold hoistVariables
  split
  · rename_i declarations _
    change Keeps R (forIn declarations.items [] variableRound >>= pure)
    infer_instance
  · infer_instance

/-! ## Statements -/

instance (l : Node) : Keeps R (loopHead l) := by
  rw [loopHead]
  split <;> infer_instance

instance (start : Option Node) : Keeps R (loopStart start) := by
  cases start with
  | none => exact .ofPure _
  | some l =>
    rw [loopStart]
    split <;> infer_instance

section Nested

variable {visit : Node → Register Node} [∀ n, Keeps R (visit n)]

instance (n : Node) : Keeps R (listStatement visit n) := by
  rw [listStatement]
  split
  · infer_instance
  · split <;> infer_instance
  · infer_instance

instance (l : NodeList) : Keeps R (statementList visit l) := by
  unfold statementList
  infer_instance

instance (n : Node) : Keeps R (clause visit n) := by
  rw [clause]
  split <;> infer_instance

instance (n : Node) : Keeps R (caseBlock visit n) := by
  rw [caseBlock]
  split <;> infer_instance

instance (n : Node) : Keeps R (handler visit n) := by
  rw [handler]
  split <;> infer_instance

end Nested

instance nested_keeps (depth : Nat) (n : Node) : Keeps R (nested depth n) := by
  induction depth generalizing n with
  | zero => exact .ofPure n
  | succ depth ih =>
    rw [nested]
    split <;> infer_instance

instance (n : Node) : Keeps R (localOf n) := by
  rw [localOf]
  split <;> infer_instance

instance (n : Node) : Keeps R (classStatements n) := by
  rw [classStatements]
  infer_instance

instance (n : Node) : Keeps R (hoistLocal n) := by
  rw [hoistLocal]
  infer_instance

section

variable [∀ n, Keeps R (hoistFunction n)] [∀ n, Keeps R (deferExports n)] [∀ n, Keeps R (release n)]

instance (n : Node) : Keeps R (variableStatements n) := by
  rw [variableStatements]
  split
  · infer_instance
  · split <;> infer_instance

instance (depth : Nat) (n : Node) : Keeps R (statement depth n) := by
  rw [statement]
  split
  · infer_instance
  · refine .then_ fun c => ?_
    split
    all_goals try infer_instance
    all_goals split <;> infer_instance

instance (depth : Nat) (items : List Node) : Keeps R (body depth items) := by
  rw [body]
  infer_instance

end

end ScriptFrontend.Registration
