/-!
# Tuples

All tuples of a length over a list of choices, in lexicographic order, and a walk over them that keeps
none of them and may stop early.
-/

namespace AgentAlgebra

variable {α σ : Type}

/-- The tuples of `arity` choices, the last of which changes fastest. -/
def tuples (choices : List α) : (arity : Nat) → List (List α)
  | 0 => [[]]
  | arity + 1 => choices.flatMap fun a => (tuples choices arity).map (a :: ·)

variable {m : Type → Type} [Monad m]

/-- Go through a list with a state, until the visit of a member asks to stop. -/
def walk (visit : σ → α → m (ForInStep σ)) : σ → List α → m (ForInStep σ)
  | s, [] => return .yield s
  | s, a :: rest => do
    match ← visit s a with
    | .yield s => walk visit s rest
    | .done s => return .done s

/-- Go through the tuples of `arity` choices that follow those chosen already, last first. -/
def walkTuples (choices : List α) (visit : σ → List α → m (ForInStep σ)) :
    (arity : Nat) → (chosen : List α) → σ → m (ForInStep σ)
  | 0, chosen, s => visit s chosen.reverse
  | arity + 1, chosen, s => walk (fun s a => walkTuples choices visit arity (a :: chosen) s) s choices

theorem walk_append [LawfulMonad m] (visit : σ → α → m (ForInStep σ)) (s : σ) (front back : List α) :
    walk visit s (front ++ back) = (do
      match ← walk visit s front with
      | .yield s => walk visit s back
      | .done s => return .done s) := by
  induction front generalizing s with
  | nil => simp [walk]
  | cons a rest ih =>
    simp only [List.cons_append, walk, bind_assoc]
    congr 1
    funext progress
    cases progress <;> simp [ih]

theorem walk_flatMap [LawfulMonad m] {β : Type} (visit : σ → α → m (ForInStep σ)) (f : β → List α)
    (s : σ) (members : List β) :
    walk visit s (members.flatMap f) = walk (fun s b => walk visit s (f b)) s members := by
  induction members generalizing s with
  | nil => simp [walk]
  | cons b rest ih =>
    rw [List.flatMap_cons, walk_append]
    simp only [walk]
    congr 1
    funext progress
    cases progress <;> simp [ih]

theorem walk_map [LawfulMonad m] {β : Type} (visit : σ → α → m (ForInStep σ)) (f : β → α)
    (s : σ) (members : List β) :
    walk visit s (members.map f) = walk (fun s b => visit s (f b)) s members := by
  induction members generalizing s with
  | nil => simp [walk]
  | cons b rest ih =>
    simp only [List.map_cons, walk]
    congr 1
    funext progress
    cases progress <;> simp [ih]

/-- The walk over tuples visits what the list of tuples holds. -/
theorem walkTuples_eq_walk [LawfulMonad m] (choices : List α)
    (visit : σ → List α → m (ForInStep σ)) (arity : Nat) (chosen : List α) (s : σ) :
    walkTuples choices visit arity chosen s =
      walk (fun s tuple => visit s (chosen.reverse ++ tuple)) s (tuples choices arity) := by
  induction arity generalizing chosen s with
  | zero =>
    simp only [walkTuples, tuples, walk, List.append_nil]
    conv => lhs; rw [← bind_pure (visit s chosen.reverse)]
    congr 1
    funext progress
    cases progress <;> rfl
  | succ arity ih =>
    simp only [walkTuples, tuples, walk_flatMap, walk_map]
    congr 1
    funext s a
    simp [ih]

end AgentAlgebra
