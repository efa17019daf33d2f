import Mathlib.Data.List.Forall2
/-!
# Results of effectful computations

The functions that callers supply may have effects. What can still be said of a computation that
calls them is said of its results: `Ensures x post` holds if `x` can be run so that each of its
results comes with a proof of `post`. In a pure computation that is a statement about the one
result, and with hidden state it is one about the result from every state. Where a monad says which
results a computation can return, it holds of each of them.
-/

namespace AgentAlgebra

variable {m : Type → Type} [Monad m] {ε α β γ : Type}

/-- Every result of a computation has a property, whatever its effects. -/
def Ensures (x : ExceptT ε m α) (post : Except ε α → Prop) : Prop :=
  ∃ proved : m {result // post result}, Subtype.val <$> proved = x.run

/-- For a pure computation, its result has the property. -/
theorem ensures_id {x : ExceptT ε Id α} {post : Except ε α → Prop} :
    Ensures x post ↔ post x.run := by
  constructor
  · rintro ⟨proved, same⟩
    exact same ▸ (Id.run proved).property
  · intro holds
    exact ⟨⟨x.run, holds⟩, rfl⟩

namespace Ensures

variable [LawfulMonad m] {x : ExceptT ε m α} {f : α → ExceptT ε m β}
  {post : Except ε α → Prop} {after : Except ε β → Prop}

theorem of_forall (x : ExceptT ε m α) (all : ∀ result, post result) : Ensures x post :=
  ⟨(fun result => ⟨result, all result⟩) <$> x.run, by simp⟩

protected theorem pure {a : α} (holds : post (.ok a)) :
    Ensures (pure a : ExceptT ε m α) post :=
  ⟨pure ⟨.ok a, holds⟩, by simp⟩

protected theorem throw {e : ε} (holds : post (.error e)) :
    Ensures (throw e : ExceptT ε m α) post :=
  ⟨pure ⟨.error e, holds⟩, by simp⟩

theorem mono (ensures : Ensures x post) {weaker : Except ε α → Prop}
    (imp : ∀ result, post result → weaker result) : Ensures x weaker := by
  obtain ⟨proved, same⟩ := ensures
  refine ⟨(fun result => ⟨result.1, imp result.1 result.2⟩) <$> proved, ?_⟩
  rw [← same, ← comp_map]
  rfl

/-- What follows may rely on what a computation ensures, and its errors are passed on. -/
theorem bind (ensures : Ensures x post) (error : ∀ e, post (.error e) → after (.error e))
    (ok : ∀ a, post (.ok a) → Ensures (f a) after) : Ensures (x >>= f) after := by
  obtain ⟨proved, same⟩ := ensures
  let rest : {result // post result} → m {result // after result}
    | ⟨.ok a, holds⟩ => (ok a holds).choose
    | ⟨.error e, holds⟩ => pure ⟨.error e, error e holds⟩
  refine ⟨proved >>= rest, ?_⟩
  rw [map_bind, ExceptT.run_bind, ← same, bind_map_left]
  congr 1
  funext result
  match result with
  | ⟨.ok a, holds⟩ => exact (ok a holds).choose_spec
  | ⟨.error e, holds⟩ => simp [rest]

end Ensures

/-- Every value that a computation gives has a property; its errors are not looked at. -/
def Gives (x : ExceptT ε m α) (holds : α → Prop) : Prop :=
  Ensures x fun
    | .ok a => holds a
    | .error _ => True

theorem gives_id {x : ExceptT ε Id α} {holds : α → Prop} :
    Gives x holds ↔ ∀ a, x.run = .ok a → holds a := by
  unfold Gives
  rw [ensures_id]
  cases x.run with
  | ok a => exact ⟨fun given _ same => Except.ok.inj same ▸ given, fun given => given a rfl⟩
  | error e => exact ⟨fun _ => nofun, fun _ => trivial⟩

namespace Gives

variable [LawfulMonad m] {x : ExceptT ε m α} {f : α → ExceptT ε m β} {holds : α → Prop}
  {after : β → Prop}

theorem of_forall (x : ExceptT ε m α) (all : ∀ a, holds a) : Gives x holds :=
  Ensures.of_forall x fun
    | .ok a => all a
    | .error _ => trivial

protected theorem pure {a : α} (given : holds a) : Gives (pure a : ExceptT ε m α) holds :=
  Ensures.pure given

protected theorem throw (e : ε) : Gives (throw e : ExceptT ε m α) holds :=
  Ensures.throw trivial

theorem bind (gives : Gives x holds) (next : ∀ a, holds a → Gives (f a) after) :
    Gives (x >>= f) after :=
  Ensures.bind gives (fun _ _ => trivial) next

theorem mono (gives : Gives x holds) {weaker : α → Prop} (imp : ∀ a, holds a → weaker a) :
    Gives x weaker :=
  Ensures.mono gives fun
    | .ok a => imp a
    | .error _ => id

/-- Whatever comes before, only the last computation counts. -/
theorem bind_last (next : ∀ a, Gives (f a) after) : Gives (x >>= f) after :=
  bind (of_forall x fun _ => trivial) fun a (_ : True) => next a

end Gives

/-- Every value that a computation gives has one property, and every error that it fails with has
another. -/
def Yields (x : ExceptT ε m α) (holds : α → Prop) (fails : ε → Prop) : Prop :=
  Ensures x fun result => (∀ a, result = .ok a → holds a) ∧ ∀ e, result = .error e → fails e

namespace Yields

variable [LawfulMonad m] {x : ExceptT ε m α} {f : α → ExceptT ε m β} {holds : α → Prop}
  {after : β → Prop} {fails : ε → Prop}

protected theorem pure {a : α} (given : holds a) : Yields (pure a : ExceptT ε m α) holds fails :=
  Ensures.pure ⟨fun _ same => Except.ok.inj same ▸ given, fun _ => nofun⟩

protected theorem throw {e : ε} (failed : fails e) :
    Yields (throw e : ExceptT ε m α) holds fails :=
  Ensures.throw ⟨fun _ => nofun, fun _ same => Except.error.inj same ▸ failed⟩

/-- A function that a caller supplies does not fail. -/
theorem lift (x : m α) : Yields (liftM x : ExceptT ε m α) (fun _ => True) fails := by
  refine ⟨(fun a => ⟨.ok a, fun _ _ => trivial, fun _ => nofun⟩) <$> x, ?_⟩
  rw [← comp_map]
  rfl

theorem bind (yields : Yields x holds fails) (next : ∀ a, holds a → Yields (f a) after fails) :
    Yields (x >>= f) after fails :=
  Ensures.bind yields
    (fun e failed => ⟨fun _ => nofun, fun _ same => Except.error.inj same ▸ failed.2 e rfl⟩)
    fun a given => next a (given.1 a rfl)

theorem mono (yields : Yields x holds fails) {weaker : α → Prop} {weaker' : ε → Prop}
    (imp : ∀ a, holds a → weaker a) (imp' : ∀ e, fails e → weaker' e) : Yields x weaker weaker' :=
  Ensures.mono yields fun _ given =>
    ⟨fun a same => imp a (given.1 a same), fun e same => imp' e (given.2 e same)⟩

/-- A list that is computed member by member has as many members as there are items, and fails only
as one of them does. -/
theorem mapM {visit : γ → ExceptT ε m α} {items : List γ}
    (each : ∀ item ∈ items, Yields (visit item) (fun _ => True) fails) :
    Yields (items.mapM visit) (fun found => found.length = items.length) fails := by
  induction items with
  | nil => exact .pure rfl
  | cons item items ih =>
    rw [List.forall_mem_cons] at each
    rw [List.mapM_cons]
    refine .bind each.1 fun first _ => .bind (ih each.2) fun rest length => .pure ?_
    rw [List.length_cons, List.length_cons, length]

end Yields

/-- The computation has no effects, and if it gives a value, the value has a property. -/
def Settles (x : ExceptT ε m α) (holds : α → Prop) : Prop :=
  ∃ result, x.run = pure result ∧ ∀ a, result = .ok a → holds a

namespace Settles

variable {x : ExceptT ε m α} {f : α → ExceptT ε m β} {holds : α → Prop} {after : β → Prop}

protected theorem pure {a : α} (given : holds a) : Settles (pure a : ExceptT ε m α) holds :=
  ⟨.ok a, rfl, fun _ same => Except.ok.inj same ▸ given⟩

protected theorem throw (e : ε) : Settles (throw e : ExceptT ε m α) holds :=
  ⟨.error e, rfl, nofun⟩

variable [LawfulMonad m]

theorem bind (settles : Settles x holds) (next : ∀ a, holds a → Settles (f a) after) :
    Settles (x >>= f) after := by
  obtain ⟨result, ran, given⟩ := settles
  unfold Settles
  rw [ExceptT.run_bind, ran, pure_bind]
  cases result with
  | ok a => exact next a (given a rfl)
  | error e => exact ⟨.error e, rfl, nofun⟩

/-- A list that is computed member by member has the property member by member. -/
theorem mapM {visit : γ → ExceptT ε m α} {holds : γ → α → Prop} {items : List γ}
    (each : ∀ item ∈ items, Settles (visit item) (holds item)) :
    Settles (items.mapM visit) (List.Forall₂ holds items) := by
  induction items with
  | nil => exact .pure .nil
  | cons item items ih =>
    rw [List.forall_mem_cons] at each
    rw [List.mapM_cons]
    exact each.1.bind fun _ first => (ih each.2).bind fun _ rest => .pure (.cons first rest)

end Settles

section Returned

open MonadAttach LawfulMonadAttach

/-- Each result of a computation is one that it can return. -/
theorem ensures_canReturn [LawfulMonad m] [MonadAttach m] [WeaklyLawfulMonadAttach m]
    (x : ExceptT ε m α) : Ensures x (CanReturn x.run) :=
  ⟨attach x.run, WeaklyLawfulMonadAttach.map_attach⟩

variable [LawfulMonad m] [MonadAttach m] [LawfulMonadAttach m]

/-- What a computation ensures holds of every result that it can return. -/
theorem Ensures.of_canReturn {x : ExceptT ε m α} {post : Except ε α → Prop}
    (ensures : Ensures x post) {result : Except ε α} (returned : CanReturn x.run result) :
    post result := by
  obtain ⟨proved, same⟩ := ensures
  rw [← same] at returned
  obtain ⟨given, -, rfl⟩ := canReturn_map_imp' returned
  exact given.property

/-- Of a list that is computed member by member, each member was returned for one of the items. -/
theorem canReturn_mapM {visit : α → m β} {items : List α} {found : List β}
    (visited : CanReturn (items.mapM visit) found) {b : β} (mem : b ∈ found) :
    ∃ a ∈ items, CanReturn (visit a) b := by
  induction items generalizing found with
  | nil =>
    rw [List.mapM_nil] at visited
    obtain rfl := eq_of_canReturn_pure visited
    exact nomatch mem
  | cons a items ih =>
    rw [List.mapM_cons] at visited
    obtain ⟨first, here, rest⟩ := canReturn_bind_imp' visited
    obtain ⟨others, there, whole⟩ := canReturn_bind_imp' rest
    obtain rfl := eq_of_canReturn_pure whole
    rcases List.mem_cons.mp mem with rfl | mem
    · exact ⟨a, List.mem_cons_self, here⟩
    · obtain ⟨a', mem', visit'⟩ := ih there mem
      exact ⟨a', List.mem_cons_of_mem _ mem', visit'⟩

/-- A computation with a state can return its result from any state. -/
theorem canReturn_run {σ : Type} (x : StateM σ α) (state : σ) : CanReturn x (x.run state).1 :=
  ⟨state, (x.run state).2, rfl⟩

end Returned

end AgentAlgebra
