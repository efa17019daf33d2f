import AgentAlgebra.Algebra.Basic
import AgentAlgebra.Proofs.Construction
/-!
# Extending algebras

An algebra only ever grows at the end, and a name that is taken is refused. So what an algebra has
under a name it keeps under that name, however often it is extended: each addition conserves all
that was found before, and a run of additions does so by induction.
-/

namespace AgentAlgebra

namespace Algebra

variable {m : Type → Type} {algebra extended further : Algebra m}

/-- What each addition keeps, a run of additions keeps. -/
theorem foldlM_keeps {α : Type} {step : Algebra m → α → Except AlgebraError (Algebra m)}
    {keeps : Algebra m → Prop}
    (each : ∀ {algebra item extended}, keeps algebra → step algebra item = .ok extended →
      keeps extended) {items : List α} (start : keeps algebra)
    (made : items.foldlM step algebra = .ok extended) : keeps extended := by
  induction items generalizing algebra with
  | nil =>
    obtain rfl := Except.ok.inj made
    exact start
  | cons item items ih =>
    rw [List.foldlM_cons, bind_eq_ok] at made
    obtain ⟨next, one, rest⟩ := made
    exact ih (each start one) rest

/-- Whatever the one algebra has under a name, the other has under that name. -/
structure Conserves (algebra extended : Algebra m) : Prop where
  operation : ∀ {name operation}, algebra.operation? name = some operation →
    extended.operation? name = some operation
  law : ∀ {name law}, algebra.law? name = some law → extended.law? name = some law

namespace Conserves

theorem refl (algebra : Algebra m) : Conserves algebra algebra := ⟨id, id⟩

theorem trans (one : Conserves algebra extended) (two : Conserves extended further) :
    Conserves algebra further :=
  ⟨fun found => two.operation (one.operation found), fun found => two.law (one.law found)⟩

theorem addOperation {operation : Operation m}
    (made : algebra.addOperation operation = .ok extended) : Conserves algebra extended := by
  unfold Algebra.addOperation at made
  split at made
  · exact nomatch made
  · obtain rfl := Except.ok.inj made
    refine ⟨fun found => ?_, id⟩
    unfold operation? at *
    rw [List.find?_append, found, Option.some_or]

theorem addLaw {law : Law m} (made : algebra.addLaw law = .ok extended) :
    Conserves algebra extended := by
  unfold Algebra.addLaw at made
  split at made
  · exact nomatch made
  · split at made
    · exact nomatch made
    · obtain rfl := Except.ok.inj made
      refine ⟨id, fun found => ?_⟩
      unfold law? at *
      rw [List.find?_append, found, Option.some_or]

theorem add {operations : List (Operation m)} {laws : List (Law m)}
    (made : algebra.add operations laws = .ok extended) : Conserves algebra extended := by
  unfold Algebra.add at made
  obtain ⟨between, one, two⟩ := bind_eq_ok.mp made
  have operationsKept : Conserves algebra between :=
    foldlM_keeps (fun kept added => kept.trans (addOperation added)) (refl algebra) one
  exact foldlM_keeps (fun kept added => kept.trans (addLaw added)) operationsKept two

/-- The name and the parent of an algebra play no part in what it has. -/
theorem extend {name : String} {operations : List (Operation m)} {laws : List (Law m)}
    (made : algebra.extend name operations laws = .ok extended) : Conserves algebra extended := by
  unfold Algebra.extend at made
  have renamed : Conserves algebra { algebra with name, parent := some algebra.name } := ⟨id, id⟩
  exact renamed.trans (add made)

end Conserves

variable [Monad m]

/-- The algebras that are built on the base algebra: the base algebra with some policy for `fix`,
and whatever comes of extending one of these. -/
inductive FromBase : Algebra m → Prop
  | baseWith (policy : RetryPolicy m) : FromBase (baseWith policy)
  | extend {algebra extended : Algebra m} {name : String} {operations : List (Operation m)}
    {laws : List (Law m)} (fromBase : FromBase algebra)
    (made : algebra.extend name operations laws = .ok extended) : FromBase extended

namespace FromBase

theorem base : FromBase (base : Algebra m) := .baseWith _

theorem baseOfBound {bound : Nat} (made : baseOfBound bound = .ok algebra) : FromBase algebra := by
  obtain ⟨policy, -, made⟩ := bind_eq_ok.mp made
  obtain rfl := Except.ok.inj made
  exact .baseWith policy

/-- All that the base algebra has is there. -/
theorem conserves (fromBase : FromBase algebra) :
    ∃ policy : RetryPolicy m, Conserves (Algebra.baseWith policy) algebra := by
  induction fromBase with
  | baseWith policy => exact ⟨policy, .refl _⟩
  | extend _ made ih =>
    obtain ⟨policy, before⟩ := ih
    exact ⟨policy, before.trans (.extend made)⟩

end FromBase

theorem law?_baseWith (policy : RetryPolicy m) {law : Law m} (among : law ∈ Law.base) :
    (baseWith policy).law? law.name = some law := by
  simp only [Law.base, List.mem_cons, List.not_mem_nil, or_false] at among
  rcases among with rfl | rfl | rfl | rfl | rfl | rfl
  all_goals rfl

end Algebra

end AgentAlgebra
