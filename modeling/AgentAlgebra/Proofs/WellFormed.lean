import AgentAlgebra.Proofs.Extension
import Mathlib.Data.List.Nodup
/-!
# Well-formed algebras

The algebras that can be made are those that pass the checks on additions, one operation and one law
at a time. So no name is given twice in them, and what a law applies is there and takes as many
agents as the law applies it to; that is kept by every addition.
-/

namespace AgentAlgebra

namespace Algebra

variable {m : Type → Type} {algebra extended further : Algebra m}

/-- No operation and no law shares its name with another, and the laws apply operations that are there
to as many agents as these take. -/
structure WellFormed (algebra : Algebra m) : Prop where
  operations : (algebra.operations.map Operation.name).Nodup
  laws : (algebra.laws.map Law.name).Nodup
  applications : ∀ law ∈ algebra.laws, ∀ application ∈ law.applications,
    algebra.fault? application = none

/-- An application is without fault if its operation is there and takes as many agents. -/
theorem fault?_eq_none {application : String × Nat} :
    algebra.fault? application = none ↔
      ∃ operation, algebra.operation? application.1 = some operation ∧
        operation.arity = application.2 := by
  unfold fault?
  cases found : algebra.operation? application.1 with
  | none => simp
  | some operation => simp

/-- An application that is without fault stays so where all operations are kept. -/
theorem Conserves.faultless {application : String × Nat} (kept : Conserves algebra extended)
    (before : algebra.fault? application = none) : extended.fault? application = none := by
  obtain ⟨operation, known, takes⟩ := fault?_eq_none.mp before
  exact fault?_eq_none.mpr ⟨operation, kept.operation known, takes⟩

theorem operation?_isSome {name : String} :
    (algebra.operation? name).isSome = true ↔ name ∈ algebra.operations.map Operation.name := by
  simp [operation?]

theorem law?_isSome {name : String} :
    (algebra.law? name).isSome = true ↔ name ∈ algebra.laws.map Law.name := by
  simp [law?]

/-- In a list without repeated names each member is found under its name. -/
theorem find?_of_mem {α : Type} {name : α → String} {members : List α} {member : α}
    (distinct : (members.map name).Nodup) (among : member ∈ members) :
    members.find? (name · == name member) = some member := by
  induction members with
  | nil => exact absurd among List.not_mem_nil
  | cons head rest ih =>
    rw [List.map_cons, List.nodup_cons] at distinct
    rcases List.mem_cons.mp among with rfl | later
    · simp
    · have other : name head ≠ name member := by
        intro same
        exact distinct.1 (same ▸ List.mem_map_of_mem later)
      rw [List.find?_cons_of_neg (by simpa using other)]
      exact ih distinct.2 later

namespace WellFormed

variable {operation : Operation m} {law : Law m}

theorem operation?_of_mem (wellFormed : algebra.WellFormed)
    (among : operation ∈ algebra.operations) :
    algebra.operation? operation.name = some operation :=
  find?_of_mem wellFormed.operations among

theorem law?_of_mem (wellFormed : algebra.WellFormed) (among : law ∈ algebra.laws) :
    algebra.law? law.name = some law :=
  find?_of_mem wellFormed.laws among

theorem empty (name : String) : WellFormed (⟨name, none, [], []⟩ : Algebra m) :=
  ⟨List.nodup_nil, List.nodup_nil, fun _ among => absurd among List.not_mem_nil⟩

theorem addOperation (wellFormed : algebra.WellFormed)
    (made : algebra.addOperation operation = .ok extended) : extended.WellFormed := by
  have kept := Conserves.addOperation made
  unfold Algebra.addOperation at made
  split at made
  · exact nomatch made
  · rename_i unused
    obtain rfl := Except.ok.inj made
    rw [operation?_isSome] at unused
    refine ⟨?_, wellFormed.laws, ?_⟩
    · rw [List.map_append, List.map_singleton]
      exact List.Nodup.append wellFormed.operations (List.nodup_singleton _)
        (List.disjoint_singleton.mpr unused)
    · intro law among application applied
      exact kept.faultless (wellFormed.applications law among application applied)

theorem addLaw (wellFormed : algebra.WellFormed)
    (made : algebra.addLaw law = .ok extended) : extended.WellFormed := by
  unfold Algebra.addLaw at made
  split at made
  · exact nomatch made
  · rename_i unused
    split at made
    · exact nomatch made
    · rename_i faultless
      obtain rfl := Except.ok.inj made
      rw [law?_isSome] at unused
      refine ⟨wellFormed.operations, ?_, ?_⟩
      · rw [List.map_append, List.map_singleton]
        exact List.Nodup.append wellFormed.laws (List.nodup_singleton _)
          (List.disjoint_singleton.mpr unused)
      · intro other among application applied
        rcases List.mem_append.mp among with before | added
        · exact wellFormed.applications other before application applied
        · obtain rfl := List.mem_singleton.mp added
          exact List.findSome?_eq_none_iff.mp faultless application applied

theorem add {operations : List (Operation m)} {laws : List (Law m)}
    (wellFormed : algebra.WellFormed) (made : algebra.add operations laws = .ok extended) :
    extended.WellFormed := by
  unfold Algebra.add at made
  obtain ⟨between, one, two⟩ := bind_eq_ok.mp made
  exact foldlM_keeps addLaw (foldlM_keeps addOperation wellFormed one) two

theorem extend {name : String} {operations : List (Operation m)} {laws : List (Law m)}
    (wellFormed : algebra.WellFormed)
    (made : algebra.extend name operations laws = .ok extended) : extended.WellFormed := by
  unfold Algebra.extend at made
  have kept : Conserves algebra { algebra with name, parent := some algebra.name } := ⟨id, id⟩
  have renamed : WellFormed { algebra with name, parent := some algebra.name } :=
    ⟨wellFormed.operations, wellFormed.laws, fun law among application applied =>
      kept.faultless (wellFormed.applications law among application applied)⟩
  exact renamed.add made

end WellFormed

/-- One algebra comes of another by extending it any number of times. -/
inductive Extends (algebra : Algebra m) : Algebra m → Prop
  | refl : Extends algebra algebra
  | extend {between extended : Algebra m} {name : String} {operations : List (Operation m)}
    {laws : List (Law m)} (before : Extends algebra between)
    (made : between.extend name operations laws = .ok extended) : Extends algebra extended

/-- However often an algebra is extended, it keeps what it has under each name. -/
theorem Extends.conserves (grown : Extends algebra extended) : Conserves algebra extended := by
  induction grown with
  | refl => exact .refl algebra
  | extend _ made ih => exact ih.trans (.extend made)

variable [Monad m]

/-- The algebras that can be made: the base algebra with any policy for `fix`, an algebra of
operations and laws of one's own, and whatever comes of extending one of these. -/
inductive Made : Algebra m → Prop
  | baseWith (policy : RetryPolicy m) : Made (baseWith policy)
  | ofParts {algebra : Algebra m} {name : String} {operations : List (Operation m)}
    {laws : List (Law m)} (made : ofParts name operations laws = .ok algebra) : Made algebra
  | extend {algebra extended : Algebra m} {name : String} {operations : List (Operation m)}
    {laws : List (Law m)} (before : Made algebra)
    (made : algebra.extend name operations laws = .ok extended) : Made extended

theorem FromBase.made (fromBase : FromBase algebra) : Made algebra := by
  induction fromBase with
  | baseWith policy => exact .baseWith policy
  | extend _ made ih => exact .extend ih made

theorem wellFormed_baseWith (policy : RetryPolicy m) : (baseWith policy).WellFormed where
  operations := by
    have names : (baseWith policy).operations.map Operation.name =
        ["seq", "par", "branch", "fix", "observe"] := rfl
    rw [names]
    decide
  laws := by
    have names : (baseWith policy).laws.map Law.name =
        ["seq_left_identity", "seq_right_identity", "seq_associativity", "par_symmetry",
          "branch_true", "observe_transparency"] := rfl
    rw [names]
    decide
  applications := by
    have seq : (baseWith policy).fault? ("seq", 2) = none := rfl
    have par : (baseWith policy).fault? ("par", 2) = none := rfl
    have branch : (baseWith policy).fault? ("branch", 3) = none := rfl
    have observe : (baseWith policy).fault? ("observe", 1) = none := rfl
    intro law among
    have among : law ∈ Law.base := among
    simp only [Law.base, List.mem_cons, List.not_mem_nil, or_false] at among
    rcases among with rfl | rfl | rfl | rfl | rfl | rfl
    all_goals
      simp [Law.applications, Expr.applications, Expr.applyTo, Expr.identity, seq, par, branch,
        observe]

/-- Whatever can be made is well-formed. -/
theorem Made.wellFormed (made : Made algebra) : algebra.WellFormed := by
  induction made with
  | baseWith policy => exact wellFormed_baseWith policy
  | ofParts made => exact (WellFormed.empty _).add made
  | extend _ made ih => exact ih.extend made

end Algebra

end AgentAlgebra
