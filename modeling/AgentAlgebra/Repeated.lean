/-!
# Repetitions

The first member of a list that equals one before it. A list without any is pairwise distinct.
-/

namespace AgentAlgebra

variable {α : Type} [BEq α]

/-- The first member that equals one before it, or one of those seen already. -/
def firstRepeatedAfter? (seen : List α) : List α → Option α
  | [] => none
  | a :: rest => if seen.contains a then some a else firstRepeatedAfter? (a :: seen) rest

/-- The first member that equals one before it. -/
def firstRepeated? (members : List α) : Option α := firstRepeatedAfter? [] members

theorem apart_of_firstRepeatedAfter?_eq_none {members seen : List α}
    (h : firstRepeatedAfter? seen members = none) :
    (∀ a ∈ members, ∀ b ∈ seen, (a == b) = false) ∧
      members.Pairwise fun a b => (b == a) = false := by
  induction members generalizing seen with
  | nil => simp
  | cons a rest ih =>
    simp only [firstRepeatedAfter?] at h
    split at h
    · simp at h
    · rename_i fresh
      obtain ⟨apart, distinct⟩ := ih h
      have fresh : ∀ b ∈ seen, (a == b) = false := by
        simpa [List.contains_iff_exists_mem_beq] using fresh
      refine ⟨fun c mem b held => ?_, List.pairwise_cons.mpr ⟨fun c mem => ?_, distinct⟩⟩
      · rcases List.mem_cons.mp mem with rfl | mem
        · exact fresh b held
        · exact apart c mem b (List.mem_cons_of_mem _ held)
      · exact apart c mem a List.mem_cons_self

theorem distinct_of_firstRepeated?_eq_none {members : List α} (h : firstRepeated? members = none) :
    members.Pairwise fun a b => (b == a) = false :=
  (apart_of_firstRepeatedAfter?_eq_none h).2

end AgentAlgebra
