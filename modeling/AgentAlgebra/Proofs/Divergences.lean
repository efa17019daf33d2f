import AgentAlgebra.Verify.Divergence
import Mathlib.Data.List.Forall2
/-!
# When no divergence is found

Two steps are found the same if their outputs are equal, and their frontiers and stages where those
are compared; two traces of equally many steps, if their steps are found the same one by one.
-/

namespace AgentAlgebra

theorem Stage.beq_eq_true {s t : Stage} :
    (s == t) = true ↔ s.agent = t.agent ∧ (s.input == t.input) = true ∧
      (s.output == t.output) = true := by
  cases s
  cases t
  simp [BEq.beq, instBEqStage.beq]

/-- Two steps are equal in all that is compared: in the output, and in the frontier and the stages
where those count. -/
structure StepTrace.Matches (frontier stages : Bool) (l r : StepTrace) : Prop where
  output : (l.output == r.output) = true
  frontier : frontier = true → (l.frontier == r.frontier) = true
  stages : stages = true → (l.stages == r.stages) = true

namespace Divergence

variable {frontier stages : Bool} {n : Nat} {l r : StepTrace} {left right : List StepTrace}

theorem atStep?_eq_none :
    atStep? frontier stages n l r = none ↔ StepTrace.Matches frontier stages l r := by
  unfold atStep?
  constructor
  · intro unseen
    split at unseen
    · exact nomatch unseen
    · rename_i outputs
      split at unseen
      · exact nomatch unseen
      · rename_i frontiers
        split at unseen
        · exact nomatch unseen
        · rename_i moves
          exact ⟨by simpa [bne] using outputs, by simpa [bne] using frontiers, by simpa [bne] using moves⟩
  · rintro ⟨outputs, frontiers, moves⟩
    rw [if_neg (by simpa [bne] using outputs), if_neg (by simpa [bne] using frontiers),
      if_neg (by simpa [bne] using moves)]

theorem among?_cons_eq_none :
    among? frontier stages n (l :: left) (r :: right) = none ↔
      StepTrace.Matches frontier stages l r ∧
        among? frontier stages (n + 1) left right = none := by
  rw [← atStep?_eq_none (n := n), among?]
  cases atStep? frontier stages n l r with
  | none => simp
  | some divergence => simp

/-- No divergence is found in steps that are equally many exactly if they match one by one. -/
theorem among?_eq_none (same : left.length = right.length) :
    among? frontier stages n left right = none ↔
      List.Forall₂ (StepTrace.Matches frontier stages) left right := by
  induction left generalizing n right with
  | nil =>
    obtain rfl := List.length_eq_zero_iff.mp same.symm
    exact ⟨fun _ => .nil, fun _ => rfl⟩
  | cons l left ih =>
    obtain ⟨r, right, rfl⟩ := List.exists_cons_of_length_eq_add_one same.symm
    rw [among?_cons_eq_none, List.forall₂_cons, ih (Nat.succ.inj same)]

/-- A divergence is found at the first pair of steps that do not match. -/
theorem among?_eq_some {divergence : Divergence}
    (found : among? frontier stages n left right = some divergence) :
    ∃ (k : Nat) (l r : StepTrace), left[k]? = some l ∧ right[k]? = some r ∧
      atStep? frontier stages (n + k) l r = some divergence ∧
      List.Forall₂ (StepTrace.Matches frontier stages) (left.take k) (right.take k) := by
  induction left generalizing n right with
  | nil => exact nomatch found
  | cons l left ih =>
    cases right with
    | nil => exact nomatch found
    | cons r right =>
      rw [among?] at found
      cases here : atStep? frontier stages n l r with
      | some one =>
        rw [here] at found
        exact ⟨0, l, r, rfl, rfl, here.trans found, .nil⟩
      | none =>
        rw [here] at found
        obtain ⟨k, l', r', ofLeft, ofRight, there, before⟩ := ih found
        refine ⟨k + 1, l', r', ofLeft, ofRight, ?_, .cons (atStep?_eq_none.mp here) before⟩
        rwa [Nat.add_right_comm, Nat.add_assoc] at there

/-- Where outputs alone are compared, what differs is an output. -/
theorem atStep?_outputs {divergence : Divergence}
    (found : atStep? false false n l r = some divergence) :
    (l.output == r.output) = false ∧
      divergence = ⟨n, .output, (firstStageDifference? l r).map (·.1),
        (firstStageDifference? l r).map (·.2), l.output, r.output⟩ := by
  unfold atStep? at found
  split at found
  · rename_i differ
    exact ⟨by simpa [bne] using differ, (Option.some.inj found).symm⟩
  · exact nomatch found

end Divergence

end AgentAlgebra
