import AgentAlgebra.Proofs.Construction
import AgentAlgebra.Proofs.Traces
/-!
# Sequences are associative

Three agents in sequence may be put together from the left or from the right. Either both ways are
refused or neither, and the two agents go the same way on the same inputs, failures included; only
the positions are paired differently. What each of the two checks on its own comes to no more than
what its parts check, so a step is made exactly if the three parts move one after the other.
-/

namespace AgentAlgebra

namespace Agent

/-- The first two agents in sequence, and then the third. -/
def sequenceLeft {m : Type → Type} (a b c : Agent m) : Except AlgebraError (Agent m) := do
  (← a.inSequence b).inSequence c

/-- The first agent, and then the last two in sequence. -/
def sequenceRight {m : Type → Type} (a b c : Agent m) : Except AlgebraError (Agent m) := do
  a.inSequence (← b.inSequence c)

section

variable {m : Type → Type} {a b c agent : Agent m}

theorem sequenceLeft_eq_ok :
    sequenceLeft a b c = .ok agent ↔
      (b.input.accepts a.output = true ∧ c.input.accepts b.output = true) ∧
        .sequence
          ⟨applied "seq" [applied "seq" [a.name, b.name], c.name], ⟨a.input, c.output⟩,
            .pair (.pair a.initial b.initial) c.initial⟩
          (.sequence ⟨applied "seq" [a.name, b.name], ⟨a.input, b.output⟩,
            .pair a.initial b.initial⟩ a b) c = agent := by
  unfold sequenceLeft
  simp only [bind_eq_ok, inSequence_eq_ok]
  constructor
  · rintro ⟨inner, ⟨fed, rfl⟩, fed', rfl⟩
    exact ⟨⟨fed, fed'⟩, rfl⟩
  · rintro ⟨⟨fed, fed'⟩, rfl⟩
    exact ⟨_, ⟨fed, rfl⟩, fed', rfl⟩

theorem sequenceRight_eq_ok :
    sequenceRight a b c = .ok agent ↔
      (b.input.accepts a.output = true ∧ c.input.accepts b.output = true) ∧
        .sequence
          ⟨applied "seq" [a.name, applied "seq" [b.name, c.name]], ⟨a.input, c.output⟩,
            .pair a.initial (.pair b.initial c.initial)⟩
          a (.sequence ⟨applied "seq" [b.name, c.name], ⟨b.input, c.output⟩,
            .pair b.initial c.initial⟩ b c) = agent := by
  unfold sequenceRight
  simp only [bind_eq_ok, inSequence_eq_ok]
  constructor
  · rintro ⟨inner, ⟨fed', rfl⟩, fed, rfl⟩
    exact ⟨⟨fed, fed'⟩, rfl⟩
  · rintro ⟨⟨fed, fed'⟩, rfl⟩
    exact ⟨_, ⟨fed', rfl⟩, fed, rfl⟩

end

/-- Positions of three agents, paired from the left and from the right. -/
def Regrouped (left right : Value) : Prop :=
  ∃ p q r, left = .pair (.pair p q) r ∧ right = .pair p (.pair q r)

variable {a b c : Agent Id} {outer inner outer' inner' : Header}

theorem mirrors_sequence_right :
    Mirrors Regrouped (sequence outer (sequence inner a b) c)
      (sequence outer' a (sequence inner' b c)) := by
  rintro _ _ ⟨p, q, r, rfl, rfl⟩ input move moved
  obtain ⟨ab, movedAB, three, third, rfl⟩ := step_sequence.mp moved
  obtain ⟨one, first, two, second, rfl⟩ := step_sequence.mp movedAB
  refine ⟨_, step_sequence.mpr ⟨one, first, _, step_sequence.mpr ⟨two, second, three, third, rfl⟩,
    rfl⟩, ⟨_, _, _, rfl, rfl⟩, ?_⟩
  simp [record, frontier]

theorem mirrors_sequence_left :
    Mirrors (fun right left => Regrouped left right) (sequence outer' a (sequence inner' b c))
      (sequence outer (sequence inner a b) c) := by
  rintro _ _ ⟨p, q, r, rfl, rfl⟩ input move moved
  obtain ⟨one, first, bc, movedBC, rfl⟩ := step_sequence.mp moved
  obtain ⟨two, second, three, third, rfl⟩ := step_sequence.mp movedBC
  refine ⟨_, step_sequence.mpr ⟨_, step_sequence.mpr ⟨one, first, two, second, rfl⟩, three, third,
    rfl⟩, ⟨_, _, _, rfl, rfl⟩, ?_⟩
  simp [record, frontier]

/-- Regrouped positions are positions alike. -/
theorem isPosition_regrouped {left right : Value} (regrouped : Regrouped left right) :
    (sequence outer (sequence inner a b) c).isPosition left = true ↔
      (sequence outer' a (sequence inner' b c)).isPosition right = true := by
  obtain ⟨p, q, r, rfl, rfl⟩ := regrouped
  simp [and_assoc]

theorem frontier_regrouped {left right : Value} (regrouped : Regrouped left right) :
    (sequence outer (sequence inner a b) c).frontier left =
      (sequence outer' a (sequence inner' b c)).frontier right := by
  obtain ⟨p, q, r, rfl, rfl⟩ := regrouped
  simp [frontier]

/-- Three agents go together in sequence from the left exactly if they do from the right, to the
same signature. Then the traces of the one agent from any three positions are those of the other:
they fail alike, each step gives the same by the same stages and leads to the same frontier, and
they end with the three parts where the others are. -/
theorem sequence_assoc (a b c : Agent Id) :
    ((∃ left, sequenceLeft a b c = .ok left) ↔ ∃ right, sequenceRight a b c = .ok right) ∧
    ∀ left right, sequenceLeft a b c = .ok left → sequenceRight a b c = .ok right →
      left.signature = right.signature ∧
      ∀ (p q r : Value) (inputs : List Value),
        ((∃ trace, (left.trace (.pair (.pair p q) r) inputs).run = .ok trace) ↔
          ∃ trace, (right.trace (.pair p (.pair q r)) inputs).run = .ok trace) ∧
        ∀ trace trace', (left.trace (.pair (.pair p q) r) inputs).run = .ok trace →
          (right.trace (.pair p (.pair q r)) inputs).run = .ok trace' →
            trace.steps = trace'.steps ∧ trace.finalFrontier = trace'.finalFrontier ∧
              ∃ p' q' r', trace.finalPosition = .pair (.pair p' q') r' ∧
                trace'.finalPosition = .pair p' (.pair q' r') := by
  constructor
  · simp only [sequenceLeft_eq_ok, sequenceRight_eq_ok, exists_and_left, exists_eq']
  · intro left right madeLeft madeRight
    obtain ⟨-, rfl⟩ := sequenceLeft_eq_ok.mp madeLeft
    obtain ⟨-, rfl⟩ := sequenceRight_eq_ok.mp madeRight
    refine ⟨?_, fun p q r inputs => ?_⟩
    · calc _ = Signature.mk a.input c.output := rfl
        _ = _ := rfl
    have start : Regrouped (.pair (.pair p q) r) (.pair p (.pair q r)) := ⟨p, q, r, rfl, rfl⟩
    refine ⟨⟨?_, ?_⟩, ?_⟩
    · rintro ⟨trace, traced⟩
      obtain ⟨trace', traced', -⟩ :=
        mirrors_sequence_right.trace start (isPosition_regrouped start).mp traced
      exact ⟨trace', traced'⟩
    · rintro ⟨trace, traced⟩
      obtain ⟨trace', traced', -⟩ :=
        mirrors_sequence_left.trace start (isPosition_regrouped start).mpr traced
      exact ⟨trace', traced'⟩
    · intro trace trace' traced traced'
      obtain ⟨same, found, steps, final⟩ :=
        mirrors_sequence_right.trace start (isPosition_regrouped start).mp traced
      obtain rfl : same = trace' := Except.ok.inj (found.symm.trans traced')
      refine ⟨steps, ?_, final⟩
      rw [finalFrontier_of_trace traced, finalFrontier_of_trace traced', frontier_regrouped final]

/-- Passing a pair on, exchanging its parts, and passing it on again. -/
theorem sequence_assoc_swap :
    ∃ left right : Agent Id, sequenceLeft (.id (.pair .any .any)) .swap (.id .any) = .ok left ∧
      sequenceRight (.id (.pair .any .any)) .swap (.id .any) = .ok right ∧
      left.signature = right.signature ∧
      ((∃ trace, (left.trace (.pair (.pair .null .null) .null) [.pair .null .null]).run =
          .ok trace) ↔
        ∃ trace, (right.trace (.pair .null (.pair .null .null)) [.pair .null .null]).run =
          .ok trace) := by
  obtain ⟨composes, alike⟩ := sequence_assoc (.id (.pair .any .any)) .swap (.id .any)
  obtain ⟨left, madeLeft⟩ : ∃ left : Agent Id,
      sequenceLeft (.id (.pair .any .any)) .swap (.id .any) = .ok left :=
    ⟨_, sequenceLeft_eq_ok.mpr ⟨⟨rfl, rfl⟩, rfl⟩⟩
  obtain ⟨right, madeRight⟩ := composes.mp ⟨left, madeLeft⟩
  obtain ⟨signature, traces⟩ := alike left right madeLeft madeRight
  exact ⟨left, right, madeLeft, madeRight, signature, (traces ..).1⟩

end Agent

end AgentAlgebra
