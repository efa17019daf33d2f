import AgentAlgebra.Proofs.Intersections
import AgentAlgebra.Proofs.Runs
/-!
# Parallel agents do not interfere

Two agents side by side go each its own way: what the one does is no matter to the other, and which of
them stands first is no matter to either. The two orders intersect the legal inputs of the agents
differently, but to the same inputs; so where the one parallel agent moves the other does, with
outputs and positions mirrored.
-/

namespace AgentAlgebra

namespace Agent

variable {a b : Agent Id} {header : Header} {p q input : Value} {inputs : List Value} {out : Run}

/-- A move of a parallel agent is a move of each of its parts, and mirrored it is a move of the
parallel agent with its parts exchanged. -/
theorem step_parallel_mirrored {move : Step}
    (moved : ((parallel header a b).step (.pair p q) input).run = .ok move) (header' : Header) :
    ∃ one two, (a.step p input).run = .ok one ∧ (b.step q input).run = .ok two ∧
      ⟨.pair one.position two.position, .pair one.output two.output, one.stages ++ two.stages⟩ =
        move ∧
      ((parallel header' b a).step (.pair q p) input).run =
        .ok ⟨.pair two.position one.position, .pair two.output one.output,
          two.stages ++ one.stages⟩ := by
  obtain ⟨legal, one, movedLeft, two, movedRight, rfl⟩ := step_parallel.mp moved
  have known := isPosition_of_step movedLeft
  have known' := isPosition_of_step movedRight
  have legal' : ((parallel header' b a).directions (.pair q p)).contains input = true := by
    rw [directions_parallel known' known, Directions.contains_intersect_comm,
      ← directions_parallel known known']
    exact legal
  exact ⟨one, two, movedLeft, movedRight, rfl,
    step_parallel.mpr ⟨legal', two, movedRight, one, movedLeft, rfl⟩⟩

/-- A run of a parallel agent is a run of each of its parts, with the outputs in pairs, and mirrored it
is a run of the parallel agent with its parts exchanged. -/
theorem run_parallel_mirrored
    (ran : ((parallel header a b).run (.pair p q) inputs).run = .ok out) (header' : Header) :
    ∃ (p' q' : Value) (given : List (Value × Value)),
      (a.run p inputs).run = .ok ⟨p', given.map (·.1)⟩ ∧
      (b.run q inputs).run = .ok ⟨q', given.map (·.2)⟩ ∧
      ⟨.pair p' q', given.map fun pair => .pair pair.1 pair.2⟩ = out ∧
      ((parallel header' b a).run (.pair q p) inputs).run =
        .ok ⟨.pair q' p', given.map fun pair => .pair pair.2 pair.1⟩ := by
  induction inputs generalizing p q out with
  | nil =>
    obtain rfl := run_nil.mp ran
    exact ⟨p, q, [], rfl, rfl, rfl, rfl⟩
  | cons input inputs ih =>
    obtain ⟨move, moved, rest, followed, rfl⟩ := run_cons.mp ran
    obtain ⟨one, two, movedLeft, movedRight, rfl, mirrored⟩ := step_parallel_mirrored moved header'
    obtain ⟨p', q', given, left, right, rfl, followed'⟩ := ih followed
    exact ⟨p', q', (one.output, two.output) :: given, run_cons.mpr ⟨one, movedLeft, _, left, rfl⟩,
      run_cons.mpr ⟨two, movedRight, _, right, rfl⟩, rfl,
      run_cons.mpr ⟨_, mirrored, _, followed', rfl⟩⟩

/-- Two agents go together in parallel in one order exactly if they do in the other. Then from
mirrored positions and on the same inputs the one parallel agent runs exactly if the other does. Where
they run, each of the two agents runs on its own as well: the outputs of the one parallel agent are
the pairs of what the two give on their own, one pair for each input, and it ends at the pair of
their ends; the other gives and ends at the mirrored pairs. -/
theorem parallel_runs_mirrored (a b : Agent Id) :
    ((∃ both, a.inParallel b = .ok both) ↔ ∃ mirrored, b.inParallel a = .ok mirrored) ∧
    ∀ both mirrored, a.inParallel b = .ok both → b.inParallel a = .ok mirrored →
      ∀ p q inputs,
        ((∃ out, (both.run (.pair p q) inputs).run = .ok out) ↔
          ∃ out, (mirrored.run (.pair q p) inputs).run = .ok out) ∧
        ∀ out, (both.run (.pair p q) inputs).run = .ok out →
          ∃ (p' q' : Value) (given : List (Value × Value)),
            (a.run p inputs).run = .ok ⟨p', given.map (·.1)⟩ ∧
            (b.run q inputs).run = .ok ⟨q', given.map (·.2)⟩ ∧
            ⟨.pair p' q', given.map fun pair => .pair pair.1 pair.2⟩ = out ∧
            (mirrored.run (.pair q p) inputs).run =
              .ok ⟨.pair q' p', given.map fun pair => .pair pair.2 pair.1⟩ := by
  constructor
  · simp only [inParallel_eq_ok, ValueType.unify_comm a.input]
    constructor
    · rintro ⟨_, input, common, -⟩
      exact ⟨_, input, common, rfl⟩
    · rintro ⟨_, input, common, -⟩
      exact ⟨_, input, common, rfl⟩
  · intro both mirrored made madeMirrored p q inputs
    obtain ⟨input, -, rfl⟩ := inParallel_eq_ok.mp made
    obtain ⟨input', -, rfl⟩ := inParallel_eq_ok.mp madeMirrored
    refine ⟨⟨?_, ?_⟩, fun out ran => run_parallel_mirrored ran _⟩
    · rintro ⟨out, ran⟩
      obtain ⟨p', q', given, -, -, -, ran'⟩ := run_parallel_mirrored ran _
      exact ⟨_, ran'⟩
    · rintro ⟨out, ran⟩
      obtain ⟨q', p', given, -, -, -, ran'⟩ := run_parallel_mirrored ran _
      exact ⟨_, ran'⟩

/-- Takes only `true`, and gives back what it takes. -/
def strict : Draft Id where
  name := "strict"
  positions := [.null]
  directions := some fun _ => .finite [.bool true]
  transition := some fun position input => pure (position, input)

/-- A latch beside an agent with listed inputs: in either order the two take `true` again and again, and
never `false`. -/
theorem parallel_runs_mirrored_strict :
    ∃ left right both mirrored : Agent Id, strict.build = .ok left ∧ latch.build = .ok right ∧
      left.inParallel right = .ok both ∧ right.inParallel left = .ok mirrored ∧
      (both.run (.pair .null (.bool false)) [.bool true, .bool true]).run =
        .ok ⟨.pair .null (.bool true),
          [.pair (.bool true) (.bool false), .pair (.bool true) (.bool true)]⟩ ∧
      (∃ out, (mirrored.run (.pair (.bool false) .null) [.bool true, .bool true]).run = .ok out) ∧
      ¬ ∃ out, (mirrored.run (.pair (.bool false) .null) [.bool false]).run = .ok out := by
  obtain ⟨left, madeLeft⟩ : ∃ agent, strict.build = .ok agent := ⟨_, rfl⟩
  obtain ⟨right, madeRight⟩ : ∃ agent, latch.build = .ok agent := ⟨_, rfl⟩
  obtain ⟨both, made⟩ : ∃ both, left.inParallel right = .ok both := by
    cases madeLeft
    cases madeRight
    exact ⟨_, rfl⟩
  obtain ⟨composes, runs⟩ := parallel_runs_mirrored left right
  obtain ⟨mirrored, madeMirrored⟩ := composes.mp ⟨both, made⟩
  have ran : (both.run (.pair .null (.bool false)) [.bool true, .bool true]).run =
      .ok ⟨.pair .null (.bool true),
        [.pair (.bool true) (.bool false), .pair (.bool true) (.bool true)]⟩ := by
    cases madeLeft
    cases madeRight
    cases made
    rfl
  have refused : (both.run (.pair .null (.bool false)) [.bool false]).run =
      .error (.illegalInput "par(strict, latch)" (.pair .null (.bool false)) (.bool false)) := by
    cases madeLeft
    cases madeRight
    cases made
    rfl
  refine ⟨left, right, both, mirrored, madeLeft, madeRight, made, madeMirrored, ran, ?_, ?_⟩
  · exact (runs both mirrored made madeMirrored _ _ _).1.mp ⟨_, ran⟩
  · intro taken
    obtain ⟨out, ran'⟩ := (runs both mirrored made madeMirrored _ _ _).1.mpr taken
    exact nomatch refused.symm.trans ran'

end Agent

end AgentAlgebra
