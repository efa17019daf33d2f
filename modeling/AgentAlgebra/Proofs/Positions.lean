import AgentAlgebra.Proofs.Construction
import AgentAlgebra.Proofs.Steps
/-!
# The list of positions, and where agents start

An agent lists its positions and tells of any value whether it is one. For a composite the list is
made of the lists of its parts and the test takes the value apart; both come to the same, and the list
repeats nothing. Every agent that can be made starts at one of its positions: a draft is held to that,
a new start is checked, and what is put together starts where its parts start.
-/

namespace AgentAlgebra

namespace Agent

variable {m : Type → Type} {agent : Agent m}

/-- No two values in a list are equal. -/
def Apart (values : List Value) : Prop := values.Pairwise fun p q => (q == p) = false

/-- Rows that are made for values apart, each without repetitions, are apart together, if what two
rows have in common comes of equal values. -/
theorem Apart.flatMap {values : List Value} {row : Value → List Value} (apart : Apart values)
    (within : ∀ p ∈ values, Apart (row p))
    (told : ∀ {p q x y}, x ∈ row p → y ∈ row q → (y == x) = true → (q == p) = true) :
    Apart (values.flatMap row) := by
  rw [Apart, List.pairwise_flatMap]
  refine ⟨within, apart.imp fun {p q} other x inRow y inRow' => ?_⟩
  rw [Bool.eq_false_iff] at other ⊢
  exact fun same => other (told inRow inRow' same)

theorem Apart.map {values : List Value} {place : Value → Value} (apart : Apart values)
    (told : ∀ {p q}, (place q == place p) = true → (q == p) = true) :
    Apart (values.map place) := by
  rw [Apart, List.pairwise_map]
  refine apart.imp fun {p q} other => ?_
  rw [Bool.eq_false_iff] at other ⊢
  exact fun same => other (told same)

theorem positions_ne_nil (agent : Agent m) : agent.positions ≠ [] := by
  induction agent with
  | primitive header machine => exact machine.nonempty
  | identity header => exact List.cons_ne_nil _ _
  | sequence header a b one two | parallel header a b one two | fix header a b policy one two =>
    obtain ⟨p, first⟩ := List.exists_mem_of_ne_nil _ one
    obtain ⟨q, second⟩ := List.exists_mem_of_ne_nil _ two
    have listed : Value.pair p q ∈ (sequence header a b).positions :=
      List.mem_flatMap.mpr ⟨p, first, List.mem_map.mpr ⟨q, second, rfl⟩⟩
    exact List.ne_nil_of_mem listed
  | branch header a b c one two three =>
    obtain ⟨p, first⟩ := List.exists_mem_of_ne_nil _ one
    obtain ⟨q, second⟩ := List.exists_mem_of_ne_nil _ two
    obtain ⟨r, third⟩ := List.exists_mem_of_ne_nil _ three
    have listed : Value.triple p q r ∈ (branch header a b c).positions :=
      List.mem_flatMap.mpr ⟨p, first, List.mem_flatMap.mpr ⟨q, second, List.mem_map.mpr
        ⟨r, third, rfl⟩⟩⟩
    exact List.ne_nil_of_mem listed
  | observe header inner ih => exact ih

/-- The list of positions repeats nothing: a pair tells of which positions it is. -/
theorem apart_positions (agent : Agent m) : Apart agent.positions := by
  induction agent with
  | primitive header machine => exact machine.distinct
  | identity header => exact List.pairwise_singleton _ _
  | sequence header a b one two | parallel header a b one two | fix header a b policy one two =>
    have apart : Apart (sequence header a b).positions := by
      refine one.flatMap (fun p _ => two.map fun same => (Value.pair_beq_pair.mp same).2) ?_
      intro p q x y inRow inRow' same
      obtain ⟨_, -, rfl⟩ := List.mem_map.mp inRow
      obtain ⟨_, -, rfl⟩ := List.mem_map.mp inRow'
      exact (Value.pair_beq_pair.mp same).1
    exact apart
  | branch header a b c one two three =>
    refine one.flatMap (fun p _ => ?_) ?_
    · refine two.flatMap (fun q _ => three.map fun same => (Value.triple_beq_triple.mp same).2.2) ?_
      intro q q' x y inRow inRow' same
      obtain ⟨_, -, rfl⟩ := List.mem_map.mp inRow
      obtain ⟨_, -, rfl⟩ := List.mem_map.mp inRow'
      exact (Value.triple_beq_triple.mp same).2.1
    · intro p p' x y inRow inRow' same
      simp only [List.mem_flatMap, List.mem_map] at inRow inRow'
      obtain ⟨_, -, _, -, rfl⟩ := inRow
      obtain ⟨_, -, _, -, rfl⟩ := inRow'
      exact (Value.triple_beq_triple.mp same).1
  | observe header inner ih => exact ih

/-- The list of positions and the test for them agree on every value. -/
theorem contains_positions (agent : Agent m) (value : Value) :
    agent.positions.contains value = agent.isPosition value := by
  induction agent generalizing value with
  | primitive header machine => rfl
  | identity header => cases value <;> rfl
  | sequence header a b one two | parallel header a b one two | fix header a b policy one two =>
    have agree : (sequence header a b).positions.contains value =
        (sequence header a b).isPosition value := by
      rw [Bool.eq_iff_iff, isPosition_sequence_iff, List.contains_iff_exists_mem_beq]
      simp only [positions, List.mem_flatMap, List.mem_map, ← one, ← two,
        List.contains_iff_exists_mem_beq]
      constructor
      · rintro ⟨_, ⟨p, first, q, second, rfl⟩, same⟩
        obtain ⟨p', q', rfl, same, same'⟩ := Value.beq_pair.mp same
        exact ⟨p', q', rfl, ⟨p, first, same⟩, q, second, same'⟩
      · rintro ⟨p', q', rfl, ⟨p, first, same⟩, q, second, same'⟩
        exact ⟨_, ⟨p, first, q, second, rfl⟩, Value.beq_pair.mpr ⟨p', q', rfl, same, same'⟩⟩
    exact agree
  | branch header a b c one two three =>
    rw [Bool.eq_iff_iff, isPosition_branch_iff, List.contains_iff_exists_mem_beq]
    simp only [positions, List.mem_flatMap, List.mem_map, ← one, ← two, ← three,
      List.contains_iff_exists_mem_beq]
    constructor
    · rintro ⟨_, ⟨p, first, q, second, r, third, rfl⟩, same⟩
      obtain ⟨p', q', r', rfl, same, same', same''⟩ := Value.beq_triple.mp same
      exact ⟨p', q', r', rfl, ⟨p, first, same⟩, ⟨q, second, same'⟩, r, third, same''⟩
    · rintro ⟨p', q', r', rfl, ⟨p, first, same⟩, ⟨q, second, same'⟩, r, third, same''⟩
      exact ⟨_, ⟨p, first, q, second, r, third, rfl⟩,
        Value.beq_triple.mpr ⟨p', q', r', rfl, same, same', same''⟩⟩
  | observe header inner ih => exact ih value

/-- Another header leaves the positions alone. -/
@[simp]
theorem isPosition_withHeader (header : Header) (position : Value) :
    (agent.withHeader header).isPosition position = agent.isPosition position := by
  cases agent <;> rfl

@[simp]
theorem initial_withHeader (header : Header) : (agent.withHeader header).initial = header.initial := by
  simp [initial]

/-- The start of a draft that passes its checks is one of its positions. -/
theorem isPosition_initial_of_build {draft : Draft m} (made : draft.build = .ok agent) :
    agent.isPosition agent.initial = true := by
  unfold Draft.build at made
  split at made
  · cases made
  · split at made
    · cases made
    · dsimp only at made
      split at made
      · rename_i within
        split at made
        · cases made
        · obtain rfl := Except.ok.inj made
          exact within
      · cases made

/-- Agents that can be made start at a position. -/
theorem Built.isPosition_initial [Monad m] (built : Built agent) :
    agent.isPosition agent.initial = true := by
  induction built with
  | id type => rfl
  | stateless name signature output => rfl
  | draft made => exact isPosition_initial_of_build made
  | withName _ name ih =>
    rw [Agent.withName, isPosition_withHeader, initial_withHeader]
    exact ih
  | startingAt _ made ih =>
    obtain ⟨known, rfl⟩ := startingAt_eq_ok.mp made
    rw [isPosition_withHeader, initial_withHeader]
    exact known
  | sequence _ _ made one two =>
    obtain ⟨-, rfl⟩ := inSequence_eq_ok.mp made
    exact isPosition_sequence_iff.mpr ⟨_, _, rfl, one, two⟩
  | parallel _ _ made one two =>
    obtain ⟨_, -, rfl⟩ := inParallel_eq_ok.mp made
    exact isPosition_parallel_iff.mpr ⟨_, _, rfl, one, two⟩
  | branch _ _ _ made one two three =>
    obtain ⟨-, _, -, _, -, _, -, rfl⟩ := branching_eq_ok.mp made
    exact isPosition_branch_iff.mpr ⟨_, _, _, rfl, one, two, three⟩
  | fix _ _ policy made one two =>
    obtain ⟨-, -, rfl⟩ := retrying_eq_ok.mp made
    exact isPosition_fix_iff.mpr ⟨_, _, rfl, one, two⟩
  | observe _ ih => exact isPosition_observe.trans ih

/-- Of every agent that can be made, moved ones and composites of moved ones included: there are
positions, the list of them repeats none, it holds exactly the values that the test for positions
accepts, and the start is among them. -/
theorem positions_exact_of_built [Monad m] (built : Built agent) :
    agent.positions ≠ [] ∧ agent.positions.Pairwise (fun p q => (q == p) = false) ∧
      (∀ value, agent.positions.contains value = true ↔ agent.isPosition value = true) ∧
      agent.positions.contains agent.initial = true := by
  refine ⟨positions_ne_nil agent, apart_positions agent, fun value => ?_, ?_⟩
  · rw [contains_positions]
  · rw [contains_positions]
    exact built.isPosition_initial

/-- A lamp that each input turns on or off. -/
def lamp : Draft Id where
  name := "lamp"
  positions := [.bool false, .bool true]
  transition := some fun position input => pure (.bool (position == .bool false), input)

/-- Two lamps on one input, of which the second was on when they were put together. -/
theorem positions_exact_of_built_lamps :
    ∃ off on both : Agent Id, lamp.build = .ok off ∧ off.startingAt (.bool true) = .ok on ∧
      off.inParallel on = .ok both ∧ both.Built ∧
      both.positions = [.pair (.bool false) (.bool false), .pair (.bool false) (.bool true),
        .pair (.bool true) (.bool false), .pair (.bool true) (.bool true)] ∧
      both.initial = .pair (.bool false) (.bool true) ∧
      both.positions.contains both.initial = true := by
  obtain ⟨off, made⟩ : ∃ off, lamp.build = .ok off := ⟨_, rfl⟩
  obtain ⟨on, moved⟩ : ∃ on, off.startingAt (.bool true) = .ok on := by
    cases made
    exact ⟨_, rfl⟩
  obtain ⟨both, beside⟩ : ∃ both, off.inParallel on = .ok both := by
    cases made
    cases moved
    exact ⟨_, rfl⟩
  have built : both.Built := .parallel (.draft made) (.startingAt (.draft made) moved) beside
  obtain ⟨-, -, -, starts⟩ := positions_exact_of_built built
  refine ⟨off, on, both, made, moved, beside, built, ?_, ?_, starts⟩
  all_goals
    cases made
    cases moved
    cases beside
    rfl

end Agent

end AgentAlgebra
