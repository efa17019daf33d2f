import AgentAlgebra.Proofs.Construction
import AgentAlgebra.Proofs.Movement
/-!
# Equivalent agents

Two pure agents are equivalent if they have the same signature and a relation between their
positions, which relates their starts, is a bisimulation: at related positions the same inputs are
legal, and on every input either both fail or both give the same and come to related positions. The
names of agents and of their stages play no part in it, so observing is left out here: what an
observer reports names the agent and its positions.

Putting equivalent agents together gives equivalent agents. For each operation that is one step
lemma, by which the composites follow each other from paired positions; for `fix` the step is an
induction on the tries. Nested operations follow by induction on the context.
-/

namespace AgentAlgebra

namespace Agent

/-- Two results of a move: both are errors, or both moved, gave the same and came to related
positions. -/
inductive MovesAlike (related : Value → Value → Prop) :
    Except StepError Step → Except StepError Step → Prop
  | failed (e e' : StepError) : MovesAlike related (.error e) (.error e')
  | moved {move move' : Step} (output : move.output = move'.output)
    (next : related move.position move'.position) : MovesAlike related (.ok move) (.ok move')

/-- A relation between the positions of two agents, at which they take the same inputs and move
alike. -/
structure Bisimulation (related : Value → Value → Prop) (left right : Agent Id) : Prop where
  known : ∀ {p q}, related p q → left.isPosition p = true ∧ right.isPosition q = true
  directions : ∀ {p q}, related p q → left.directions p = right.directions q
  step : ∀ {p q}, related p q → ∀ input,
    MovesAlike related (left.step p input).run (right.step q input).run

/-- Two agents of one signature that behave the same from their starts on. -/
def Equivalent (left right : Agent Id) : Prop :=
  left.signature = right.signature ∧
    ∃ related, related left.initial right.initial ∧ Bisimulation related left right

/-- Whatever the one agent does, the other does from a related position, gives the same and comes to
a related position. -/
def Follows (related : Value → Value → Prop) (step step' : Value → Value → ExceptT StepError Id Step) :
    Prop :=
  ∀ {p q}, related p q → ∀ {input move}, (step p input).run = .ok move →
    ∃ move', (step' q input).run = .ok move' ∧ move.output = move'.output ∧
      related move.position move'.position

namespace Bisimulation

variable {related : Value → Value → Prop} {left right : Agent Id}

theorem follows (bisimulation : Bisimulation related left right) :
    Follows related left.step right.step := by
  intro p q start input move moved
  have alike := bisimulation.step start input
  rw [moved] at alike
  cases same : (right.step q input).run with
  | error e =>
    rw [same] at alike
    exact nomatch alike
  | ok move' =>
    rw [same] at alike
    cases alike with
    | moved output next => exact ⟨move', rfl, output, next⟩

theorem symm (bisimulation : Bisimulation related left right) :
    Bisimulation (flip related) right left where
  known := fun start => (bisimulation.known start).symm
  directions := fun start => (bisimulation.directions start).symm
  step := by
    intro p q start input
    have alike := bisimulation.step start input
    generalize (left.step q input).run = result at alike ⊢
    generalize (right.step p input).run = result' at alike ⊢
    cases alike with
    | failed e e' => exact .failed e' e
    | moved output next => exact .moved output.symm next

/-- Agents that follow each other move alike. -/
theorem of_follows
    (known : ∀ {p q}, related p q → left.isPosition p = true ∧ right.isPosition q = true)
    (directions : ∀ {p q}, related p q → left.directions p = right.directions q)
    (forward : Follows related left.step right.step)
    (backward : Follows (flip related) right.step left.step) : Bisimulation related left right where
  known := known
  directions := directions
  step := by
    intro p q start input
    cases moved : (left.step p input).run with
    | ok move =>
      obtain ⟨move', moved', output, next⟩ := forward start moved
      rw [moved']
      exact .moved output next
    | error e =>
      cases moved' : (right.step q input).run with
      | error e' => exact .failed e e'
      | ok move' =>
        obtain ⟨move, impossible, -⟩ := backward start moved'
        exact nomatch moved.symm.trans impossible

end Bisimulation

/-- Pairs of related positions. -/
def Paired (first second : Value → Value → Prop) (left right : Value) : Prop :=
  ∃ p q p' q', left = .pair p q ∧ right = .pair p' q' ∧ first p p' ∧ second q q'

/-- Triples of related positions. -/
def Tripled (first second third : Value → Value → Prop) (left right : Value) : Prop :=
  ∃ p q r p' q' r', left = .triple p q r ∧ right = .triple p' q' r' ∧ first p p' ∧ second q q' ∧
    third r r'

section

variable {r s t : Value → Value → Prop}

theorem flip_paired : flip (Paired r s) = Paired (flip r) (flip s) := by
  funext left right
  refine propext ⟨?_, ?_⟩
  · rintro ⟨p, q, p', q', rfl, rfl, one, two⟩
    exact ⟨p', q', p, q, rfl, rfl, one, two⟩
  · rintro ⟨p, q, p', q', rfl, rfl, one, two⟩
    exact ⟨p', q', p, q, rfl, rfl, one, two⟩

theorem flip_tripled : flip (Tripled r s t) = Tripled (flip r) (flip s) (flip t) := by
  funext left right
  refine propext ⟨?_, ?_⟩
  · rintro ⟨p, q, u, p', q', u', rfl, rfl, one, two, three⟩
    exact ⟨p', q', u', p, q, u, rfl, rfl, one, two, three⟩
  · rintro ⟨p, q, u, p', q', u', rfl, rfl, one, two, three⟩
    exact ⟨p', q', u', p, q, u, rfl, rfl, one, two, three⟩

variable {a a' b b' c c' : Agent Id} {header header' : Header} {policy : RetryPolicy Id}
  {left right : Value}

/-- Of three ways to combine two agents the positions are the same, the pairs of positions of both.
-/
theorem known_paired (header header' : Header) (one : Bisimulation r a a')
    (two : Bisimulation s b b') (start : Paired r s left right) :
    (sequence header a b).isPosition left = true ∧
      (sequence header' a' b').isPosition right = true := by
  obtain ⟨p, q, p', q', rfl, rfl, first, second⟩ := start
  obtain ⟨known, known'⟩ := one.known first
  obtain ⟨knownSecond, knownSecond'⟩ := two.known second
  rw [isPosition_sequence, isPosition_sequence, known, known', knownSecond, knownSecond']
  exact ⟨rfl, rfl⟩

theorem follows_sequence (one : Bisimulation r a a') (two : Bisimulation s b b') :
    Follows (Paired r s) (sequence header a b).step (sequence header' a' b').step := by
  rintro _ _ ⟨p, q, p', q', rfl, rfl, first, second⟩ input move moved
  obtain ⟨given, movedFirst, taken, movedSecond, rfl⟩ := step_sequence.mp moved
  obtain ⟨given', movedFirst', same, next⟩ := one.follows first movedFirst
  obtain ⟨taken', movedSecond', same', next'⟩ := two.follows second movedSecond
  rw [same] at movedSecond'
  exact ⟨_, step_sequence.mpr ⟨given', movedFirst', taken', movedSecond', rfl⟩, same',
    _, _, _, _, rfl, rfl, next, next'⟩

theorem Bisimulation.sequence (one : Bisimulation r a a') (two : Bisimulation s b b') :
    Bisimulation (Paired r s) (sequence header a b) (sequence header' a' b') := by
  refine .of_follows (known_paired header header' one two) ?_ (follows_sequence one two) ?_
  · rintro _ _ ⟨p, q, p', q', rfl, rfl, first, second⟩
    rw [directions_sequence (one.known first).1 (two.known second).1,
      directions_sequence (one.known first).2 (two.known second).2, one.directions first]
  · rw [flip_paired]
    exact follows_sequence one.symm two.symm

theorem directions_parallel_paired (one : Bisimulation r a a') (two : Bisimulation s b b')
    (start : Paired r s left right) :
    (parallel header a b).directions left = (parallel header' a' b').directions right := by
  obtain ⟨p, q, p', q', rfl, rfl, first, second⟩ := start
  rw [directions_parallel (one.known first).1 (two.known second).1,
    directions_parallel (one.known first).2 (two.known second).2, one.directions first,
    two.directions second]

theorem follows_parallel (one : Bisimulation r a a') (two : Bisimulation s b b') :
    Follows (Paired r s) (parallel header a b).step (parallel header' a' b').step := by
  intro left right start input move moved
  have legal := legal_of_step moved
  rw [directions_parallel_paired one two start] at legal
  obtain ⟨p, q, p', q', rfl, rfl, first, second⟩ := start
  obtain ⟨-, given, movedLeft, taken, movedRight, rfl⟩ := step_parallel.mp moved
  obtain ⟨given', movedLeft', same, next⟩ := one.follows first movedLeft
  obtain ⟨taken', movedRight', same', next'⟩ := two.follows second movedRight
  refine ⟨_, step_parallel.mpr ⟨legal, given', movedLeft', taken', movedRight', rfl⟩, ?_,
    _, _, _, _, rfl, rfl, next, next'⟩
  rw [same, same']

theorem Bisimulation.parallel (one : Bisimulation r a a') (two : Bisimulation s b b') :
    Bisimulation (Paired r s) (parallel header a b) (parallel header' a' b') := by
  refine .of_follows (known_paired header header' one two) (directions_parallel_paired one two)
    (follows_parallel one two) ?_
  rw [flip_paired]
  exact follows_parallel one.symm two.symm

theorem directions_branch_tripled (one : Bisimulation r a a') (two : Bisimulation s b b')
    (three : Bisimulation t c c') (start : Tripled r s t left right) :
    (branch header a b c).directions left = (branch header' a' b' c').directions right := by
  obtain ⟨p, q, u, p', q', u', rfl, rfl, first, second, third⟩ := start
  rw [directions_branch (one.known first).1 (two.known second).1 (three.known third).1,
    directions_branch (one.known first).2 (two.known second).2 (three.known third).2,
    one.directions first, two.directions second, three.directions third]

/-- The predicates of two branches choose the same arm, and the arms not chosen stay related. -/
theorem follows_branch (one : Bisimulation r a a') (two : Bisimulation s b b')
    (three : Bisimulation t c c') :
    Follows (Tripled r s t) (branch header a b c).step (branch header' a' b' c').step := by
  intro left right start input move moved
  have legal := legal_of_step moved
  rw [directions_branch_tripled one two three start] at legal
  obtain ⟨p, q, u, p', q', u', rfl, rfl, first, second, third⟩ := start
  obtain ⟨-, judged, asked, chosen⟩ := step_branch.mp moved
  obtain ⟨judged', asked', same, next⟩ := one.follows first asked
  rw [same] at chosen
  rcases chosen with ⟨given, taken, movedArm, rfl⟩ | ⟨given, taken, movedArm, rfl⟩
  · obtain ⟨taken', movedArm', same', next'⟩ := two.follows second movedArm
    exact ⟨_, step_branch.mpr ⟨legal, judged', asked', .inl ⟨given, taken', movedArm', rfl⟩⟩, same',
      _, _, _, _, _, _, rfl, rfl, next, next', third⟩
  · obtain ⟨taken', movedArm', same', next'⟩ := three.follows third movedArm
    exact ⟨_, step_branch.mpr ⟨legal, judged', asked', .inr ⟨given, taken', movedArm', rfl⟩⟩, same',
      _, _, _, _, _, _, rfl, rfl, next, second, next'⟩

theorem Bisimulation.branch (one : Bisimulation r a a') (two : Bisimulation s b b')
    (three : Bisimulation t c c') :
    Bisimulation (Tripled r s t) (branch header a b c) (branch header' a' b' c') := by
  refine .of_follows ?_ (directions_branch_tripled one two three) (follows_branch one two three) ?_
  · rintro _ _ ⟨p, q, u, p', q', u', rfl, rfl, first, second, third⟩
    simp [one.known first, two.known second, three.known third]
  · rw [flip_tripled]
    exact follows_branch one.symm two.symm three.symm

/-- One try of two bodies and predicates that follow each other: the outputs are the same, and the
parts come to related positions. -/
theorem follows_try {judge judge' act act' : Value → Value → ExceptT StepError Id Step}
    (judges : Follows r judge judge') (acts : Follows s act act') {p q p' q' input : Value}
    {produced judged : Step} (first : r p p') (second : s q q')
    (acted : (act q input).run = .ok produced)
    (asked : (judge p produced.output).run = .ok judged) :
    ∃ produced' judged', (act' q' input).run = .ok produced' ∧
      (judge' p' produced'.output).run = .ok judged' ∧ produced.output = produced'.output ∧
        judged.output = judged'.output ∧ r judged.position judged'.position ∧
          s produced.position produced'.position := by
  obtain ⟨produced', acted', same, next'⟩ := acts second acted
  rw [same] at asked
  obtain ⟨judged', asked', same', next⟩ := judges first asked
  exact ⟨produced', judged', acted', asked', same, same', next, next'⟩

/-- Two retries with one policy make the same tries: after each the parts are at related positions,
the outputs are the same, and so is the input that the policy makes of them. -/
theorem follows_retry {name name' : String}
    {judge judge' act act' : Value → Value → ExceptT StepError Id Step}
    {refine : Value → Value → Id Value} (judges : Follows r judge judge') (acts : Follows s act act')
    {remaining attempts : Nat} {p q p' q' input : Value} {before before' : List Stage} {move : Step}
    (first : r p p') (second : s q q')
    (made : (retry name judge act refine remaining attempts p q input before).run = .ok move) :
    ∃ move', (retry name' judge' act' refine remaining attempts p' q' input before').run =
        .ok move' ∧
      move.output = move'.output ∧ Paired r s move.position move'.position := by
  induction remaining generalizing attempts p q p' q' input before before' with
  | zero =>
    obtain ⟨produced, acted, judged, asked, holds, given, made⟩ := retry_eq_ok.mp made
    obtain ⟨produced', judged', acted', asked', same, same', next, next'⟩ :=
      follows_try judges acts first second acted asked
    rw [same'] at given
    rw [run_retry acted' asked' given]
    cases holds with
    | true =>
      obtain rfl := Except.ok.inj made
      exact ⟨_, rfl, by simp [finished, same], _, _, _, _, rfl, rfl, next, next'⟩
    | false =>
      obtain rfl := Except.ok.inj made
      exact ⟨_, rfl, by simp [finished, same], _, _, _, _, rfl, rfl, next, next'⟩
  | succ remaining ih =>
    obtain ⟨produced, acted, judged, asked, holds, given, made⟩ := retry_eq_ok.mp made
    obtain ⟨produced', judged', acted', asked', same, same', next, next'⟩ :=
      follows_try judges acts first second acted asked
    rw [same'] at given
    rw [run_retry acted' asked' given]
    cases holds with
    | true =>
      obtain rfl := Except.ok.inj made
      exact ⟨_, rfl, by simp [finished, same], _, _, _, _, rfl, rfl, next, next'⟩
    | false =>
      rw [same] at made
      exact ih next next' made

theorem directions_fix_paired (one : Bisimulation r a a') (two : Bisimulation s b b')
    (start : Paired r s left right) :
    (fix header a b policy).directions left = (fix header' a' b' policy).directions right := by
  obtain ⟨p, q, p', q', rfl, rfl, first, second⟩ := start
  rw [directions_fix (one.known first).1 (two.known second).1,
    directions_fix (one.known first).2 (two.known second).2, two.directions second]

theorem follows_fix (one : Bisimulation r a a') (two : Bisimulation s b b') :
    Follows (Paired r s) (fix header a b policy).step (fix header' a' b' policy).step := by
  intro left right start input move moved
  have legal := legal_of_step moved
  rw [directions_fix_paired one two start] at legal
  obtain ⟨p, q, p', q', rfl, rfl, first, second⟩ := start
  obtain ⟨-, made⟩ := step_fix.mp moved
  obtain ⟨move', made', same, next⟩ := follows_retry one.follows two.follows first second made
  exact ⟨move', step_fix.mpr ⟨legal, made'⟩, same, next⟩

theorem Bisimulation.fix (one : Bisimulation r a a') (two : Bisimulation s b b') :
    Bisimulation (Paired r s) (fix header a b policy) (fix header' a' b' policy) := by
  refine .of_follows (known_paired header header' one two) (directions_fix_paired one two)
    (follows_fix one two) ?_
  rw [flip_paired]
  exact follows_fix one.symm two.symm

end

/-- A position, related to itself. -/
def Stays (agent : Agent Id) (p q : Value) : Prop := p = q ∧ agent.isPosition p = true

theorem flip_stays (agent : Agent Id) : flip agent.Stays = agent.Stays := by
  funext p q
  refine propext ⟨?_, ?_⟩
  · rintro ⟨rfl, known⟩
    exact ⟨rfl, known⟩
  · rintro ⟨rfl, known⟩
    exact ⟨rfl, known⟩

/-- Every agent moves as itself, and its moves lead from positions to positions. -/
theorem bisimulation_stays (agent : Agent Id) : Bisimulation agent.Stays agent agent := by
  have follows : Follows agent.Stays agent.step agent.step := by
    rintro p _ ⟨rfl, -⟩ input move moved
    exact ⟨move, moved, rfl, rfl, isPosition_of_moved moved⟩
  refine .of_follows ?_ ?_ follows (flip_stays agent ▸ follows)
  · rintro p _ ⟨rfl, known⟩
    exact ⟨known, known⟩
  · rintro p _ ⟨rfl, -⟩
    rfl

end Agent

end AgentAlgebra
