import AgentAlgebra.Agent.Draft
import AgentAlgebra.Agent.Trace
import AgentAlgebra.Proofs.Effects
import AgentAlgebra.Proofs.Steps
/-!
# Agents keep to their positions

Only primitive agents look at where a transition leads. What a composite puts together from the
positions of its parts is one of its positions again, so from a position an agent never gets to a
value that is none, whatever its functions do and however often it moves. The parts of a composite
are therefore only ever asked at positions of theirs: that a position is unknown can be said of the
agent that was asked itself, before it does anything, and of nothing else.
-/

namespace AgentAlgebra

/-- The error is another than that a position is unknown. -/
def StepError.PositionKnown (error : StepError) : Prop :=
  ∀ agent position, error ≠ .unknownPosition agent position

namespace Agent

variable {m : Type → Type} [Monad m] {agent predicate body : Agent m} {position p q input : Value}

/-- Wherever the agent moves to from this position on this input, it is at one of its positions; and
if it does not move, that is not because a position is unknown. -/
def KeepsFrom (agent : Agent m) (position input : Value) : Prop :=
  Yields (agent.step position input) (fun move => agent.isPosition move.position = true)
    StepError.PositionKnown

section

variable [LawfulMonad m]

theorem yields_require (known : agent.isPosition position = true) (input : Value) :
    Yields (agent.require position input) (fun _ => True) StepError.PositionKnown := by
  unfold require
  rw [if_pos known]
  split
  · exact .pure trivial
  · exact .throw nofun

theorem yields_verdict (name : String) (output : Value) :
    Yields (verdict name output : ExceptT StepError m Bool) (fun _ => True)
      StepError.PositionKnown := by
  unfold verdict
  split
  · exact .pure trivial
  · exact .throw nofun

/-- A machine is held to its positions, so wherever it was it is then at one of them. -/
theorem yields_machine (machine : Machine m) (header : Header) (position input : Value) :
    Yields (machine.step header position input)
      (fun move => machine.positions.contains move.position = true) StepError.PositionKnown := by
  unfold Machine.step
  refine .bind (.lift _) fun made _ => ?_
  obtain ⟨next, output⟩ := made
  dsimp only
  split
  · rename_i within
    split
    · exact .pure within
    · exact .throw nofun
  · exact .throw nofun

/-- However often is tried, both parts are at positions of theirs before and after. -/
theorem yields_retry (name : String) (refine : Value → Value → m Value)
    (judges : ∀ p input, predicate.isPosition p = true → predicate.KeepsFrom p input)
    (acts : ∀ q input, body.isPosition q = true → body.KeepsFrom q input)
    (remaining attempts : Nat) (knownPredicate : predicate.isPosition p = true)
    (knownBody : body.isPosition q = true) (input : Value) (before : List Stage) :
    Yields (retry name predicate.step body.step refine remaining attempts p q input before)
      (fun move => ∃ p q, move.position = .pair p q ∧ predicate.isPosition p = true ∧
        body.isPosition q = true) StepError.PositionKnown := by
  induction remaining generalizing attempts p q input before with
  | zero =>
    unfold retry
    refine .bind (acts q input knownBody) fun produced knownBody => ?_
    refine .bind (judges p _ knownPredicate) fun judged knownPredicate => ?_
    refine .bind (yields_verdict name judged.output) fun holds _ => ?_
    cases holds with
    | true => exact .pure ⟨_, _, rfl, knownPredicate, knownBody⟩
    | false => exact .pure ⟨_, _, rfl, knownPredicate, knownBody⟩
  | succ remaining ih =>
    unfold retry
    refine .bind (acts q input knownBody) fun produced knownBody => ?_
    refine .bind (judges p _ knownPredicate) fun judged knownPredicate => ?_
    refine .bind (yields_verdict name judged.output) fun holds _ => ?_
    cases holds with
    | true => exact .pure ⟨_, _, rfl, knownPredicate, knownBody⟩
    | false =>
      exact .bind (.lift _) fun next _ => ih (attempts + 1) knownPredicate knownBody next _

/-- From a position an agent moves to a position. -/
theorem keepsFrom (known : agent.isPosition position = true) (input : Value) :
    agent.KeepsFrom position input := by
  induction agent generalizing position input with
  | primitive header machine =>
    rw [KeepsFrom, step]
    exact .bind (yields_require known input) fun _ _ => yields_machine machine header position input
  | identity header =>
    rw [KeepsFrom, step]
    exact .bind (yields_require known input) fun _ _ => .pure rfl
  | sequence header first second one two =>
    obtain ⟨p, q, rfl, knownFirst, knownSecond⟩ := isPosition_sequence_iff.mp known
    rw [KeepsFrom, step, parts2_pair]
    refine .bind (yields_require known input) fun _ _ => ?_
    rw [pure_bind]
    refine .bind (one knownFirst input) fun moved knownFirst => ?_
    refine .bind (two knownSecond moved.output) fun moved' knownSecond => .pure ?_
    exact isPosition_sequence_iff.mpr ⟨_, _, rfl, knownFirst, knownSecond⟩
  | parallel header left right one two =>
    obtain ⟨p, q, rfl, knownLeft, knownRight⟩ := isPosition_parallel_iff.mp known
    rw [KeepsFrom, step, parts2_pair]
    refine .bind (yields_require known input) fun _ _ => ?_
    rw [pure_bind]
    refine .bind (one knownLeft input) fun moved knownLeft => ?_
    refine .bind (two knownRight input) fun moved' knownRight => .pure ?_
    exact isPosition_parallel_iff.mpr ⟨_, _, rfl, knownLeft, knownRight⟩
  | branch header predicate onTrue onFalse one two three =>
    obtain ⟨p, q, r, rfl, knownPredicate, knownTrue, knownFalse⟩ := isPosition_branch_iff.mp known
    rw [KeepsFrom, step, parts3_triple]
    refine .bind (yields_require known input) fun _ _ => ?_
    rw [pure_bind]
    refine .bind (one knownPredicate input) fun judged knownPredicate => ?_
    refine .bind (yields_verdict predicate.name judged.output) fun holds _ => ?_
    -- The arm that is not chosen is still where it was.
    cases holds with
    | true =>
      refine .bind (two knownTrue input) fun taken knownTrue => .pure ?_
      exact isPosition_branch_iff.mpr ⟨_, _, _, rfl, knownPredicate, knownTrue, knownFalse⟩
    | false =>
      refine .bind (three knownFalse input) fun taken knownFalse => .pure ?_
      exact isPosition_branch_iff.mpr ⟨_, _, _, rfl, knownPredicate, knownTrue, knownFalse⟩
  | fix header predicate body policy one two =>
    obtain ⟨p, q, rfl, knownPredicate, knownBody⟩ := isPosition_fix_iff.mp known
    rw [KeepsFrom, step, parts2_pair]
    refine .bind (yields_require known input) fun _ _ => ?_
    rw [pure_bind]
    refine (yields_retry predicate.name policy.refine (fun _ input known => one known input)
      (fun _ input known => two known input) _ 1 knownPredicate knownBody input []).mono
      (fun _ within => ?_) fun _ known => known
    exact isPosition_fix_iff.mpr within
  | observe header inner one =>
    rw [KeepsFrom, step]
    refine .bind (yields_require known input) fun _ _ => ?_
    refine .bind (one (isPosition_observe.symm.trans known) input) fun move known => .pure ?_
    exact isPosition_observe.trans known

omit [Monad m] [LawfulMonad m] in
/-- The moves of a pure agent lead to positions. -/
theorem isPosition_of_moved {agent : Agent Id} {move : Step}
    (moved : (agent.step position input).run = .ok move) :
    agent.isPosition move.position = true :=
  (ensures_id.mp (keepsFrom (isPosition_of_step moved) input)).1 move moved

/-- Away from its positions an agent does nothing but say so, in its own name. -/
theorem step_of_not_isPosition (unknown : agent.isPosition position = false) (input : Value) :
    agent.step position input = throw (.unknownPosition agent.name position) := by
  have refused : agent.require position input = throw (.unknownPosition agent.name position) := by
    unfold require
    rw [unknown]
    rfl
  cases agent <;>
  · rw [step, refused]
    apply ExceptT.ext
    simp

end

/-- Steps that were recorded on a way from one position to another by positions only. -/
inductive Walk (agent : Agent m) : Value → List Value → List StepTrace → Value → Prop
  | nil (position : Value) : Walk agent position [] [] position
  | cons {position next last input output : Value} {inputs : List Value} {stages : List Stage}
    {steps : List StepTrace} (known : agent.isPosition next = true)
    (rest : Walk agent next inputs steps last) :
    Walk agent position (input :: inputs)
      (⟨input, output, agent.frontier next, stages⟩ :: steps) last

omit [Monad m] in
theorem Walk.isPosition {inputs : List Value} {steps : List StepTrace} {last : Value}
    (walk : agent.Walk position inputs steps last) (known : agent.isPosition position = true) :
    agent.isPosition last = true := by
  induction walk with
  | nil position => exact known
  | cons within _ ih => exact ih within

theorem trace_of_not_isPosition (unknown : agent.isPosition position = false)
    (inputs : List Value) :
    agent.trace position inputs = throw (.unknownPosition agent.name position) := by
  unfold Agent.trace
  rw [unknown]
  rfl

section

variable [LawfulMonad m]

theorem yields_run (known : agent.isPosition position = true) (inputs : List Value) :
    Yields (agent.run position inputs) (fun run => agent.isPosition run.finalPosition = true)
      StepError.PositionKnown := by
  induction inputs generalizing position with
  | nil => exact .pure known
  | cons input inputs ih =>
    rw [run]
    refine .bind (keepsFrom known input) fun move known => ?_
    exact .bind (ih known) fun rest known => .pure known

theorem yields_traceFrom (known : agent.isPosition position = true) (inputs : List Value) :
    Yields (agent.traceFrom position inputs)
      (fun traced => agent.Walk position inputs traced.1 traced.2) StepError.PositionKnown := by
  induction inputs generalizing position with
  | nil => exact .pure (.nil position)
  | cons input inputs ih =>
    rw [traceFrom]
    refine .bind (keepsFrom known input) fun move known => ?_
    exact .bind (ih known) fun _ walk => .pure (.cons known walk)

theorem yields_trace (known : agent.isPosition position = true) (inputs : List Value) :
    Yields (agent.trace position inputs)
      (fun seen => seen.initial = position ∧
        agent.Walk position inputs seen.steps seen.finalPosition ∧
        seen.finalFrontier = agent.frontier seen.finalPosition) StepError.PositionKnown := by
  unfold Agent.trace
  rw [if_pos known]
  exact .bind (yields_traceFrom known inputs) fun _ walk => .pure ⟨rfl, walk, rfl⟩

/-- Whatever the functions that it is made of do, an agent never leaves its positions. Each move leads
to a position. That a position is unknown is the answer to a move exactly if the agent was asked at a
value that is none of its positions, and then it is said of that value and in the name of the agent
itself. So from a position all runs end at a position, all traces go by positions, and neither fails
for that reason. -/
theorem never_leaves_positions (agent : Agent m) :
    (∀ position input, Ensures (agent.step position input) fun result =>
      (∀ move, result = .ok move → agent.isPosition move.position = true) ∧
      (result = .error (.unknownPosition agent.name position) ↔
        agent.isPosition position = false) ∧
      ∀ name value, result = .error (.unknownPosition name value) →
        name = agent.name ∧ value = position) ∧
    ∀ position, agent.isPosition position = true → ∀ inputs,
      Yields (agent.run position inputs) (fun run => agent.isPosition run.finalPosition = true)
        StepError.PositionKnown ∧
      Yields (agent.trace position inputs)
        (fun seen => agent.Walk position inputs seen.steps seen.finalPosition ∧
          agent.isPosition seen.finalPosition = true) StepError.PositionKnown := by
  refine ⟨fun position input => ?_, fun position known inputs => ⟨yields_run known inputs, ?_⟩⟩
  · cases known : agent.isPosition position with
    | false =>
      rw [step_of_not_isPosition known]
      refine Ensures.throw ⟨fun _ => nofun, iff_of_true rfl rfl, fun name value same => ?_⟩
      obtain ⟨rfl, rfl⟩ := StepError.unknownPosition.inj (Except.error.inj same)
      exact ⟨rfl, rfl⟩
    | true =>
      refine Ensures.mono (keepsFrom known input) fun result given => ?_
      obtain ⟨arrives, otherwise⟩ := given
      have other (name : String) (value : Value) :
          result ≠ .error (.unknownPosition name value) := fun same => otherwise _ same name value rfl
      exact ⟨arrives, iff_of_false (other _ _) nofun,
        fun name value same => absurd same (other name value)⟩
  · refine (yields_trace known inputs).mono (fun seen given => ?_) fun _ known => known
    obtain ⟨-, walk, -⟩ := given
    exact ⟨walk, walk.isPosition known⟩

end

/-- An agent of one position whose transition leads out of it every other time that it is called. -/
def wandering : Agent (StateM Nat) :=
  .primitive ⟨"wandering", .untyped, .bool false⟩
    { positions := [.bool false]
      directions := fun _ => .typed .any
      transition := fun _ input => modifyGet fun calls =>
        ((.bool (calls % 2 = 1), input), calls + 1)
      nonempty := by simp
      distinct := by simp }

/-- A try to leave ends a run, and is put down to the agent that tried. -/
theorem never_leaves_positions_wandering :
    let twice : Agent (StateM Nat) :=
      .sequence ⟨"seq(id, wandering)", .untyped, .pair .null (.bool false)⟩ (.id .any) wandering
    twice.isPosition (.pair .null (.bool false)) = true ∧
      Yields (twice.run (.pair .null (.bool false)) [.bool true, .bool true])
        (fun run => twice.isPosition run.finalPosition = true) StepError.PositionKnown ∧
      ((twice.run (.pair .null (.bool false)) [.bool true, .bool true]).run.run 0).1 =
        .error (.illegalTransition "wandering" (.bool false) (.bool true)) := by
  intro twice
  exact ⟨rfl, ((never_leaves_positions twice).2 (.pair .null (.bool false)) rfl _).1, rfl⟩

end Agent

end AgentAlgebra
