import AgentAlgebra.Proofs.Movement
import AgentAlgebra.Proofs.Runs
import AgentAlgebra.Proofs.Traces
/-!
# Traces are runs with a record

A run and a trace go through the steps of an agent in two loops, and only a trace asks first whether
its start is a position. They come to the same wherever a step is taken, because a step from any other
value fails in the same way. A trace over two sequences of inputs, one behind the other, is two
traces: the second starts where the first ends, which is a position, so that nothing new is asked
there.
-/

namespace AgentAlgebra

namespace Trace

/-- The run of which this is the record. -/
def toRun (trace : Trace) : Run := ⟨trace.finalPosition, trace.outputs⟩

/-- This trace, and behind it another from where it ends. -/
def append (trace later : Trace) : Trace :=
  { later with initial := trace.initial, steps := trace.steps ++ later.steps }

end Trace

namespace Agent

section

variable {m : Type → Type} [Monad m] [LawfulMonad m] {agent : Agent m}

theorem run_eq_map_traceFrom (position : Value) (inputs : List Value) :
    agent.run position inputs =
      (fun traced => ⟨traced.2, traced.1.map (·.output)⟩) <$> agent.traceFrom position inputs := by
  induction inputs generalizing position with
  | nil => rw [run, traceFrom, map_pure, List.map_nil]
  | cons input inputs ih =>
    rw [run, traceFrom, map_bind]
    refine bind_congr fun move => ?_
    rw [ih, map_bind, bind_map_left]
    refine bind_congr fun traced => ?_
    rw [map_pure, List.map_cons]

/-- Where a trace is asked for a step it is a run with a record, whatever the effects of its steps and
however it fails. -/
theorem run_eq_map_trace {position : Value} {inputs : List Value}
    (asked : agent.isPosition position = true ∨ inputs ≠ []) :
    agent.run position inputs = Trace.toRun <$> agent.trace position inputs := by
  cases known : agent.isPosition position with
  | true =>
    unfold trace
    rw [if_pos known, map_bind, run_eq_map_traceFrom, map_eq_pure_bind]
    refine bind_congr fun traced => ?_
    rw [map_pure]
    rfl
  | false =>
    rw [known] at asked
    cases inputs with
    | nil => simp at asked
    | cons input inputs =>
      rw [run, step_of_not_isPosition known, trace_of_not_isPosition known]
      apply ExceptT.ext
      simp

theorem traceFrom_append (position : Value) (before after : List Value) :
    agent.traceFrom position (before ++ after) =
      agent.traceFrom position before >>= fun one =>
        (fun two => (one.1 ++ two.1, two.2)) <$> agent.traceFrom one.2 after := by
  induction before generalizing position with
  | nil =>
    rw [List.nil_append, traceFrom, pure_bind]
    exact (id_map _).symm
  | cons input before ih =>
    rw [List.cons_append, traceFrom, traceFrom, bind_assoc]
    refine bind_congr fun move => ?_
    rw [ih, bind_assoc, bind_assoc]
    refine bind_congr fun one => ?_
    rw [pure_bind, bind_map_left, map_eq_pure_bind]
    rfl

end

namespace Walk

variable {m : Type → Type} {agent : Agent m} {position last : Value} {inputs : List Value}
  {steps : List StepTrace}

theorem map_input (walk : agent.Walk position inputs steps last) :
    steps.map (·.input) = inputs := by
  induction walk with
  | nil position => rfl
  | cons known rest ih => rw [List.map_cons, ih]

theorem length_steps (walk : agent.Walk position inputs steps last) :
    steps.length = inputs.length := by
  rw [← walk.map_input, List.length_map]

/-- The frontier of the last step is that of the position at which it ends. -/
theorem frontier_last {before : List StepTrace} {step : StepTrace}
    (walk : agent.Walk position inputs (before ++ [step]) last) :
    step.frontier = agent.frontier last := by
  induction before generalizing position inputs with
  | nil =>
    cases walk with
    | cons known rest =>
      cases rest
      rfl
  | cons other before ih =>
    cases walk with
    | cons known rest => exact ih rest

end Walk

section

variable {agent : Agent Id} {position : Value} {inputs before after : List Value} {seen : Trace}

/-- A pure agent never leaves its positions, so a trace can be taken up where another ended. -/
theorem trace_append (agent : Agent Id) (position : Value) (before after : List Value) :
    agent.trace position (before ++ after) =
      agent.trace position before >>= fun one =>
        one.append <$> agent.trace one.finalPosition after := by
  cases known : agent.isPosition position with
  | false =>
    rw [trace_of_not_isPosition known, trace_of_not_isPosition known]
    rfl
  | true =>
    unfold trace
    rw [if_pos known, if_pos known, traceFrom_append]
    cases traced : (agent.traceFrom position before).run with
    | error e =>
      have failed : agent.traceFrom position before = throw e := traced
      rw [failed]
      rfl
    | ok one =>
      have went : agent.traceFrom position before = pure one := traced
      have walk := (ensures_id.mp (yields_traceFrom known before)).1 one traced
      rw [went, pure_bind, pure_bind, pure_bind, if_pos (walk.isPosition known), bind_map_left,
        map_bind]
      refine bind_congr fun two => ?_
      rw [map_pure]
      rfl

theorem walk_of_trace (traced : (agent.trace position inputs).run = .ok seen) :
    seen.initial = position ∧ agent.Walk position inputs seen.steps seen.finalPosition ∧
      seen.finalFrontier = agent.frontier seen.finalPosition :=
  (ensures_id.mp (yields_trace (trace_eq_ok.mp traced).1 inputs)).1 seen traced

/-- The first steps of a trace are those of the trace over the first inputs. -/
theorem exists_trace_of_steps (traced : (agent.trace position inputs).run = .ok seen)
    {first rest : List StepTrace} (split : seen.steps = first ++ rest) :
    ∃ one, (agent.trace position (inputs.take first.length)).run = .ok one ∧ one.steps = first := by
  have fits : first.length ≤ inputs.length := by
    obtain ⟨-, walk, -⟩ := walk_of_trace traced
    rw [← walk.length_steps, split, List.length_append]
    exact Nat.le_add_right _ _
  rw [← List.take_append_drop first.length inputs, trace_append, run_bind_eq_ok] at traced
  obtain ⟨one, begun, continued⟩ := traced
  rw [map_eq_pure_bind, run_bind_eq_ok] at continued
  obtain ⟨two, -, made⟩ := continued
  obtain rfl := Except.ok.inj made
  obtain ⟨-, walk, -⟩ := walk_of_trace begun
  have long : one.steps.length = first.length := by
    rw [walk.length_steps, List.length_take_of_le fits]
  exact ⟨one, begun, List.append_inj_left split long⟩

/-- The run of a pure agent succeeds exactly if its steps can be recorded. -/
theorem run_eq_ok_iff_traceFrom {out : Run} :
    (agent.run position inputs).run = .ok out ↔
      ∃ steps last, (agent.traceFrom position inputs).run = .ok (steps, last) ∧
        ⟨last, steps.map (·.output)⟩ = out := by
  rw [run_eq_map_traceFrom, map_eq_pure_bind, run_bind_eq_ok]
  constructor
  · rintro ⟨⟨steps, last⟩, traced, made⟩
    exact ⟨steps, last, traced, Except.ok.inj made⟩
  · rintro ⟨steps, last, traced, rfl⟩
    exact ⟨(steps, last), traced, rfl⟩

theorem run_of_trace (traced : (agent.trace position inputs).run = .ok seen) :
    (agent.run position inputs).run = .ok seen.toRun := by
  obtain ⟨-, steps, last, went, rfl⟩ := trace_eq_ok.mp traced
  exact run_eq_ok_iff_traceFrom.mpr ⟨steps, last, went, rfl⟩

/-- A trace is a run with a record. The two agree, in what they give and in how they fail, exactly if
the start is a position or there is an input. The record has the inputs in their order, and of each
step the frontier of the position to which the inputs so far lead; its last frontier is that of the
last position. And a trace can be cut anywhere: over two sequences of inputs, one behind the other, it
is the trace over the first and, from where that ends, the trace over the second. -/
theorem trace_records_run (agent : Agent Id) (position : Value) (inputs : List Value) :
    (agent.run position inputs = Trace.toRun <$> agent.trace position inputs ↔
      agent.isPosition position = true ∨ inputs ≠ []) ∧
    (∀ seen, (agent.trace position inputs).run = .ok seen →
      seen.steps.map (·.input) = inputs ∧
      (∀ before step after, seen.steps = before ++ step :: after →
        ∃ reached, (agent.run position (inputs.take (before.length + 1))).run = .ok reached ∧
          reached.outputs = before.map (·.output) ++ [step.output] ∧
          step.frontier = agent.frontier reached.finalPosition) ∧
      seen.finalFrontier = agent.frontier seen.finalPosition) ∧
    ∀ more, agent.trace position (inputs ++ more) =
      agent.trace position inputs >>= fun one =>
        one.append <$> agent.trace one.finalPosition more := by
  refine ⟨⟨?_, run_eq_map_trace⟩, ?_, trace_append agent position inputs⟩
  · intro agree
    by_contra unasked
    rw [not_or, Bool.not_eq_true, not_not] at unasked
    obtain ⟨unknown, rfl⟩ := unasked
    rw [trace_of_not_isPosition unknown] at agree
    have failed : (agent.run position []).run = .error (.unknownPosition agent.name position) :=
      congrArg ExceptT.run agree
    cases failed
  · intro seen traced
    obtain ⟨-, walk, final⟩ := walk_of_trace traced
    refine ⟨walk.map_input, fun before step after split => ?_, final⟩
    obtain ⟨one, begun, steps⟩ := exists_trace_of_steps traced
      (split.trans (List.append_cons before step after))
    rw [List.length_append] at begun
    obtain ⟨-, walk, -⟩ := walk_of_trace begun
    refine ⟨one.toRun, run_of_trace begun, ?_, ?_⟩
    · rw [Trace.toRun, Trace.outputs, steps, List.map_append]
      rfl
    · rw [steps] at walk
      exact walk.frontier_last

end

/-- A latch on two inputs and then on two more; from a value that is no position run and trace differ
only in that a run over no inputs says nothing. -/
theorem trace_records_run_latch :
    ∃ (agent : Agent Id) (one two : Trace), latch.build = .ok agent ∧
      (agent.trace (.bool false) [.bool true, .bool false]).run = .ok one ∧
      one.finalPosition = .bool false ∧
      (agent.trace one.finalPosition [.bool true, .bool true]).run = .ok two ∧
      (agent.trace (.bool false) [.bool true, .bool false, .bool true, .bool true]).run =
        .ok (one.append two) ∧
      (one.append two).steps.map (·.input) = [.bool true, .bool false, .bool true, .bool true] ∧
      (one.append two).outputs = [.bool false, .bool true, .bool false, .bool true] ∧
      agent.run .null [.bool true] = Trace.toRun <$> agent.trace .null [.bool true] ∧
      agent.run .null [] ≠ Trace.toRun <$> agent.trace .null [] := by
  obtain ⟨agent, made⟩ : ∃ agent, latch.build = .ok agent := ⟨_, rfl⟩
  obtain ⟨one, begun, ended, given⟩ : ∃ one,
      (agent.trace (.bool false) [.bool true, .bool false]).run = .ok one ∧
        one.finalPosition = .bool false ∧ one.outputs = [.bool false, .bool true] := by
    cases made
    exact ⟨_, rfl, rfl, rfl⟩
  obtain ⟨two, continued, given'⟩ : ∃ two,
      (agent.trace one.finalPosition [.bool true, .bool true]).run = .ok two ∧
        two.outputs = [.bool false, .bool true] := by
    cases made
    rw [ended]
    exact ⟨_, rfl, rfl⟩
  obtain ⟨-, -, cut⟩ := trace_records_run agent (.bool false) [.bool true, .bool false]
  have whole : (agent.trace (.bool false) [.bool true, .bool false, .bool true, .bool true]).run =
      .ok (one.append two) := by
    have begun : agent.trace (.bool false) [.bool true, .bool false] = pure one := begun
    have continued : agent.trace one.finalPosition [.bool true, .bool true] = pure two := continued
    have joined := cut [.bool true, .bool true]
    rw [begun, pure_bind, continued, map_pure] at joined
    exact congrArg ExceptT.run joined
  obtain ⟨-, recorded, -⟩ := trace_records_run agent (.bool false) _
  obtain ⟨asked, -⟩ := trace_records_run agent .null [.bool true]
  obtain ⟨unasked, -⟩ := trace_records_run agent .null []
  refine ⟨agent, one, two, made, begun, ended, continued, whole, (recorded _ whole).1, ?_,
    asked.mpr (.inr (List.cons_ne_nil _ _)), ?_⟩
  · rw [Trace.outputs, Trace.append, List.map_append]
    exact congrArg₂ (· ++ ·) given given'
  · rw [Ne, unasked]
    cases made
    decide

end Agent

end AgentAlgebra
