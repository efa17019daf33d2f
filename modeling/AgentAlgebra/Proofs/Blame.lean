import AgentAlgebra.Agent.Draft
import AgentAlgebra.Proofs.Divergences
import AgentAlgebra.Proofs.Effects
import AgentAlgebra.Proofs.Values
/-!
# Which stage is blamed

In a pipeline each stage takes what the stage before it gave. Two pipelines of the same agents, put
together in whatever way, run the same agents in the same order. Where they are given the same and
give different outputs, the first stage that differs is therefore one that took the same and gave
something else, and that stage is named.
-/

namespace AgentAlgebra

/-- Each stage takes what the one before it gave. -/
inductive Stage.Flow : Value → List Stage → Value → Prop
  | nil (value : Value) : Flow value [] value
  | cons {agent : String} {input middle output : Value} {stages : List Stage}
    (rest : Flow middle stages output) : Flow input (⟨agent, input, middle⟩ :: stages) output

theorem Stage.Flow.append {input middle output : Value} {before after : List Stage}
    (flow : Flow input before middle) (flow' : Flow middle after output) :
    Flow input (before ++ after) output := by
  induction flow with
  | nil value => exact flow'
  | cons rest ih => exact .cons (ih flow')

/-- These agents ran one after the other, from an input to an output. -/
structure Stage.Chain (names : List String) (input : Value) (stages : List Stage) (output : Value) :
    Prop where
  agents : stages.map (·.agent) = names
  flow : Flow input stages output

namespace Agent

/-- The agent is put together by sequence alone, from identities and from primitive agents of these
names, from first to last. -/
inductive Pipeline {m : Type → Type} : Agent m → List String → Prop
  | primitive (header : Header) (machine : Machine m) :
    Pipeline (.primitive header machine) [header.name]
  | identity (header : Header) : Pipeline (.identity header) []
  | sequence (header : Header) {first second : Agent m} {names names' : List String}
    (one : Pipeline first names) (two : Pipeline second names') :
    Pipeline (.sequence header first second) (names ++ names')

namespace Pipeline

variable {m : Type → Type} [Monad m] [LawfulMonad m] {agent : Agent m} {names : List String}

/-- In a move of a pipeline its agents run in their order. -/
theorem gives_step (pipeline : agent.Pipeline names) (position input : Value) :
    Gives (agent.step position input) fun move =>
      Stage.Chain names input move.stages move.output := by
  induction pipeline generalizing position input with
  | primitive header machine =>
    rw [step]
    refine .bind_last fun _ => ?_
    unfold Machine.step
    refine .bind_last fun ⟨next, output⟩ => ?_
    dsimp only
    split
    · split
      · exact .pure ⟨rfl, .cons (.nil _)⟩
      · exact .throw _
    · exact .throw _
  | identity header =>
    rw [step]
    exact .bind_last fun _ => .pure ⟨rfl, .nil input⟩
  | sequence header one two first second =>
    rw [step]
    refine .bind_last fun _ => .bind_last fun ⟨p, q⟩ => ?_
    refine .bind (first p input) fun made chain => ?_
    refine .bind (second q made.output) fun made' chain' => .pure ?_
    exact ⟨by rw [List.map_append, chain.agents, chain'.agents], chain.flow.append chain'.flow⟩

/-- What is recorded of a pipeline on some inputs: a chain of its agents for each. -/
structure Recorded (names : List String) (inputs : List Value) (steps : List StepTrace) : Prop where
  inputs : steps.map (·.input) = inputs
  chains : ∀ step ∈ steps, Stage.Chain names step.input step.stages step.output

theorem gives_traceFrom (pipeline : agent.Pipeline names) (position : Value)
    (inputs : List Value) :
    Gives (agent.traceFrom position inputs) fun traced => Recorded names inputs traced.1 := by
  induction inputs generalizing position with
  | nil => exact .pure ⟨rfl, nofun⟩
  | cons input inputs ih =>
    rw [traceFrom]
    refine .bind (pipeline.gives_step position input) fun move chain => ?_
    refine .bind (ih move.position) fun ⟨steps, last⟩ rest => .pure ⟨?_, ?_⟩
    · exact congrArg (input :: ·) rest.inputs
    · exact List.forall_mem_cons.mpr ⟨chain, rest.chains⟩

theorem gives_trace (pipeline : agent.Pipeline names) (position : Value) (inputs : List Value) :
    Gives (agent.trace position inputs) fun seen => Recorded names inputs seen.steps := by
  unfold Agent.trace
  split
  · exact .bind (pipeline.gives_traceFrom position inputs) fun _ recorded => .pure recorded
  · exact .throw _

open MonadAttach in
theorem recorded [MonadAttach m] [LawfulMonadAttach m] (pipeline : agent.Pipeline names)
    {position : Value} {inputs : List Value} {seen : Trace}
    (returned : CanReturn (agent.trace position inputs).run (.ok seen)) :
    Recorded names inputs seen.steps :=
  Ensures.of_canReturn (pipeline.gives_trace position inputs) returned

end Pipeline

end Agent

/-- Where two chains of the same agents are given the same and give different outputs, the first
stage that differs took the same and gave something else. -/
theorem Stage.Flow.exists_culprit {input input' output output' : Value} {stages stages' : List Stage}
    (flow : Flow input stages output) (flow' : Flow input' stages' output')
    (agents : stages.map (·.agent) = stages'.map (·.agent)) (given : (input == input') = true)
    (differ : (output == output') = false) :
    ∃ (i : Nat) (s t : Stage), stages[i]? = some s ∧ stages'[i]? = some t ∧
      ((stages.zip stages').findIdx? fun (a, b) => a != b) = some i ∧
      (stages.take i == stages'.take i) = true ∧ (s.input == t.input) = true ∧
      (s.output == t.output) = false := by
  induction flow generalizing input' stages' with
  | nil value =>
    obtain rfl := List.map_eq_nil_iff.mp agents.symm
    cases flow'
    exact absurd given (by simp [differ])
  | @cons agent input middle output stages rest ih =>
    cases flow' with
    | nil value => exact nomatch agents
    | @cons _ _ middle' _ stages' rest' =>
      obtain ⟨rfl, others⟩ := List.cons.inj agents
      have equal_iff : (Stage.mk agent input middle == ⟨agent, input', middle'⟩) =
          (middle == middle') := by
        rw [Bool.eq_iff_iff, Stage.beq_eq_true]
        exact ⟨fun same => same.2.2, fun same => ⟨rfl, given, same⟩⟩
      rw [List.zip_cons_cons, List.findIdx?_cons]
      simp only [bne, equal_iff]
      cases same : middle == middle' with
      | false => exact ⟨0, _, _, rfl, rfl, rfl, rfl, given, same⟩
      | true =>
        obtain ⟨i, s, t, left, right, found, before, took, gave⟩ := ih rest' others same differ
        refine ⟨i + 1, s, t, left, right, ?_, ?_, took, gave⟩
        · simp only [bne] at found
          simp [found]
        · rw [List.take_succ_cons, List.take_succ_cons, List.cons_beq_cons, equal_iff, same, before]
          rfl

/-- The stage that is named is the first that differs. -/
theorem firstStageDifference?_eq_some {l r : StepTrace} {i : Nat} {s t : Stage}
    (agents : l.stages.map (·.agent) = r.stages.map (·.agent))
    (found : ((l.stages.zip r.stages).findIdx? fun (a, b) => a != b) = some i)
    (left : l.stages[i]? = some s) (right : r.stages[i]? = some t) :
    firstStageDifference? l r = some (i, s.agent) := by
  have many : l.stages.length = r.stages.length := by
    simpa using congrArg List.length agents
  have same : ((l.stages.zip r.stages).all fun (a, b) => a.agent == b.agent) = true := by
    rw [← List.forall₂_eq_eq_eq, List.forall₂_map_left_iff, List.forall₂_map_right_iff,
      List.forall₂_iff_zip] at agents
    exact List.all_eq_true.mpr fun (a, b) mem => beq_iff_eq.mpr (agents.2 mem)
  have pair : (l.stages.zip r.stages)[i]? = some (s, t) :=
    List.getElem?_zip_eq_some.mpr ⟨left, right⟩
  unfold firstStageDifference?
  rw [if_pos ⟨many, same⟩, found]
  simp [pair]

namespace Agent

open MonadAttach

variable {m : Type → Type} [Monad m] [LawfulMonad m] [MonadAttach m] [LawfulMonadAttach m]
  {a b : Agent m} {names : List String} {p q : Value} {inputs : List Value} {first second : Trace}
  {divergence : Divergence}

/-- Two pipelines of the same agents run on the same inputs. Where outputs alone are compared and
differ, the stage that is named is one that took the same and gave something else, and all stages
before it did the same. -/
theorem blamed_stage_is_culprit (left : a.Pipeline names) (right : b.Pipeline names)
    (one : CanReturn (a.trace p inputs).run (.ok first))
    (two : CanReturn (b.trace q inputs).run (.ok second))
    (found : Divergence.between? first second false false = some divergence) :
    divergence.observable = .output ∧
      ∃ (l r : StepTrace) (i : Nat) (s t : Stage),
        first.steps[divergence.step]? = some l ∧ second.steps[divergence.step]? = some r ∧
        l.stages[i]? = some s ∧ r.stages[i]? = some t ∧
        divergence.stage = some i ∧ divergence.stageAgent = some s.agent ∧
        names[i]? = some s.agent ∧ names[i]? = some t.agent ∧
        (l.stages.take i == r.stages.take i) = true ∧
        (s.input == t.input) = true ∧ (s.output == t.output) = false := by
  obtain ⟨k, l, r, ofFirst, ofSecond, there, -⟩ := Divergence.among?_eq_some found
  obtain ⟨differ, rfl⟩ := Divergence.atStep?_outputs there
  rw [Nat.zero_add]
  have recorded := left.recorded one
  have recorded' := right.recorded two
  have chain := recorded.chains l (List.mem_of_getElem? ofFirst)
  have chain' := recorded'.chains r (List.mem_of_getElem? ofSecond)
  have given : l.input = r.input := by
    have inputs := congrArg (·[k]?) (recorded.inputs.trans recorded'.inputs.symm)
    simpa [ofFirst, ofSecond] using inputs
  have agents := chain.agents.trans chain'.agents.symm
  obtain ⟨i, s, t, ofLeft, ofRight, difference, before, took, gave⟩ :=
    chain.flow.exists_culprit chain'.flow agents (beq_of_eq given) differ
  have blame := firstStageDifference?_eq_some agents difference ofLeft ofRight
  refine ⟨rfl, l, r, i, s, t, ofFirst, ofSecond, ofLeft, ofRight, ?_, ?_, ?_, ?_, before, took, gave⟩
  · rw [blame]
    rfl
  · rw [blame]
    rfl
  · rw [← chain.agents, List.getElem?_map, ofLeft]
    rfl
  · rw [← chain'.agents, List.getElem?_map, ofRight]
    rfl

/-- An agent that says whether it was called three times before. -/
def leaky : Agent (StateM Nat) :=
  .stateless "leaky" .untyped fun _ => modifyGet fun calls => (.bool (calls = 3), calls + 1)

def echo : Agent (StateM Nat) :=
  .stateless "echo" .untyped pure

/-- What is recorded of a leaky agent between two echoes, grouped in either way, when it gives
`false` first and then this. -/
def leak (position : Value) (given : Bool) : Trace :=
  let step (given : Bool) : StepTrace := ⟨.null, .bool given, [.null, .null, .null],
    [⟨"echo", .null, .null⟩, ⟨"leaky", .null, .bool given⟩, ⟨"echo", .bool given, .bool given⟩]⟩
  ⟨position, position, [.null, .null, .null], [step false, step given]⟩

/-- In whatever way three agents are grouped, it is the one in the middle that is named when it has
answered otherwise in a later run. -/
theorem blamed_stage_is_culprit_leaky :
    let left : Agent (StateM Nat) :=
      .sequence ⟨"seq(seq(echo, leaky), echo)", .untyped, .pair (.pair .null .null) .null⟩
        (.sequence ⟨"seq(echo, leaky)", .untyped, .pair .null .null⟩ echo leaky) echo
    let right : Agent (StateM Nat) :=
      .sequence ⟨"seq(echo, seq(leaky, echo))", .untyped, .pair .null (.pair .null .null)⟩ echo
        (.sequence ⟨"seq(leaky, echo)", .untyped, .pair .null .null⟩ leaky echo)
    let first := leak left.initial false
    let second := leak right.initial true
    CanReturn (left.trace left.initial [.null, .null]).run (.ok first) ∧
      CanReturn (right.trace right.initial [.null, .null]).run (.ok second) ∧
      ∃ divergence, Divergence.between? first second false false = some divergence ∧
        divergence.observable = .output ∧ divergence.step = 1 ∧ divergence.stage = some 1 ∧
        divergence.stageAgent = some "leaky" := by
  intro left right first second
  have names : left.Pipeline ["echo", "leaky", "echo"] :=
    .sequence _ (.sequence _ (.primitive ..) (.primitive ..)) (.primitive ..)
  have names' : right.Pipeline ["echo", "leaky", "echo"] :=
    .sequence _ (.primitive ..) (.sequence _ (.primitive ..) (.primitive ..))
  have one : CanReturn (left.trace left.initial [.null, .null]).run (.ok first) := ⟨0, 2, rfl⟩
  have two : CanReturn (right.trace right.initial [.null, .null]).run (.ok second) := ⟨2, 4, rfl⟩
  have found : Divergence.between? first second false false =
      some ⟨1, .output, some 1, some "leaky", .bool false, .bool true⟩ := rfl
  obtain ⟨output, -⟩ := blamed_stage_is_culprit names names' one two found
  exact ⟨one, two, _, found, output, rfl, rfl, rfl⟩

end Agent

end AgentAlgebra
