import AgentAlgebra.Agent.Trace
import AgentAlgebra.Proofs.Construction
/-!
# Pure agents among effects

In a program whose functions may have effects, an agent may yet have none: it is a pure agent
carried over, `Agent.lifted`. All that such an agent does is what the pure agent does, so what is
known of pure agents carries over too. `Lifts x y` says of a single computation that `y` does no
more than give the result of the pure `x`; that is kept by sequencing, so it goes through every
function of the engine.
-/

namespace AgentAlgebra

variable {m : Type → Type} [Monad m] {ε ε' α β γ : Type}

/-- A computation that gives the result of a pure one and does nothing else. -/
def Lifts (x : ExceptT ε Id α) (y : ExceptT ε m α) : Prop :=
  y.run = pure x.run.run

namespace Lifts

variable [LawfulMonad m] {x : ExceptT ε Id α} {y : ExceptT ε m α} {f : α → ExceptT ε Id β}
  {g : α → ExceptT ε m β}

omit [LawfulMonad m] in
protected theorem pure (a : α) : Lifts (pure a) (pure a : ExceptT ε m α) := rfl

omit [LawfulMonad m] in
protected theorem throw (e : ε) : Lifts (throw e) (throw e : ExceptT ε m α) := rfl

theorem lift (x : Id α) : Lifts (liftM x) (liftM (pure x.run : m α) : ExceptT ε m α) := by
  unfold Lifts
  exact (ExceptT.run_lift _).trans (map_pure ..)

/-- What follows on a result that is carried over by a function may use it. -/
theorem bind_map {carry : α → β} {z : ExceptT ε m β} {f : α → ExceptT ε Id γ}
    {g : β → ExceptT ε m γ} (one : Lifts (carry <$> x) z)
    (rest : ∀ a, Lifts (f a) (g (carry a))) : Lifts (x >>= f) (z >>= g) := by
  unfold Lifts at *
  rw [ExceptT.run_bind, one, pure_bind]
  cases x with
  | ok a => exact rest a
  | error e => rfl

theorem bind (one : Lifts x y) (rest : ∀ a, Lifts (f a) (g a)) : Lifts (x >>= f) (y >>= g) :=
  bind_map (show Lifts (id <$> x) y by rwa [id_map]) rest

theorem adapt_map {carry : α → β} {z : ExceptT ε m β} (one : Lifts (carry <$> x) z)
    (change : ε → ε') : Lifts (carry <$> x.adapt change) (z.adapt change) := by
  unfold Lifts at *
  calc (z.adapt change).run = Except.mapError change <$> z.run := rfl
    _ = pure (Except.mapError change (carry <$> x).run.run) := by rw [one, map_pure]
    _ = pure (carry <$> x.adapt change).run.run := by cases x <;> rfl

theorem adapt (one : Lifts x y) (change : ε → ε') : Lifts (x.adapt change) (y.adapt change) := by
  have mapped := adapt_map (show Lifts (id <$> x) y by rwa [id_map]) change
  rwa [id_map] at mapped

end Lifts

/-- A policy that refines inputs without effects. -/
def RetryPolicy.lifted (policy : RetryPolicy Id) : RetryPolicy m :=
  ⟨policy.maxAttempts, fun input output => pure (policy.refine input output).run, policy.positive⟩

namespace Agent

/-- A pure agent in a program with effects. -/
def lifted : Agent Id → Agent m
  | .primitive header machine =>
    .primitive header
      { positions := machine.positions
        directions := machine.directions
        transition := fun position input => pure (machine.transition position input).run
        nonempty := machine.nonempty
        distinct := machine.distinct }
  | .identity header => .identity header
  | .sequence header first second => .sequence header first.lifted second.lifted
  | .parallel header left right => .parallel header left.lifted right.lifted
  | .branch header predicate onTrue onFalse =>
    .branch header predicate.lifted onTrue.lifted onFalse.lifted
  | .fix header predicate body policy =>
    .fix header predicate.lifted body.lifted policy.lifted
  | .observe header inner => .observe header inner.lifted

section

variable (agent : Agent Id)

@[simp]
theorem header_lifted : (agent.lifted : Agent m).header = agent.header := by
  cases agent <;> rfl

@[simp]
theorem name_lifted : (agent.lifted : Agent m).name = agent.name :=
  congrArg Header.name agent.header_lifted

@[simp]
theorem input_lifted : (agent.lifted : Agent m).input = agent.input :=
  congrArg (·.signature.input) agent.header_lifted

@[simp]
theorem output_lifted : (agent.lifted : Agent m).output = agent.output :=
  congrArg (·.signature.output) agent.header_lifted

@[simp]
theorem initial_lifted : (agent.lifted : Agent m).initial = agent.initial :=
  congrArg Header.initial agent.header_lifted

@[simp]
theorem isPosition_lifted (position : Value) :
    (agent.lifted : Agent m).isPosition position = agent.isPosition position := by
  induction agent generalizing position with
  | primitive header machine => rfl
  | identity header => rfl
  | sequence header first second one two | parallel header first second one two
  | fix header first second policy one two =>
    simp only [lifted, isPosition, one, two]
  | branch header predicate onTrue onFalse one two three =>
    simp only [lifted, isPosition, one, two, three]
  | observe header inner one => simp only [lifted, isPosition, one]

@[simp]
theorem directions_lifted (position : Value) :
    (agent.lifted : Agent m).directions position = agent.directions position := by
  induction agent generalizing position with
  | primitive header machine => rfl
  | identity header => rfl
  | sequence header first second one two | parallel header first second one two
  | fix header first second policy one two =>
    rw [directions.eq_def, directions.eq_def, isPosition_lifted]
    simp only [lifted, one, two]
  | branch header predicate onTrue onFalse one two three =>
    rw [directions.eq_def, directions.eq_def, isPosition_lifted]
    simp only [lifted, one, two, three]
  | observe header inner one =>
    rw [directions.eq_def, directions.eq_def, isPosition_lifted]
    simp only [lifted, one]

@[simp]
theorem frontier_lifted (position : Value) :
    (agent.lifted : Agent m).frontier position = agent.frontier position := by
  induction agent generalizing position with
  | primitive header machine => rfl
  | identity header => rfl
  | sequence header first second one two | parallel header first second one two
  | fix header first second policy one two =>
    simp only [lifted, frontier, one, two]
  | branch header predicate onTrue onFalse one two three =>
    simp only [lifted, frontier, one, two, three]
  | observe header inner one => simp only [lifted, frontier, one]

theorem withHeader_lifted (header : Header) :
    (agent.lifted : Agent m).withHeader header = (agent.withHeader header).lifted := by
  cases agent <;> rfl

end

theorem lifts_require (agent : Agent Id) (position input : Value) :
    Lifts (agent.require position input)
      ((agent.lifted : Agent m).require position input) := by
  unfold require
  rw [isPosition_lifted, directions_lifted, name_lifted]
  split
  · split
    · exact .pure ()
    · exact .throw _
  · exact .throw _

theorem lifts_verdict (name : String) (output : Value) :
    Lifts (verdict name output) (verdict name output : ExceptT StepError m Bool) := by
  unfold verdict
  split
  · exact .pure _
  · exact .throw _

theorem lifts_parts2 (agent : Agent Id) (position : Value) :
    Lifts (step.parts2 agent position) (step.parts2 (agent.lifted : Agent m) position) := by
  unfold step.parts2
  rw [name_lifted]
  split
  · exact .pure _
  · exact .throw _

theorem lifts_parts3 (agent : Agent Id) (position : Value) :
    Lifts (step.parts3 agent position) (step.parts3 (agent.lifted : Agent m) position) := by
  unfold step.parts3
  rw [name_lifted]
  split
  · exact .pure _
  · exact .throw _

section

variable [LawfulMonad m]

theorem lifts_retry {name : String} {judge act : Value → Value → ExceptT StepError Id Step}
    {judge' act' : Value → Value → ExceptT StepError m Step} {refine : Value → Value → Id Value}
    (judges : ∀ p x, Lifts (judge p x) (judge' p x)) (acts : ∀ p x, Lifts (act p x) (act' p x))
    (remaining attempts : Nat) (p q input : Value) (before : List Stage) :
    Lifts (retry name judge act refine remaining attempts p q input before)
      (retry name judge' act' (fun input output => pure (refine input output).run) remaining
        attempts p q input before) := by
  induction remaining generalizing attempts p q input before with
  | zero =>
    unfold retry
    refine .bind (acts q input) fun produced => .bind (judges p _) fun judged => ?_
    refine .bind (lifts_verdict _ _) fun holds => ?_
    split
    · exact .pure _
    · exact .pure _
  | succ remaining ih =>
    unfold retry
    refine .bind (acts q input) fun produced => .bind (judges p _) fun judged => ?_
    refine .bind (lifts_verdict _ _) fun holds => ?_
    split
    · exact .pure _
    · exact .bind (.lift _) fun next => ih ..

/-- A pure agent moves among effects as it does on its own. -/
theorem lifts_step (agent : Agent Id) (position input : Value) :
    Lifts (agent.step position input) ((agent.lifted : Agent m).step position input) := by
  induction agent generalizing position input with
  | primitive header machine =>
    rw [lifted, step, step]
    refine .bind (lifts_require (.primitive header machine) position input) fun _ => ?_
    unfold Machine.step
    refine .bind (.lift _) fun (next, output) => ?_
    dsimp only
    split
    · split
      · exact .pure _
      · exact .throw _
    · exact .throw _
  | identity header =>
    rw [lifted, step, step]
    exact .bind (lifts_require (.identity header) position input) fun _ => .pure _
  | sequence header first second one two =>
    rw [lifted, step, step]
    refine .bind (lifts_require (.sequence header first second) position input) fun _ => ?_
    refine .bind (lifts_parts2 (.sequence header first second) position) fun (p, q) => ?_
    exact .bind (one p input) fun moved => .bind (two q _) fun moved' => .pure _
  | parallel header left right one two =>
    rw [lifted, step, step]
    refine .bind (lifts_require (.parallel header left right) position input) fun _ => ?_
    refine .bind (lifts_parts2 (.parallel header left right) position) fun (p, q) => ?_
    exact .bind (one p input) fun moved => .bind (two q input) fun moved' => .pure _
  | branch header predicate onTrue onFalse one two three =>
    rw [lifted, step, step, name_lifted]
    refine .bind (lifts_require (.branch header predicate onTrue onFalse) position input)
      fun _ => ?_
    refine .bind (lifts_parts3 (.branch header predicate onTrue onFalse) position)
      fun (p, q, r) => ?_
    refine .bind (one p input) fun judged => .bind (lifts_verdict _ _) fun holds => ?_
    cases holds with
    | true => exact .bind (two q input) fun taken => .pure _
    | false => exact .bind (three r input) fun taken => .pure _
  | fix header predicate body policy one two =>
    rw [lifted, step, step, name_lifted]
    refine .bind (lifts_require (.fix header predicate body policy) position input) fun _ => ?_
    refine .bind (lifts_parts2 (.fix header predicate body policy) position) fun (p, q) => ?_
    exact lifts_retry one two ..
  | observe header inner one =>
    rw [lifted, step, step, name_lifted]
    refine .bind (lifts_require (.observe header inner) position input) fun _ => ?_
    exact .bind (one position input) fun move => .pure _

theorem lifts_traceFrom (agent : Agent Id) (position : Value) (inputs : List Value) :
    Lifts (agent.traceFrom position inputs)
      ((agent.lifted : Agent m).traceFrom position inputs) := by
  induction inputs generalizing position with
  | nil => exact .pure _
  | cons input inputs ih =>
    rw [traceFrom, traceFrom]
    simp only [frontier_lifted]
    exact .bind (lifts_step agent position input) fun move =>
      .bind (ih move.position) fun (rest, last) => .pure _

/-- A pure agent among effects has the traces that it has on its own. -/
theorem lifts_trace (agent : Agent Id) (position : Value) (inputs : List Value) :
    Lifts (agent.trace position inputs) ((agent.lifted : Agent m).trace position inputs) := by
  unfold Agent.trace
  simp only [isPosition_lifted, frontier_lifted, name_lifted]
  split
  · exact .bind (lifts_traceFrom agent position inputs) fun (steps, last) => .pure _
  · exact .throw _

theorem stateless_lifted (name : String) (signature : Signature) (output : Value → Value) :
    (stateless name signature fun input => pure (output input) : Agent Id).lifted =
      (stateless name signature fun input => pure (output input) : Agent m) := by
  unfold stateless lifted
  congr
  funext position input
  rw [pure_bind]
  rfl

end

end Agent

end AgentAlgebra
