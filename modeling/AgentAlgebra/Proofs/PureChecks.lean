import AgentAlgebra.Proofs.Purity
import AgentAlgebra.Verify.Outcome
import Mathlib.Control.Monad.Basic
/-!
# Checking laws of pure agents

Putting pure agents together, building the two sides of a law and checking it come out among effects
as they do on their own. The two algebras need not be the same: they must have the operations that
the law applies in common.
-/

namespace AgentAlgebra

variable {m : Type → Type} [Monad m] [LawfulMonad m] {ε α β γ δ : Type}

/-- What is computed item by item carries over if it does for each item. -/
theorem Lifts.mapM {carry : α → β} {f : γ → ExceptT ε Id α} {g : γ → ExceptT ε m β}
    {items : List γ} (each : ∀ item ∈ items, Lifts (carry <$> f item) (g item)) :
    Lifts (List.map carry <$> items.mapM f) (items.mapM g) := by
  induction items with
  | nil => exact .pure []
  | cons item items ih =>
    rw [List.forall_mem_cons] at each
    rw [List.mapM_cons, List.mapM_cons, map_bind]
    refine .bind_map each.1 fun one => ?_
    rw [map_bind]
    exact .bind_map (ih each.2) fun rest => .pure _

namespace Agent

variable (first second left right predicate onTrue onFalse body inner : Agent Id)

omit [LawfulMonad m]

theorem inSequence_lifted :
    (first.lifted : Agent m).inSequence second.lifted = lifted <$> first.inSequence second := by
  simp [inSequence, lifted]

theorem inParallel_lifted :
    (left.lifted : Agent m).inParallel right.lifted = lifted <$> left.inParallel right := by
  simp [inParallel, lifted]

theorem branching_lifted :
    (predicate.lifted : Agent m).branching onTrue.lifted onFalse.lifted =
      lifted <$> predicate.branching onTrue onFalse := by
  simp [branching, lifted, map_bind]

theorem retrying_lifted (policy : RetryPolicy Id) :
    (predicate.lifted : Agent m).retrying body.lifted policy.lifted =
      lifted <$> predicate.retrying body policy := by
  simp [retrying, lifted, map_bind]

theorem observed_lifted : (inner.lifted : Agent m).observed = inner.observed.lifted := by
  simp [observed, lifted]

theorem startingAt_lifted (position : Value) :
    (inner.lifted : Agent m).startingAt position = lifted <$> inner.startingAt position := by
  unfold startingAt
  rw [isPosition_lifted, header_lifted, withHeader_lifted, name_lifted]
  split <;> rfl

end Agent

/-- A built-in operation among effects. -/
def Builtin.lifted : Builtin Id → Builtin m
  | .sequence => .sequence
  | .parallel => .parallel
  | .branch => .branch
  | .fix policy => .fix policy.lifted
  | .observe => .observe

omit [LawfulMonad m] in
theorem Builtin.compose_lifted (builtin : Builtin Id) (agents : List (Agent Id)) :
    (builtin.lifted : Builtin m).compose (agents.map Agent.lifted) =
      Agent.lifted <$> builtin.compose agents := by
  cases builtin with
  | sequence =>
    match agents with
    | [first, second] => exact Agent.inSequence_lifted first second
    | [] | [_] | _ :: _ :: _ :: _ => simp [lifted, compose, name, arity]
  | parallel =>
    match agents with
    | [left, right] => exact Agent.inParallel_lifted left right
    | [] | [_] | _ :: _ :: _ :: _ => simp [lifted, compose, name, arity]
  | branch =>
    match agents with
    | [predicate, onTrue, onFalse] => exact Agent.branching_lifted predicate onTrue onFalse
    | [] | [_] | [_, _] | _ :: _ :: _ :: _ :: _ => simp [lifted, compose, name, arity]
  | fix policy =>
    match agents with
    | [predicate, body] => exact Agent.retrying_lifted predicate body policy
    | [] | [_] | _ :: _ :: _ :: _ => simp [lifted, compose, name, arity]
  | observe =>
    match agents with
    | [inner] => exact congrArg Except.ok inner.observed_lifted
    | [] | _ :: _ :: _ => simp [lifted, compose, name, arity]

/-- An expression whose fixed agents are pure. -/
def Expr.lifted : Expr Id → Expr m
  | .var index => .var index
  | .agent fixed => .agent fixed.lifted
  | .apply operation count operand => .apply operation count fun i => (operand i).lifted

namespace Expr

omit [LawfulMonad m]

@[simp]
theorem arity_lifted (expr : Expr Id) : (expr.lifted : Expr m).arity = expr.arity := by
  induction expr with
  | var index => rfl
  | agent fixed => rfl
  | apply operation count operand ih => simp only [lifted, arity, ih]

@[simp]
theorem text_lifted (expr : Expr Id) : (expr.lifted : Expr m).text = expr.text := by
  induction expr with
  | var index => rfl
  | agent fixed => exact fixed.name_lifted
  | apply operation count operand ih => simp only [lifted, text, ih]

end Expr

/-- A law whose fixed agents are pure. -/
def Law.lifted (law : Law Id) : Law m :=
  ⟨law.name, law.lhs.lifted, law.rhs.lifted, law.comparison⟩

namespace Law

variable (law : Law Id)

omit [LawfulMonad m]

@[simp]
theorem name_lifted : (law.lifted : Law m).name = law.name := rfl

@[simp]
theorem comparison_lifted : (law.lifted : Law m).comparison = law.comparison := rfl

@[simp]
theorem equation_lifted : (law.lifted : Law m).equation = law.equation := by
  simp [equation, lifted, toString]

@[simp]
theorem arity_lifted : (law.lifted : Law m).arity = law.arity := by
  simp only [arity, lifted, Expr.arity_lifted]

end Law

/-- Two algebras have an operation in common: under this name both have the same built-in one. -/
def Common (algebra : Algebra Id) (algebra' : Algebra m) (operation : String) : Prop :=
  ∃ builtin : Builtin Id, algebra.operation? operation = some (.ofBuiltin builtin) ∧
    algebra'.operation? operation = some (.ofBuiltin builtin.lifted)

section

variable {algebra : Algebra Id} {algebra' : Algebra m}

omit [LawfulMonad m] in
theorem lifts_compose {operation : String} (common : Common algebra algebra' operation)
    (agents : List (Agent Id)) :
    Lifts (Agent.lifted <$> algebra.compose operation agents)
      (algebra'.compose operation (agents.map Agent.lifted)) := by
  obtain ⟨builtin, found, found'⟩ := common
  have same : (Operation.ofBuiltin (builtin.lifted : Builtin m)).arity =
      (Operation.ofBuiltin builtin).arity := by cases builtin <;> rfl
  have named : (Operation.ofBuiltin (builtin.lifted : Builtin m)).name =
      (Operation.ofBuiltin builtin).name := by cases builtin <;> rfl
  unfold Algebra.compose
  simp only [found, found']
  unfold Operation.apply
  rw [List.length_map, same, named]
  split
  · simp only [Operation.ofBuiltin, Builtin.compose_lifted]
    cases builtin.compose agents with
    | ok made => exact .pure _
    | error e => exact .throw e
  · exact .throw _

theorem lifts_instantiate (expr : Expr Id) (agents : List (Agent Id))
    (common : ∀ application ∈ expr.applications, Common algebra algebra' application.1) :
    Lifts (Agent.lifted <$> expr.instantiate algebra agents)
      ((expr.lifted : Expr m).instantiate algebra' (agents.map Agent.lifted)) := by
  induction expr with
  | var index =>
    unfold Expr.lifted Expr.instantiate
    rw [List.getElem?_map, List.length_map]
    cases agents[index]? with
    | some bound => exact .pure _
    | none => exact .throw _
  | agent fixed => exact .pure _
  | apply operation count operand ih =>
    unfold Expr.applications at common
    rw [List.forall_mem_cons] at common
    unfold Expr.lifted Expr.instantiate
    have operands : Lifts (List.map Agent.lifted <$>
          (List.finRange count).mapM fun i => (operand i).instantiate algebra agents)
        ((List.finRange count).mapM fun i =>
          ((operand i).lifted : Expr m).instantiate algebra' (agents.map Agent.lifted)) :=
      .mapM fun i _ => ih i fun application among => common.2 application <|
        List.mem_flatten.mpr ⟨_, List.mem_ofFn.mpr ⟨i, rfl⟩, among⟩
    rw [map_bind]
    exact .bind_map operands fun built => lifts_compose common.1 built

theorem lifts_sides (law : Law Id) (agents : List (Agent Id))
    (common : ∀ application ∈ law.applications, Common algebra algebra' application.1) :
    Lifts (Prod.map Agent.lifted Agent.lifted <$> law.sides algebra agents)
      ((law.lifted : Law m).sides algebra' (agents.map Agent.lifted)) := by
  unfold Law.applications at common
  rw [List.forall_mem_append] at common
  unfold Law.sides
  rw [Law.arity_lifted, List.length_map]
  split
  · rw [map_bind]
    refine .bind_map (lifts_instantiate law.lhs agents common.1) fun lhs => ?_
    rw [map_bind]
    exact .bind_map (lifts_instantiate law.rhs agents common.2) fun rhs => .pure _
  · exact .throw _

end

omit [Monad m] [LawfulMonad m] in
theorem mapM_carried {f : γ → Except ε α} {g : γ → Except ε β} {carry : α → β} (items : List γ)
    (each : ∀ item, g item = carry <$> f item) :
    items.mapM g = List.map carry <$> items.mapM f := by
  induction items with
  | nil => rfl
  | cons item items ih => simp [List.mapM_cons, each, ih, map_bind]

omit [LawfulMonad m] in
/-- The agents of a scenario start where they would start without effects. -/
theorem Scenario.bind_lifted (scenario : Scenario) (agents : List (Agent Id)) :
    scenario.bind (agents.map (Agent.lifted : Agent Id → Agent m)) =
      List.map Agent.lifted <$> scenario.bind agents := by
  unfold Scenario.bind
  rw [List.zipIdx_map, List.mapM_map]
  refine mapM_carried _ fun (agent, index) => ?_
  dsimp only [Function.comp_apply, Prod.map, id]
  rcases scenario.positions[index]? with _ | _ | position
  · rfl
  · rfl
  · exact agent.startingAt_lifted position

namespace VerifySettings

variable {settings : VerifySettings} {algebra : Algebra Id} {algebra' : Algebra m} {law : Law Id}

theorem lifts_observe (side : Agent Id) (scenario : Scenario) :
    Lifts (observe side scenario) (observe (side.lifted : Agent m) scenario) := by
  unfold observe
  rw [Agent.initial_lifted]
  exact (Agent.lifts_trace side side.initial scenario.inputs).adapt _

theorem lifts_replayed (law : Law Id) (scenario : Scenario) (side : Agent Id) (first : Trace) :
    Lifts (replayed? law scenario side first)
      (replayed? (law.lifted : Law m) scenario side.lifted first) := by
  unfold replayed?
  rw [Agent.name_lifted, Law.name_lifted, Law.equation_lifted]
  exact .bind (lifts_observe side scenario) fun again => .pure _

/-- The two sides of a law run and compared, and with replay each compared with itself. -/
def compared (settings : VerifySettings) (law : Law m) (scenario : Scenario) (lhs rhs : Agent m) :
    ExceptT Obstacle m (Option Violation) := do
  let left ← observe lhs scenario
  let right ← observe rhs scenario
  match Divergence.between? left right (law.comparison = .outputsAndFrontier) false with
  | some divergence =>
    return some (.of FailureClass.lawViolation.name law.name law.equation scenario
      (.of lhs.name left) (.of rhs.name right) divergence)
  | none =>
    if settings.replay then
      match ← replayed? law scenario lhs left with
      | some violation => return some violation
      | none => replayed? law scenario rhs right
    else return none

theorem throw_bind (e : ε) (f : α → ExceptT ε m β) : throw e >>= f = throw e := by
  ext
  simp

/-- A law is tried by moving the agents to their starts, building the two sides and comparing them.
-/
theorem check_eq (algebra : Algebra m) (law : Law m) (agents : List (Agent m))
    (scenario : Scenario) :
    settings.check algebra law agents scenario =
      if agents.length < scenario.positions.length then
        throw (.tooManyStarts scenario.positions.length agents.length)
      else
        match scenario.bind agents with
        | .ok bound => do
          let sides ← (law.sides algebra bound).adapt Obstacle.unbuilt
          settings.compared law scenario sides.1 sides.2
        | .error error => throw (.unbuilt (.contract error)) := by
  unfold check
  by_cases many : agents.length < scenario.positions.length
  · rw [if_pos many, if_pos many]
    exact throw_bind ..
  · rw [if_neg many, if_neg many]
    cases scenario.bind agents with
    | ok bound => exact pure_bind ..
    | error error => exact throw_bind ..

theorem lifts_compared (scenario : Scenario) (lhs rhs : Agent Id) :
    Lifts (settings.compared law scenario lhs rhs)
      (settings.compared (law.lifted : Law m) scenario lhs.lifted rhs.lifted) := by
  unfold compared
  rw [Agent.name_lifted, Agent.name_lifted, Law.name_lifted, Law.equation_lifted,
    Law.comparison_lifted]
  refine .bind (lifts_observe lhs scenario) fun left => ?_
  refine .bind (lifts_observe rhs scenario) fun right => ?_
  cases Divergence.between? left right (law.comparison = .outputsAndFrontier) false with
  | some divergence => exact .pure _
  | none =>
    dsimp only
    split
    · refine .bind (lifts_replayed law scenario lhs left) fun found => ?_
      cases found with
      | some violation => exact .pure _
      | none => exact lifts_replayed law scenario rhs right
    · exact .pure _

theorem lifts_check (agents : List (Agent Id)) (scenario : Scenario)
    (common : ∀ application ∈ law.applications, Common algebra algebra' application.1) :
    Lifts (settings.check algebra law agents scenario)
      (settings.check algebra' law.lifted (agents.map Agent.lifted) scenario) := by
  rw [check_eq, check_eq, List.length_map, Scenario.bind_lifted]
  split
  · exact .throw _
  · cases scenario.bind agents with
    | error error => exact .throw _
    | ok bound =>
      refine .bind_map ((lifts_sides law bound common).adapt_map Obstacle.unbuilt) fun sides => ?_
      exact lifts_compared scenario sides.1 sides.2

theorem lifts_checkAll (agents : List (Agent Id)) (scenarios : List Scenario)
    (common : ∀ application ∈ law.applications, Common algebra algebra' application.1) :
    Lifts (settings.checkAll algebra law agents scenarios)
      (settings.checkAll algebra' law.lifted (agents.map Agent.lifted) scenarios) := by
  induction scenarios with
  | nil => exact .pure _
  | cons scenario scenarios ih =>
    rw [checkAll, checkAll]
    refine .bind (lifts_check agents scenario common) fun found => ?_
    cases found with
    | some violation => exact .pure _
    | none => exact ih

/-- What is left of checking a law once it is found. -/
def checkFound (settings : VerifySettings) (algebra : Algebra m) (law : Law m)
    (agents : List (Agent m)) (scenarios : List Scenario) :
    ExceptT Obstacle m (Option Violation) :=
  if scenarios.isEmpty then throw .noInputs
  else if agents.length ≠ law.arity then throw (.wrongAgents law.arity agents.length)
  else settings.checkAll algebra law agents scenarios

/-- What is said of a law when all its scenarios are done. -/
def verdict (name : String) (scenarios : List Scenario) :
    Except Obstacle (Option Violation) → LawOutcome
  | .ok none => .satisfied name scenarios.length
  | .ok (some violation) => .violated violation
  | .error obstacle => .inapplicable name obstacle.reason

theorem verify_eq {algebra : Algebra m} {law : Law m} {name : String}
    (found : algebra.law? name = some law) (agents : List (Agent m)) (scenarios : List Scenario) :
    settings.verify algebra name agents scenarios =
      verdict name scenarios <$> (settings.checkFound algebra law agents scenarios).run := by
  unfold verify checkFound
  rw [map_eq_pure_bind]
  simp only [found]
  congr 1
  by_cases empty : scenarios.isEmpty = true
  · rw [if_pos empty, if_pos empty, throw_bind]
  · rw [if_neg empty, if_neg empty]
    by_cases other : agents.length ≠ law.arity
    · rw [if_pos other, if_pos other, throw_bind]
    · rw [if_neg other, if_neg other]

theorem verify_lifted {name : String} (found : algebra.law? name = some law)
    (found' : algebra'.law? name = some law.lifted)
    (common : ∀ application ∈ law.applications, Common algebra algebra' application.1)
    (agents : List (Agent Id)) (scenarios : List Scenario) :
    settings.verify algebra' name (agents.map Agent.lifted) scenarios =
      pure (settings.verify algebra name agents scenarios).run := by
  have lifts : Lifts (settings.checkFound algebra law agents scenarios)
      (settings.checkFound algebra' law.lifted (agents.map Agent.lifted) scenarios) := by
    unfold checkFound
    rw [List.length_map, Law.arity_lifted]
    split
    · exact .throw _
    · split
      · exact .throw _
      · exact lifts_checkAll agents scenarios common
  rw [verify_eq found', verify_eq found, lifts, map_pure]
  rfl

end VerifySettings

end AgentAlgebra
