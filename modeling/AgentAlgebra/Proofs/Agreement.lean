import AgentAlgebra.Proofs.Divergences
import AgentAlgebra.Proofs.PureChecks
import AgentAlgebra.Proofs.Traces
/-!
# Agents that are alike

Two pure agents are alike if, wherever both move, they are seen to give the same. That is less than
to say that one mirrors the other: one of them may fail where the other does not. It is what
checking a law looks at, because a side that fails makes the law inapplicable; so a law whose sides
are alike cannot be found violated.
-/

namespace AgentAlgebra

instance : ReflBEq Stage :=
  ⟨Stage.beq_eq_true.mpr ⟨rfl, BEq.rfl, BEq.rfl⟩⟩

namespace Agent

variable {agent left right : Agent Id} {frontier : Bool} {related : Value → Value → Prop}

/-- Where both agents move from related positions, they come to related positions and give the same;
where the frontier counts, related positions have the same frontier. -/
structure Agrees (frontier : Bool) (related : Value → Value → Prop) (left right : Agent Id) :
    Prop where
  step : ∀ {p q input move move'}, related p q → (left.step p input).run = .ok move →
    (right.step q input).run = .ok move' →
      related move.position move'.position ∧ move.output = move'.output
  frontier : frontier = true → ∀ {p q}, related p q → left.frontier p = right.frontier q

/-- Two agents that agree from their starts on. -/
def Alike (frontier : Bool) (left right : Agent Id) : Prop :=
  ∃ related, related left.initial right.initial ∧ Agrees frontier related left right

/-- An agent that mirrors another agrees with it. -/
theorem Agrees.of_mirrors (mirrors : Mirrors related left right)
    (same : ∀ {p q}, related p q → left.frontier p = right.frontier q) :
    Agrees frontier related left right where
  step := by
    intro p q input move move' start moved moved'
    obtain ⟨other, made, next, looks⟩ := mirrors p q start input move moved
    obtain rfl : other = move' := Except.ok.inj (made.symm.trans moved')
    exact ⟨next, congrArg StepTrace.output looks⟩
  frontier := fun _ _ _ start => same start

/-- Two steps of agreeing agents look the same in what is compared. -/
theorem Agrees.looks (agrees : Agrees frontier related left right) {move move' : Step}
    (next : related move.position move'.position) (same : move.output = move'.output)
    (input : Value) :
    StepTrace.Matches frontier false (left.record input move) (right.record input move') where
  output := by simp [record, same]
  frontier := by
    intro counts
    simp [record, agrees.frontier counts next]
  stages := nofun

theorem Agrees.among? (agrees : Agrees frontier related left right) {p q last last' : Value}
    {inputs : List Value} {steps steps' : List StepTrace} (start : related p q)
    (traced : (left.traceFrom p inputs).run = .ok (steps, last))
    (traced' : (right.traceFrom q inputs).run = .ok (steps', last')) (n : Nat) :
    Divergence.among? frontier false n steps steps' = none := by
  induction inputs generalizing p q steps steps' n with
  | nil =>
    obtain ⟨rfl, -⟩ := traceFrom_nil.mp traced
    rfl
  | cons input inputs ih =>
    obtain ⟨move, moved, rest, followed, rfl⟩ := traceFrom_cons.mp traced
    obtain ⟨move', moved', rest', followed', rfl⟩ := traceFrom_cons.mp traced'
    obtain ⟨next, same⟩ := agrees.step start moved moved'
    exact Divergence.among?_cons_eq_none.mpr
      ⟨agrees.looks next same input, ih next followed followed' (n + 1)⟩

/-- No divergence is found between the traces of agents that are alike. -/
theorem Alike.between? (alike : Alike frontier left right) {inputs : List Value}
    {seen seen' : Trace} (traced : (left.trace left.initial inputs).run = .ok seen)
    (traced' : (right.trace right.initial inputs).run = .ok seen') :
    Divergence.between? seen seen' frontier false = none := by
  obtain ⟨related, start, agrees⟩ := alike
  obtain ⟨-, steps, last, followed, rfl⟩ := trace_eq_ok.mp traced
  obtain ⟨-, steps', last', followed', rfl⟩ := trace_eq_ok.mp traced'
  exact agrees.among? start followed followed' 0

end Agent

/-- A trace does not diverge from itself, however much is compared. -/
theorem Divergence.among?_self (frontier stages : Bool) (steps : List StepTrace) (n : Nat) :
    among? frontier stages n steps steps = none := by
  induction steps generalizing n with
  | nil => rfl
  | cons step steps ih =>
    exact among?_cons_eq_none.mpr ⟨⟨BEq.rfl, fun _ => BEq.rfl, fun _ => BEq.rfl⟩, ih (n + 1)⟩

/-- Whatever agents a law is about, the two sides that are built from them are alike. -/
def Law.Holds (law : Law Id) (algebra : Algebra Id) : Prop :=
  ∀ agents lhs rhs, (law.sides algebra agents).run = .ok (lhs, rhs) →
    Agent.Alike (law.comparison = .outputsAndFrontier) lhs rhs

namespace VerifySettings

variable {settings : VerifySettings} {algebra : Algebra Id} {law : Law Id}
  {agents : List (Agent Id)} {scenario : Scenario} {side lhs rhs : Agent Id} {seen : Trace}

theorem adapt_eq_ok {ε ε' α : Type} {x : ExceptT ε Id α} {change : ε → ε'} {a : α} :
    (x.adapt change).run = .ok a ↔ x.run = .ok a := by
  cases x with
  | ok b =>
    exact ⟨fun same => congrArg Except.ok (Except.ok.inj same),
      fun same => congrArg Except.ok (Except.ok.inj same)⟩
  | error e => exact ⟨nofun, nofun⟩

theorem observe_eq_ok :
    (observe side scenario).run = .ok seen ↔
      (side.trace side.initial scenario.inputs).run = .ok seen :=
  adapt_eq_ok

/-- A pure side does the same when it is run again. -/
theorem run_replayed (observed : (observe side scenario).run = .ok seen) :
    (replayed? law scenario side seen).run = .ok none := by
  unfold replayed?
  refine run_bind_eq_ok.mpr ⟨seen, observed, ?_⟩
  unfold Divergence.between?
  rw [Divergence.among?_self]
  rfl

theorem run_compared (alike : Agent.Alike (law.comparison = .outputsAndFrontier) lhs rhs)
    {found : Option Violation}
    (made : (settings.compared law scenario lhs rhs).run = .ok found) : found = none := by
  unfold compared at made
  obtain ⟨left, observed, made⟩ := run_bind_eq_ok.mp made
  obtain ⟨right, observed', made⟩ := run_bind_eq_ok.mp made
  rw [alike.between? (observe_eq_ok.mp observed) (observe_eq_ok.mp observed')] at made
  dsimp only at made
  split at made
  · obtain ⟨again, replayed, made⟩ := run_bind_eq_ok.mp made
    obtain rfl : none = again := Except.ok.inj ((run_replayed observed).symm.trans replayed)
    exact (Except.ok.inj ((run_replayed observed').symm.trans made)).symm
  · exact (Except.ok.inj made).symm

theorem run_check (holds : law.Holds algebra) {found : Option Violation}
    (made : (settings.check algebra law agents scenario).run = .ok found) : found = none := by
  rw [check_eq] at made
  split at made
  · exact nomatch made
  · split at made
    · obtain ⟨⟨lhs, rhs⟩, built, made⟩ := run_bind_eq_ok.mp made
      exact run_compared (holds _ _ _ (adapt_eq_ok.mp built)) made
    · exact nomatch made

theorem run_checkAll (holds : law.Holds algebra) {scenarios : List Scenario}
    {found : Option Violation}
    (made : (settings.checkAll algebra law agents scenarios).run = .ok found) : found = none := by
  induction scenarios with
  | nil => exact (Except.ok.inj made).symm
  | cons scenario scenarios ih =>
    rw [checkAll] at made
    obtain ⟨one, checked, made⟩ := run_bind_eq_ok.mp made
    obtain rfl := run_check holds checked
    exact ih made

/-- A law whose sides are always alike is never found violated. -/
theorem verify_of_holds (holds : law.Holds algebra) {name : String}
    (found : algebra.law? name = some law) (scenarios : List Scenario) :
    (settings.verify algebra name agents scenarios).run.isSatisfied = true ∨
      (settings.verify algebra name agents scenarios).run.isInapplicable = true := by
  rw [verify_eq found]
  change (verdict name scenarios
      (settings.checkFound algebra law agents scenarios).run).isSatisfied = true ∨
    (verdict name scenarios
      (settings.checkFound algebra law agents scenarios).run).isInapplicable = true
  cases checked : (settings.checkFound algebra law agents scenarios).run with
  | error obstacle => exact .inr rfl
  | ok found =>
    unfold checkFound at checked
    split at checked
    · exact nomatch checked
    · split at checked
      · exact nomatch checked
      · obtain rfl := run_checkAll holds checked
        exact .inl rfl

end VerifySettings

end AgentAlgebra
