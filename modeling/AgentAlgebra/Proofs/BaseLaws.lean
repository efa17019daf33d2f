import AgentAlgebra.Proofs.Agreement
import AgentAlgebra.Proofs.Associativity
import AgentAlgebra.Proofs.Extension
/-!
# The base laws

The six base laws hold of all pure agents, so checking one of them never finds it violated. For each
law the positions of its two sides correspond in a simple way, and from corresponding positions both
sides make the same moves wherever both of them move.
-/

namespace AgentAlgebra

namespace Agent

variable {a b moved : Agent Id} {header inner : Header} {p q input : Value} {move : Step}

/-- A stateless agent stays where it is and gives what its function gives. -/
theorem step_stateless {name : String} {signature : Signature} {output : Value → Id Value}
    (made : ((stateless name signature output : Agent Id).step p input).run = .ok move) :
    move.position = p ∧ move.output = (output input).run := by
  obtain ⟨-, -, -, rfl⟩ := step_primitive.mp made
  exact ⟨rfl, rfl⟩

/-- The identity in front of an agent only passes the input on. -/
theorem alike_left_identity (type : ValueType) (signature : Signature) (name : String) :
    Alike true (sequence ⟨name, signature, .pair .null a.initial⟩ (.id type) a) a := by
  refine ⟨fun left right => left = .pair .null right, rfl, .of_mirrors ?_ ?_⟩
  · rintro _ q rfl input move moved
    obtain ⟨one, first, two, second, rfl⟩ := step_sequence.mp moved
    obtain ⟨-, rfl⟩ := step_identity.mp first
    exact ⟨two, second, rfl, by simp [record, frontier, Agent.id]⟩
  · rintro _ q rfl
    simp [frontier, Agent.id]

/-- The identity behind an agent only passes the output on. -/
theorem alike_right_identity (type : ValueType) (signature : Signature) (name : String) :
    Alike true (sequence ⟨name, signature, .pair a.initial .null⟩ a (.id type)) a := by
  refine ⟨fun left right => left = .pair right .null, rfl, .of_mirrors ?_ ?_⟩
  · rintro _ q rfl input move moved
    obtain ⟨one, first, two, second, rfl⟩ := step_sequence.mp moved
    obtain ⟨-, rfl⟩ := step_identity.mp second
    exact ⟨one, first, rfl, by simp [record, frontier, Agent.id]⟩
  · rintro _ q rfl
    simp [frontier, Agent.id]

/-- Both sides of an exchange run the same two agents on the same input. -/
theorem alike_swapped {outer other : Header}
    (start : outer.initial = .pair (.pair a.initial b.initial) .null)
    (start' : other.initial = .pair b.initial a.initial) :
    Alike false (sequence outer (parallel inner a b) .swap) (parallel other b a) := by
  refine ⟨fun left right => ∃ p q, left = .pair (.pair p q) .null ∧ right = .pair q p,
    ⟨_, _, start, start'⟩, ?_, nofun⟩
  rintro _ _ input move move' ⟨p, q, rfl, rfl⟩ moved moved'
  obtain ⟨both, movedBoth, exchanged, swapped, rfl⟩ := step_sequence.mp moved
  obtain ⟨-, one, first, two, second, rfl⟩ := step_parallel.mp movedBoth
  obtain ⟨-, two', second', one', first', rfl⟩ := step_parallel.mp moved'
  obtain rfl : one = one' := Except.ok.inj (first.symm.trans first')
  obtain rfl : two = two' := Except.ok.inj (second.symm.trans second')
  obtain ⟨stays, given⟩ := step_stateless swapped
  refine ⟨⟨_, _, by rw [stays], rfl⟩, given.trans ?_⟩
  simp

/-- A branch on a constant truth takes the first arm. -/
theorem alike_branch_true {outer : Header}
    (start : outer.initial = .triple .null a.initial b.initial) :
    Alike false (branch outer (.constant (.bool true)) a b) a := by
  refine ⟨fun left right => ∃ r, left = .triple .null right r, ⟨_, start⟩, ?_, nofun⟩
  rintro _ q input move move' ⟨r, rfl⟩ moved moved'
  obtain ⟨-, judged, asked, ⟨-, taken, first, rfl⟩ | ⟨refused, -⟩⟩ := step_branch.mp moved
  · obtain rfl : taken = move' := Except.ok.inj (first.symm.trans moved')
    exact ⟨⟨r, by rw [(step_stateless asked).1]⟩, rfl⟩
  · have given := (step_stateless asked).2
    rw [refused] at given
    exact nomatch given

/-- The output of an agent that is observed is a field of what the observer gives. -/
theorem alike_observed {outer : Header} (start : outer.initial = .pair a.initial .null) :
    Alike false (sequence outer (observe inner a) (.project "output")) a := by
  refine ⟨fun left right => left = .pair right .null, start, ?_, nofun⟩
  rintro _ q input move move' rfl moved moved'
  obtain ⟨seen, observed, chosen, projected, rfl⟩ := step_sequence.mp moved
  obtain ⟨one, first, rfl⟩ := step_observe.mp observed
  obtain rfl : one = move' := Except.ok.inj (first.symm.trans moved')
  obtain ⟨stays, given⟩ := step_stateless projected
  refine ⟨by rw [stays], given.trans ?_⟩
  simp [report, Fields.ofList, Value.ofOption]

end Agent

section

variable {m : Type → Type} [Monad m] [LawfulMonad m]

/-- An applied operation builds its operands from left to right. -/
theorem Expr.instantiate_applyTo (algebra : Algebra m) (agents : List (Agent m))
    (operation : String) (operands : List (Expr m)) :
    (Expr.applyTo operation operands).instantiate algebra agents =
      operands.mapM (Expr.instantiate algebra agents) >>= algebra.compose operation := by
  unfold Expr.applyTo Expr.instantiate
  conv_rhs => rw [← List.map_get_finRange operands, List.mapM_map]
  rfl

end

section

variable {algebra : Algebra Id} {agents : List (Agent Id)} {made lhs rhs : Agent Id}

theorem mapM_eq_ok {ε α β : Type} {f : α → ExceptT ε Id β} {items : List α} {built : List β} :
    (items.mapM f).run = .ok built →
      List.Forall₂ (fun item one => (f item).run = .ok one) items built := by
  induction items generalizing built with
  | nil =>
    intro ended
    obtain rfl := Except.ok.inj ended
    exact .nil
  | cons item items ih =>
    rw [List.mapM_cons]
    intro went
    obtain ⟨one, first, went⟩ := run_bind_eq_ok.mp went
    obtain ⟨others, rest, went⟩ := run_bind_eq_ok.mp went
    obtain rfl := Except.ok.inj went
    exact .cons first (ih rest)

/-- What an expression makes whose operation is built in. -/
theorem instantiate_builtin {operation : String} {builtin : Builtin Id} {operands : List (Expr Id)}
    (found : algebra.operation? operation = some (.ofBuiltin builtin))
    (built : ((Expr.applyTo operation operands).instantiate algebra agents).run = .ok made) :
    ∃ given,
      List.Forall₂ (fun operand agent => (operand.instantiate algebra agents).run = .ok agent)
        operands given ∧ builtin.compose given = .ok made := by
  rw [Expr.instantiate_applyTo] at built
  obtain ⟨given, operandsBuilt, built⟩ := run_bind_eq_ok.mp built
  refine ⟨given, mapM_eq_ok operandsBuilt, ?_⟩
  unfold Algebra.compose Operation.apply at built
  rw [found] at built
  dsimp only [Operation.ofBuiltin] at built
  split at built
  · cases composed : builtin.compose given with
    | ok agent =>
      rw [composed] at built
      exact built
    | error e =>
      rw [composed] at built
      exact nomatch built
  · exact nomatch built

theorem sides_of_run {law : Law Id} (built : (law.sides algebra agents).run = .ok (lhs, rhs)) :
    (law.lhs.instantiate algebra agents).run = .ok lhs ∧
      (law.rhs.instantiate algebra agents).run = .ok rhs := by
  unfold Law.sides at built
  split at built
  · obtain ⟨one, left, built⟩ := run_bind_eq_ok.mp built
    obtain ⟨two, right, built⟩ := run_bind_eq_ok.mp built
    obtain ⟨rfl, rfl⟩ := Prod.mk.inj (Except.ok.inj built)
    exact ⟨left, right⟩
  · exact nomatch built

end

namespace Law

open Agent

theorem holds_seq_left_identity (name : String) :
    (⟨name, .applyTo "seq" [.identity, .var 0], .var 0, .outputsAndFrontier⟩ : Law Id).Holds
      .base := by
  intro agents lhs rhs built
  obtain ⟨left, right⟩ := sides_of_run built
  obtain ⟨_, _ | ⟨one, _ | ⟨two, _ | _⟩⟩, made⟩ := instantiate_builtin rfl left
  obtain rfl := Except.ok.inj one
  obtain rfl := Except.ok.inj (two.symm.trans right)
  obtain ⟨-, rfl⟩ := inSequence_eq_ok.mp made
  exact alike_left_identity ..

theorem holds_seq_right_identity (name : String) :
    (⟨name, .applyTo "seq" [.var 0, .identity], .var 0, .outputsAndFrontier⟩ : Law Id).Holds
      .base := by
  intro agents lhs rhs built
  obtain ⟨left, right⟩ := sides_of_run built
  obtain ⟨_, _ | ⟨one, _ | ⟨two, _ | _⟩⟩, made⟩ := instantiate_builtin rfl left
  obtain rfl := Except.ok.inj (one.symm.trans right)
  obtain rfl := Except.ok.inj two
  obtain ⟨-, rfl⟩ := inSequence_eq_ok.mp made
  exact alike_right_identity ..

theorem holds_seq_associativity (name : String) :
    (⟨name, .applyTo "seq" [.applyTo "seq" [.var 0, .var 1], .var 2],
      .applyTo "seq" [.var 0, .applyTo "seq" [.var 1, .var 2]], .outputsAndFrontier⟩ :
        Law Id).Holds .base := by
  intro agents lhs rhs built
  obtain ⟨left, right⟩ := sides_of_run built
  obtain ⟨_, _ | ⟨inner, _ | ⟨three, _ | _⟩⟩, made⟩ := instantiate_builtin rfl left
  obtain ⟨_, _ | ⟨one, _ | ⟨two, _ | _⟩⟩, madeInner⟩ := instantiate_builtin rfl inner
  obtain ⟨_, _ | ⟨one', _ | ⟨inner', _ | _⟩⟩, made'⟩ := instantiate_builtin rfl right
  obtain ⟨_, _ | ⟨two', _ | ⟨three', _ | _⟩⟩, madeInner'⟩ := instantiate_builtin rfl inner'
  obtain rfl := Except.ok.inj (one.symm.trans one')
  obtain rfl := Except.ok.inj (two.symm.trans two')
  obtain rfl := Except.ok.inj (three.symm.trans three')
  obtain ⟨-, rfl⟩ := inSequence_eq_ok.mp madeInner
  obtain ⟨-, rfl⟩ := inSequence_eq_ok.mp made
  obtain ⟨-, rfl⟩ := inSequence_eq_ok.mp madeInner'
  obtain ⟨-, rfl⟩ := inSequence_eq_ok.mp made'
  exact ⟨Regrouped, ⟨_, _, _, rfl, rfl⟩, .of_mirrors mirrors_sequence_right frontier_regrouped⟩

theorem holds_par_symmetry (name : String) :
    (⟨name, .applyTo "seq" [.applyTo "par" [.var 0, .var 1], .agent .swap],
      .applyTo "par" [.var 1, .var 0], .outputs⟩ : Law Id).Holds .base := by
  intro agents lhs rhs built
  obtain ⟨left, right⟩ := sides_of_run built
  obtain ⟨_, _ | ⟨inner, _ | ⟨swapped, _ | _⟩⟩, made⟩ := instantiate_builtin rfl left
  obtain ⟨_, _ | ⟨one, _ | ⟨two, _ | _⟩⟩, madeInner⟩ := instantiate_builtin rfl inner
  obtain ⟨_, _ | ⟨two', _ | ⟨one', _ | _⟩⟩, made'⟩ := instantiate_builtin rfl right
  obtain rfl := Except.ok.inj swapped
  obtain rfl := Except.ok.inj (one.symm.trans one')
  obtain rfl := Except.ok.inj (two.symm.trans two')
  obtain ⟨_, -, rfl⟩ := inParallel_eq_ok.mp madeInner
  obtain ⟨-, rfl⟩ := inSequence_eq_ok.mp made
  obtain ⟨_, -, rfl⟩ := inParallel_eq_ok.mp made'
  exact alike_swapped rfl rfl

theorem holds_branch_true (name : String) :
    (⟨name, .applyTo "branch" [.agent (.constant (.bool true)), .var 0, .var 1], .var 0,
      .outputs⟩ : Law Id).Holds .base := by
  intro agents lhs rhs built
  obtain ⟨left, right⟩ := sides_of_run built
  obtain ⟨_, _ | ⟨truth, _ | ⟨one, _ | ⟨two, _ | _⟩⟩⟩, made⟩ := instantiate_builtin rfl left
  obtain rfl := Except.ok.inj truth
  obtain rfl := Except.ok.inj (one.symm.trans right)
  obtain ⟨-, _, -, _, -, _, -, rfl⟩ := branching_eq_ok.mp made
  exact alike_branch_true rfl

theorem holds_observe_transparency (name : String) :
    (⟨name, .applyTo "seq" [.applyTo "observe" [.var 0], .agent (.project "output")], .var 0,
      .outputs⟩ : Law Id).Holds .base := by
  intro agents lhs rhs built
  obtain ⟨left, right⟩ := sides_of_run built
  obtain ⟨_, _ | ⟨observed, _ | ⟨chosen, _ | _⟩⟩, made⟩ := instantiate_builtin rfl left
  obtain ⟨_, _ | ⟨one, _ | _⟩, madeInner⟩ := instantiate_builtin rfl observed
  obtain rfl := Except.ok.inj chosen
  obtain rfl := Except.ok.inj (one.symm.trans right)
  obtain rfl := Except.ok.inj madeInner
  obtain ⟨-, rfl⟩ := inSequence_eq_ok.mp made
  exact alike_observed rfl

/-- Each base law holds of all pure agents. -/
theorem holds_of_mem_base {law : Law Id} (among : law ∈ Law.base) : law.Holds .base := by
  simp only [Law.base, List.mem_cons, List.not_mem_nil, or_false] at among
  rcases among with rfl | rfl | rfl | rfl | rfl | rfl
  · exact holds_seq_left_identity _
  · exact holds_seq_right_identity _
  · exact holds_seq_associativity _
  · exact holds_par_symmetry _
  · exact holds_branch_true _
  · exact holds_observe_transparency _

end Law

section

variable {m : Type → Type}

theorem Expr.apply_congr {operation : String} {count count' : Nat} {operand : Fin count → Expr m}
    {operand' : Fin count' → Expr m} (same : count = count')
    (each : ∀ i, operand i = operand' (i.cast same)) :
    Expr.apply operation count operand = .apply operation count' operand' := by
  subst same
  exact congrArg (Expr.apply operation count) (funext each)

variable [Monad m]

theorem Expr.lifted_applyTo (operation : String) (operands : List (Expr Id)) :
    (Expr.applyTo operation operands).lifted =
      (Expr.applyTo operation (operands.map Expr.lifted) : Expr m) := by
  refine Expr.apply_congr (List.length_map ..).symm fun i => ?_
  exact (List.getElem_map ..).symm

variable [LawfulMonad m]

/-- The fixed agents of the base laws are pure. -/
theorem Law.base_eq_map_lifted : (Law.base : List (Law m)) = Law.base.map Law.lifted := by
  have truth : (Agent.constant (.bool true)).lifted = (Agent.constant (.bool true) : Agent m) :=
    Agent.stateless_lifted ..
  have swap : Agent.swap.lifted = (Agent.swap : Agent m) := Agent.stateless_lifted ..
  have project : (Agent.project "output").lifted = (Agent.project "output" : Agent m) :=
    Agent.stateless_lifted ..
  have id : (Agent.id .any).lifted = (Agent.id .any : Agent m) := rfl
  simp only [Law.base, List.map_cons, List.map_nil, Law.lifted, Expr.lifted_applyTo, Expr.lifted,
    Expr.identity, truth, swap, project, id]

omit [LawfulMonad m] in
/-- The base laws apply operations that every algebra built on the base algebra has. -/
theorem common_of_fromBase {algebra : Algebra m} (fromBase : algebra.FromBase) {law : Law Id}
    (among : law ∈ Law.base) :
    ∀ application ∈ law.applications, Common .base algebra application.1 := by
  obtain ⟨policy, kept⟩ := fromBase.conserves
  have seq : Common .base algebra "seq" :=
    ⟨.sequence, rfl, kept.operation rfl⟩
  have par : Common .base algebra "par" :=
    ⟨.parallel, rfl, kept.operation rfl⟩
  have branch : Common .base algebra "branch" :=
    ⟨.branch, rfl, kept.operation rfl⟩
  have observe : Common .base algebra "observe" :=
    ⟨.observe, rfl, kept.operation rfl⟩
  simp only [Law.base, List.mem_cons, List.not_mem_nil, or_false] at among
  rcases among with rfl | rfl | rfl | rfl | rfl | rfl
  all_goals
    simp [Law.applications, Expr.applications, Expr.applyTo, Expr.identity, seq, par, branch,
      observe]

/-- Checking a base law with pure agents never finds it violated: not in any algebra that is built
on the base algebra, not on any scenarios, and not by running a side again. -/
theorem base_law_never_violated {algebra : Algebra m} (fromBase : algebra.FromBase) {law : Law m}
    (among : law ∈ Law.base) (settings : VerifySettings) (agents : List (Agent Id))
    (scenarios : List Scenario) :
    ∃ outcome, settings.verify algebra law.name (agents.map Agent.lifted) scenarios = pure outcome ∧
      (outcome.isSatisfied = true ∨ outcome.isInapplicable = true) := by
  have carried : law ∈ Law.base.map Law.lifted := by rwa [← Law.base_eq_map_lifted]
  obtain ⟨pureLaw, amongPure, rfl⟩ := List.mem_map.mp carried
  obtain ⟨policy, kept⟩ := fromBase.conserves
  have found : (Algebra.base : Algebra Id).law? pureLaw.name = some pureLaw :=
    Algebra.law?_baseWith .standard amongPure
  have found' : algebra.law? pureLaw.name = some pureLaw.lifted :=
    kept.law (Algebra.law?_baseWith policy among)
  exact ⟨_, VerifySettings.verify_lifted found found' (common_of_fromBase fromBase amongPure) agents
    scenarios, VerifySettings.verify_of_holds (Law.holds_of_mem_base amongPure) found scenarios⟩

/-- Where functions may count how often they are called, a branch on a constant truth is still as
good as its first arm. -/
theorem base_law_never_violated_branch :
    ∃ outcome, VerifySettings.verify {} (Algebra.base : Algebra (StateM Nat)) "branch_true"
        ([.id .any, .constant .null].map Agent.lifted) [.single (.ofNat 1)] = pure outcome ∧
      (outcome.isSatisfied = true ∨ outcome.isInapplicable = true) := by
  have among : (⟨"branch_true", .applyTo "branch" [.agent (.constant (.bool true)), .var 0, .var 1],
      .var 0, .outputs⟩ : Law (StateM Nat)) ∈ Law.base := by
    simp [Law.base]
  exact base_law_never_violated .base among {} [.id .any, .constant .null] [.single (.ofNat 1)]

end

end AgentAlgebra
