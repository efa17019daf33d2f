import AgentAlgebra.Proofs.Reading
import AgentAlgebra.Proofs.Sides
/-!
# The names of what is built

An agent that is built by built-in operations is named by the text of the expression that it is
built of, with the names of the agents supplied in the places of the variables. So an equation
between expressions, as it is written, is one between the names of its two sides when the agents
supplied are named as the variables are.
-/

namespace AgentAlgebra

variable {m : Type → Type}

namespace Expr

variable {index : Nat}

theorem variableName_of_lt (letter : index < 26) :
    variableName index = String.ofList [Char.ofNat ('a'.toNat + index)] :=
  if_pos letter

theorem variableName_of_le (numbered : 26 ≤ index) : variableName index = "x" ++ index.repr :=
  if_neg (Nat.not_lt.mpr numbered)

theorem length_variableName_eq_one : (variableName index).length = 1 ↔ index < 26 := by
  by_cases letter : index < 26
  · simp [variableName_of_lt, letter]
  · have x : "x".length = 1 := rfl
    have some : 0 < index.repr.length := Nat.length_repr_pos
    rw [variableName_of_le (Nat.le_of_not_lt letter), String.length_append]
    omega

/-- No two variables have one name: letters differ, numbers do, and only a letter stands alone. -/
theorem variableName_injective : Function.Injective variableName := by
  intro index index' same
  have alike : index < 26 ↔ index' < 26 := by
    rw [← length_variableName_eq_one, same, length_variableName_eq_one]
  by_cases letter : index < 26
  · rw [variableName_of_lt letter, variableName_of_lt (alike.mp letter), String.ofList_inj] at same
    have letters : ∀ i < 26, ∀ j < 26,
        Char.ofNat ('a'.toNat + i) = Char.ofNat ('a'.toNat + j) → i = j := by decide
    exact letters index letter index' (alike.mp letter) (List.singleton_inj.mp same)
  · rw [variableName_of_le (by omega), variableName_of_le (by omega)] at same
    have read (i : Nat) : Nat.ofDigitChars 10 i.repr.toList 0 = i := by
      rw [Nat.toList_repr, Nat.ofDigitChars_ten_toDigits]
    have digits : index.repr.toList = index'.repr.toList := by
      simpa [String.toList_append] using congrArg String.toList same
    rw [← read index, digits, read]

/-- An application needs no more agents than its operands do. -/
theorem arity_apply_le {name : String} {count bound : Nat} {operand : Fin count → Expr m}
    (each : ∀ i, (operand i).arity ≤ bound) : (Expr.apply name count operand).arity ≤ bound := by
  rw [arity, List.foldl_eq_foldr]
  refine List.max_le_of_forall_le _ _ fun needed among => ?_
  obtain ⟨i, rfl⟩ := List.mem_ofFn.mp among
  exact each i

end Expr

/-- Names for the variables: each variable that stands for an agent has the name of that agent. -/
def Naming (agents : List (Agent m)) (naming : Nat → String) : Prop :=
  ∀ index agent, agents[index]? = some agent → naming index = agent.name

/-- Every operation that an expression applies is a built-in one of the algebra. -/
def Expr.BuiltIn (algebra : Algebra m) (expr : Expr m) : Prop :=
  ∀ name count, expr.Applies name count →
    ∃ builtin, algebra.operation? name = some (.ofBuiltin builtin)

variable [Monad m] {algebra : Algebra m}

/-- What a built-in operation of the algebra makes is named as it is applied. -/
theorem settles_compose {name : String} {builtin : Builtin m}
    (known : algebra.operation? name = some (.ofBuiltin builtin)) (agents : List (Agent m)) :
    Settles (algebra.compose name agents) fun agent =>
      agent.name = applied name (agents.map Agent.name) := by
  obtain ⟨-, named⟩ := Algebra.mem_of_operation? known
  unfold Algebra.compose
  rw [known]
  show Settles ((Operation.ofBuiltin builtin).apply agents) _
  unfold Operation.apply
  by_cases counted : agents.length = (Operation.ofBuiltin builtin).arity
  · rw [if_pos counted]
    show Settles (liftExcept (builtin.compose agents) : ExceptT AlgebraError m (Agent m)) _
    cases composed : builtin.compose agents with
    | ok agent =>
      have text := Builtin.name_of_compose composed
      rw [show builtin.name = name from named] at text
      exact .pure text
    | error e => exact .throw e
  · rw [if_neg counted]
    exact .throw _

variable [LawfulMonad m] (agents : List (Agent m))

/-- Building an expression of built-in operations has no effects. If an agent comes of it, every
variable stands for one of the agents supplied, and the agent is named by the text of the expression
with their names. -/
theorem settles_instantiate {expr : Expr m} (builtIn : expr.BuiltIn algebra) :
    Settles (expr.instantiate algebra agents) fun agent =>
      expr.arity ≤ agents.length ∧
        ∀ naming, Naming agents naming → agent.name = expr.textWith naming := by
  induction expr with
  | var index =>
    unfold Expr.instantiate
    cases bound : agents[index]? with
    | some agent =>
      refine .pure ⟨?_, fun naming names => (names index agent bound).symm⟩
      exact (List.getElem?_eq_some_iff.mp bound).1
    | none => exact .throw _
  | agent fixed => exact .pure ⟨Nat.zero_le _, fun _ _ => rfl⟩
  | apply name count operand ih =>
    unfold Expr.instantiate
    have operands (i : Fin count) := ih i fun _ _ applied => builtIn _ _ (.within i applied)
    refine (Settles.mapM fun i _ => operands i).bind fun built each => ?_
    -- No agent at all is built for a missing variable, so the operands come with their bounds.
    obtain ⟨enough, texts⟩ := (List.forall₂_and_left _ _).mp each
    obtain ⟨builtin, known⟩ := builtIn name count (.here operand)
    obtain ⟨result, ran, named⟩ := settles_compose known built
    refine ⟨result, ran, fun agent made => ⟨?_, fun naming names => ?_⟩⟩
    · exact Expr.arity_apply_le fun i => enough i (List.mem_finRange i)
    · have texts : (List.finRange count).map (fun i => (operand i).textWith naming) =
          built.map Agent.name := by
        rw [← List.forall₂_eq_eq_eq, List.forall₂_map_left_iff, List.forall₂_map_right_iff]
        exact texts.imp fun _ _ named => (named naming names).symm
      rw [named agent made, ← texts, Expr.textWith, List.ofFn_eq_map]

/-- The equation of a law, as it is written, is the one between the names of its sides when the
agents supplied are named as the variables are. -/
theorem settles_sides {law : Law m} (lhs : law.lhs.BuiltIn algebra)
    (rhs : law.rhs.BuiltIn algebra) : Settles (law.sides algebra agents) fun sides =>
      Naming agents Expr.variableName → law.equation = sides.1.name ++ " = " ++ sides.2.name := by
  unfold Law.sides
  split
  · refine (settles_instantiate agents lhs).bind fun left one => ?_
    refine (settles_instantiate agents rhs).bind fun right two => ?_
    refine .pure fun names => ?_
    rw [one.2 _ names, two.2 _ names, Expr.textWith_variableName, Expr.textWith_variableName]
    simp [Law.equation, toString]
  · exact .throw _

/-- An agent that is built of an expression is named by the text of the expression in which each
variable is replaced by the name of the agent that it stands for. The names of the variables differ,
and the agent is named by the text itself if the agents supplied are named as the variables are. -/
theorem named_as_written {expr : Expr m} (builtIn : expr.BuiltIn algebra) :
    (∃ result, (expr.instantiate algebra agents).run = pure result ∧
      ∀ agent, result = .ok agent →
        expr.arity ≤ agents.length ∧
        (∀ naming, Naming agents naming → agent.name = expr.textWith naming) ∧
        (Naming agents Expr.variableName → agent.name = expr.text)) ∧
      expr.textWith Expr.variableName = expr.text ∧
      Function.Injective Expr.variableName := by
  refine ⟨?_, expr.textWith_variableName, Expr.variableName_injective⟩
  obtain ⟨result, ran, built⟩ := settles_instantiate agents builtIn
  refine ⟨result, ran, fun agent made => ?_⟩
  obtain ⟨enough, named⟩ := built agent made
  refine ⟨enough, named, fun names => ?_⟩
  rw [← expr.textWith_variableName]
  exact named _ names

/-- Agents that are named as the first variables are. -/
def lettered : List (Agent Id) :=
  [.predicate "a" .any fun _ => pure true, .stateless "b" .untyped pure,
    .stateless "c" .untyped pure]

/-- An expression that applies every built-in operation. -/
def nested : Expr Id :=
  .applyTo "branch" [.var 0, .applyTo "seq" [.applyTo "observe" [.var 1], .identity],
    .applyTo "fix" [.var 0, .applyTo "par" [.var 1, .var 2]]]

theorem naming_lettered : Naming lettered Expr.variableName := by
  intro index agent bound
  match index with
  | 0 | 1 | 2 =>
    cases bound
    rfl
  | index + 3 => cases bound

theorem builtIn_nested : nested.BuiltIn .base := by
  intro name count applied
  have among := Expr.mem_applications.mpr applied
  have listed : nested.applications =
      [("branch", 3), ("seq", 2), ("observe", 1), ("fix", 2), ("par", 2)] := rfl
  simp only [listed, List.mem_cons, List.not_mem_nil, or_false, Prod.mk.injEq] at among
  rcases among with ⟨rfl, -⟩ | ⟨rfl, -⟩ | ⟨rfl, -⟩ | ⟨rfl, -⟩ | ⟨rfl, -⟩
  · exact ⟨.branch, rfl⟩
  · exact ⟨.sequence, rfl⟩
  · exact ⟨.observe, rfl⟩
  · exact ⟨.fix .standard, rfl⟩
  · exact ⟨.parallel, rfl⟩

/-- An agent that every built-in operation has a part in is named by the text of its expression. -/
theorem named_as_written_nested :
    nested.BuiltIn .base ∧ Naming lettered Expr.variableName ∧
      ∃ agent, (nested.instantiate .base lettered).run = .ok agent ∧ agent.name = nested.text ∧
        nested.text = "branch(a, seq(observe(b), id), fix(a, par(b, c)))" := by
  obtain ⟨⟨result, ran, named⟩, -⟩ := named_as_written lettered builtIn_nested
  have built : ∃ agent, (nested.instantiate .base lettered).run = .ok agent := ⟨_, rfl⟩
  obtain ⟨agent, made⟩ := built
  have text := (named agent (ran.symm.trans made)).2.2 naming_lettered
  exact ⟨builtIn_nested, naming_lettered, agent, made, text, rfl⟩

end AgentAlgebra
