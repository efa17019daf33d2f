import AgentAlgebra.Algebra.Basic
import Mathlib.Data.Fintype.Basic
import Mathlib.Data.Finset.Lattice.Fold
import Mathlib.Order.Lattice.Nat
/-!
# Trees of operations

An expression whose variables stand for given agents and whose every application succeeds is a tree of
operations over these agents, and it has a value: `Composes`. The agent that comes of a tree is named
by the text of the tree, with the names of the given agents at the leaves.
-/

namespace AgentAlgebra

variable {m : Type → Type}

namespace Expr

/-- How deeply operations are nested in an expression. -/
def height : Expr m → Nat
  | .var _ | .agent _ => 0
  | .apply _ _ operand => (Finset.univ.sup fun i => height (operand i)) + 1

/-- The text of an expression with other names for its variables. -/
def textWith (name : Nat → String) : Expr m → String
  | .var index => name index
  | .agent fixed => fixed.name
  | .apply operation _ operand => applied operation (List.ofFn fun i => textWith name (operand i))

variable {operation : String} {operands : List (Expr m)} {bound : Nat}

theorem textWith_variableName (expr : Expr m) : expr.textWith variableName = expr.text := by
  induction expr with
  | var index => rfl
  | agent fixed => rfl
  | apply operation count operand ih => simp only [textWith, text, ih]

theorem apply_eq_applyTo (operation : String) {count : Nat} (operand : Fin count → Expr m) :
    .apply operation count operand = applyTo operation (List.ofFn operand) := by
  have size : (List.ofFn operand).toArray.size = count := by simp
  unfold applyTo
  congr 1
  · exact size.symm
  · refine Function.hfunext (by rw [size]) fun i j same => heq_of_eq ?_
    have place : i.val = j.val := (Fin.heq_ext_iff size.symm).mp same
    rw [Fin.getElem_fin, List.getElem_toArray, List.getElem_ofFn]
    exact congrArg operand (Fin.ext place)

theorem applyTo_eq_apply (operation : String) (operands : List (Expr m)) :
    applyTo operation operands = .apply operation operands.length operands.get := rfl

theorem applyTo_inj {other : String} {others : List (Expr m)} :
    applyTo operation operands = applyTo other others ↔ operation = other ∧ operands = others := by
  constructor
  · intro same
    rw [applyTo_eq_apply, applyTo_eq_apply] at same
    injection same with name count family
    refine ⟨name, ?_⟩
    rw [← List.ofFn_get operands, ← List.ofFn_get others]
    exact List.ofFn_inj'.mpr (Sigma.ext count family)
  · rintro ⟨rfl, rfl⟩
    rfl

/-- An application is as low as its operands allow. -/
theorem height_applyTo_le :
    (applyTo operation operands).height ≤ bound + 1 ↔ ∀ operand ∈ operands, operand.height ≤ bound := by
  rw [applyTo_eq_apply, height, Nat.add_le_add_iff_right, Finset.sup_le_iff, List.forall_mem_iff_get]
  simp

/-- An application is higher than a bound if one of its operands is at least as high, and any
application is higher than 0. -/
theorem lt_height_applyTo :
    bound < (applyTo operation operands).height ↔
      bound = 0 ∨ ∃ operand ∈ operands, bound ≤ operand.height := by
  cases bound with
  | zero => simp [applyTo_eq_apply, height]
  | succ bound =>
    rw [← not_le, height_applyTo_le]
    simp only [not_forall, not_le, exists_prop, Nat.succ_ne_zero, false_or, Nat.succ_le_iff]

end Expr

/-- The name of the agent that a variable stands for; a variable that stands for none keeps its own. -/
def nameBound (agents : List (Agent m)) (index : Nat) : String :=
  match agents[index]? with
  | some agent => agent.name
  | none => Expr.variableName index

variable [Monad m]

/-- The operation makes this agent of as many agents as it takes. -/
def Operation.Makes (operation : Operation m) (agents : List (Agent m)) (agent : Agent m) : Prop :=
  agents.length = operation.arity ∧
    match operation.composer with
    | .builtin builtin => builtin.compose agents = .ok agent
    | .extension build => (build agents).run = pure (.ok agent)

/-- The expression is a tree of operations of the algebra over the agents given, and this agent is its
value: each leaf is one of the agents given, and at each node the operation succeeds. -/
inductive Composes (algebra : Algebra m) (primitives : List (Agent m)) : Expr m → Agent m → Prop
  | leaf {index : Nat} {agent : Agent m} (bound : primitives[index]? = some agent) :
    Composes algebra primitives (.var index) agent
  | node {operation : Operation m} {count : Nat} {operand : Fin count → Expr m}
    {agents : Fin count → Agent m} {agent : Agent m} (among : operation ∈ algebra.operations)
    (operands : ∀ i, Composes algebra primitives (operand i) (agents i))
    (made : operation.Makes (List.ofFn agents) agent) :
    Composes algebra primitives (.apply operation.name count operand) agent

variable {algebra : Algebra m} {primitives : List (Agent m)} {tree : Expr m} {agent : Agent m}

/-- An application has a value just when an operation of its name makes it of values of the operands. -/
theorem composes_applyTo {name : String} {operands : List (Expr m)} :
    Composes algebra primitives (.applyTo name operands) agent ↔
      ∃ operation ∈ algebra.operations, operation.name = name ∧
        ∃ parts : List (Expr m × Agent m), parts.map Prod.fst = operands ∧
          (∀ part ∈ parts, Composes algebra primitives part.1 part.2) ∧
          operation.Makes (parts.map Prod.snd) agent := by
  constructor
  · intro composed
    generalize applied : Expr.applyTo name operands = expr at composed
    cases composed with
    | leaf bound => exact nomatch applied
    | @node operation count operand agents agent among each made =>
      rw [Expr.apply_eq_applyTo, Expr.applyTo_inj] at applied
      obtain ⟨rfl, rfl⟩ := applied
      refine ⟨operation, among, rfl, List.ofFn fun i => (operand i, agents i), ?_, ?_, ?_⟩
      · rw [List.map_ofFn]
        rfl
      · intro part found
        obtain ⟨i, rfl⟩ := (List.mem_ofFn' _ _).mp found
        exact each i
      · rw [List.map_ofFn]
        exact made
  · rintro ⟨operation, among, rfl, parts, rfl, each, made⟩
    have operand : parts.map Prod.fst = List.ofFn fun i => (parts.get i).1 := by
      conv_lhs => rw [← List.ofFn_get parts, List.map_ofFn]
      rfl
    have agents : parts.map Prod.snd = List.ofFn fun i => (parts.get i).2 := by
      conv_lhs => rw [← List.ofFn_get parts, List.map_ofFn]
      rfl
    rw [operand, ← Expr.apply_eq_applyTo]
    rw [agents] at made
    exact .node among (fun i => each _ (List.get_mem parts i)) made

end AgentAlgebra
