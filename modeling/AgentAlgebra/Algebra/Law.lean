import AgentAlgebra.Agent.Composite
import AgentAlgebra.Agent.Draft
/-!
# Laws

A law is an equation between two expressions. An expression names operations and applies them to
variables, which stand for the agents supplied when the law is checked, and to fixed agents.
-/

namespace AgentAlgebra

/-- A composition expression. -/
inductive Expr (m : Type → Type) where
  /-- The agent supplied at this index. -/
  | var (index : Nat)
  | agent (agent : Agent m)
  | apply (operation : String) (count : Nat) (operand : Fin count → Expr m)

namespace Expr

variable {m : Type → Type}

/-- An operation applied to a list of operands. -/
def applyTo (operation : String) (operands : List (Expr m)) : Expr m :=
  let operands := operands.toArray
  .apply operation operands.size fun i => operands[i]

/-- The identity on all values, which goes on either side of any agent. -/
def identity : Expr m := .agent (.id .any)

/-- How many agents an expression needs: one more than the greatest index in it. -/
def arity : Expr m → Nat
  | .var index => index + 1
  | .agent _ => 0
  | .apply _ _ operand => (List.ofFn fun i => arity (operand i)).foldl max 0

/-- The operations applied in an expression with the numbers of their operands, outermost and leftmost
first. -/
def applications : Expr m → List (String × Nat)
  | .var _ | .agent _ => []
  | .apply operation count operand =>
    (operation, count) :: (List.ofFn fun i => applications (operand i)).flatten

/-- The names of the variables: `a` to `z`, then `x26` and so on. -/
def variableName (index : Nat) : String :=
  if index < 26 then String.ofList [Char.ofNat ('a'.toNat + index)] else s!"x{index}"

/-- The text of an expression. -/
def text : Expr m → String
  | .var index => variableName index
  | .agent fixed => fixed.name
  | .apply operation _ operand => applied operation (List.ofFn fun i => text (operand i))

instance : ToString (Expr m) := ⟨text⟩

end Expr

/-- What a law demands to be equal on its two sides. -/
inductive Comparison where
  | outputs
  | outputsAndFrontier
deriving DecidableEq

namespace Comparison

def name : Comparison → String
  | .outputs => "outputs"
  | .outputsAndFrontier => "outputs_and_frontier"

def ofName? : String → Option Comparison
  | "outputs" => some .outputs
  | "outputs_and_frontier" => some .outputsAndFrontier
  | _ => none

end Comparison

/-- An equation between two expressions. -/
structure Law (m : Type → Type) where
  name : String
  lhs : Expr m
  rhs : Expr m
  comparison : Comparison

namespace Law

variable {m : Type → Type}

/-- The law as an equation. -/
def equation (law : Law m) : String := s!"{law.lhs} = {law.rhs}"

/-- How many agents the law is about. -/
def arity (law : Law m) : Nat := max law.lhs.arity law.rhs.arity

/-- The operations that either side applies. -/
def applications (law : Law m) : List (String × Nat) := law.lhs.applications ++ law.rhs.applications

variable [Monad m]

/-- The laws of the base algebra. -/
def base : List (Law m) :=
  let a : Expr m := .var 0
  let b : Expr m := .var 1
  let c : Expr m := .var 2
  let seq (first second : Expr m) : Expr m := .applyTo "seq" [first, second]
  [ ⟨"seq_left_identity", seq .identity a, a, .outputsAndFrontier⟩,
    ⟨"seq_right_identity", seq a .identity, a, .outputsAndFrontier⟩,
    ⟨"seq_associativity", seq (seq a b) c, seq a (seq b c), .outputsAndFrontier⟩,
    ⟨"par_symmetry", seq (.applyTo "par" [a, b]) (.agent .swap), .applyTo "par" [b, a], .outputs⟩,
    ⟨"branch_true", .applyTo "branch" [.agent (.constant (.bool true)), a, b], a, .outputs⟩,
    ⟨"observe_transparency", seq (.applyTo "observe" [a]) (.agent (.project "output")), a,
      .outputs⟩ ]

end Law

end AgentAlgebra
