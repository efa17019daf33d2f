import AgentAlgebra.Proofs.Congruence
import AgentAlgebra.Proofs.Positions
/-!
# Equivalent agents may stand for each other

In any nesting of sequences, parallel agents, branches and retries, an operand may be replaced by an
equivalent one. The nesting is a `Context`, whose holes are filled by agents; filling it with
equivalent agents is refused for the same types or gives equivalent agents.
-/

namespace AgentAlgebra

namespace Agent

/-- Two results of putting agents together: both are related, or both were refused by the same
operation over the same types. The words differ only in the names of the agents. -/
inductive Alongside {α β : Type} (related : α → β → Prop) :
    Except AlgebraError α → Except AlgebraError β → Prop
  | made {a : α} {b : β} (holds : related a b) : Alongside related (.ok a) (.ok b)
  | refused (operation : String) (mismatch mismatch' : Mismatch) (expected found : ValueType) :
    Alongside related (.error (.typeMismatch operation mismatch expected found))
      (.error (.typeMismatch operation mismatch' expected found))

namespace Alongside

variable {α β γ δ : Type} {related : α → β → Prop} {after : γ → δ → Prop}
  {x : Except AlgebraError α} {y : Except AlgebraError β} {f : α → Except AlgebraError γ}
  {g : β → Except AlgebraError δ}

theorem bind (one : Alongside related x y) (rest : ∀ a b, related a b → Alongside after (f a) (g b)) :
    Alongside after (x >>= f) (y >>= g) := by
  cases one with
  | made holds => exact rest _ _ holds
  | refused operation mismatch mismatch' expected found =>
    exact .refused operation mismatch mismatch' expected found

theorem demand (operation : String) (mismatch mismatch' : Mismatch) (expected found : ValueType) :
    Alongside (fun _ _ => True) (demand operation mismatch expected found)
      (Agent.demand operation mismatch' expected found) := by
  unfold Agent.demand
  split
  · exact .made trivial
  · exact .refused operation mismatch mismatch' expected found

theorem common (operation : String) (mismatch mismatch' : Mismatch) (expected found : ValueType)
    (both : Option ValueType) :
    Alongside Eq (common operation mismatch expected found both)
      (Agent.common operation mismatch' expected found both) := by
  cases both with
  | some type => exact .made rfl
  | none => exact .refused operation mismatch mismatch' expected found

end Alongside

namespace Equivalent

variable {a a' b b' c c' agent : Agent Id}

theorem input (equivalent : Equivalent a a') : a'.input = a.input :=
  congrArg Signature.input equivalent.1.symm

theorem output (equivalent : Equivalent a a') : a'.output = a.output :=
  congrArg Signature.output equivalent.1.symm

/-- An agent that can be made is equivalent to itself. -/
theorem of_built (built : agent.Built) : Equivalent agent agent :=
  ⟨rfl, agent.Stays, ⟨rfl, built.isPosition_initial⟩, bisimulation_stays agent⟩

theorem inSequence (one : Equivalent a a') (two : Equivalent b b') :
    Alongside Equivalent (a.inSequence b) (a'.inSequence b') := by
  unfold Agent.inSequence
  rw [one.input, one.output, two.input, two.output]
  refine .bind (.demand ..) fun _ _ _ => .made ⟨by simp only [signature, header], ?_⟩
  obtain ⟨-, r, start, bisimulation⟩ := one
  obtain ⟨-, s, start', bisimulation'⟩ := two
  exact ⟨Paired r s, ⟨_, _, _, _, rfl, rfl, start, start'⟩, bisimulation.sequence bisimulation'⟩

theorem inParallel (one : Equivalent a a') (two : Equivalent b b') :
    Alongside Equivalent (a.inParallel b) (a'.inParallel b') := by
  unfold Agent.inParallel
  rw [one.input, one.output, two.input, two.output]
  refine .bind (.common ..) fun type type' same => ?_
  subst same
  refine .made ⟨by simp only [signature, header], ?_⟩
  obtain ⟨-, r, start, bisimulation⟩ := one
  obtain ⟨-, s, start', bisimulation'⟩ := two
  exact ⟨Paired r s, ⟨_, _, _, _, rfl, rfl, start, start'⟩, bisimulation.parallel bisimulation'⟩

theorem branching (one : Equivalent a a') (two : Equivalent b b') (three : Equivalent c c') :
    Alongside Equivalent (a.branching b c) (a'.branching b' c') := by
  unfold Agent.branching
  rw [one.input, one.output, two.input, two.output, three.input, three.output]
  refine .bind (.demand ..) fun _ _ _ => ?_
  refine .bind (.common ..) fun arms arms' same => ?_
  subst same
  refine .bind (.common ..) fun input input' same => ?_
  subst same
  refine .bind (.common ..) fun output output' same => ?_
  subst same
  refine .made ⟨by simp only [signature, header], ?_⟩
  obtain ⟨-, r, start, bisimulation⟩ := one
  obtain ⟨-, s, start', bisimulation'⟩ := two
  obtain ⟨-, t, start'', bisimulation''⟩ := three
  exact ⟨Tripled r s t, ⟨_, _, _, _, _, _, rfl, rfl, start, start', start''⟩,
    bisimulation.branch bisimulation' bisimulation''⟩

theorem retrying (one : Equivalent a a') (two : Equivalent b b') (policy : RetryPolicy Id) :
    Alongside Equivalent (a.retrying b policy) (a'.retrying b' policy) := by
  unfold Agent.retrying
  rw [one.input, one.output, two.input, two.output]
  refine .bind (.demand ..) fun _ _ _ => .bind (.demand ..) fun _ _ _ => ?_
  refine .made ⟨by simp only [signature, header], ?_⟩
  obtain ⟨-, r, start, bisimulation⟩ := one
  obtain ⟨-, s, start', bisimulation'⟩ := two
  exact ⟨Paired r s, ⟨_, _, _, _, rfl, rfl, start, start'⟩, bisimulation.fix bisimulation'⟩

end Equivalent

/-- A nesting of operations over agents, some of which are left open. -/
inductive Context where
  /-- An operand that is left open. -/
  | hole (index : Nat)
  | agent (fixed : Agent Id) (built : fixed.Built)
  | sequence (first second : Context)
  | parallel (left right : Context)
  | branch (predicate onTrue onFalse : Context)
  | fix (predicate body : Context) (policy : RetryPolicy Id)

namespace Context

/-- Put the agents together, with these in the holes. -/
def fill (holes : Nat → Agent Id) : Context → Except AlgebraError (Agent Id)
  | .hole index => .ok (holes index)
  | .agent fixed _ => .ok fixed
  | .sequence first second => do
    (← first.fill holes).inSequence (← second.fill holes)
  | .parallel left right => do
    (← left.fill holes).inParallel (← right.fill holes)
  | .branch predicate onTrue onFalse => do
    (← predicate.fill holes).branching (← onTrue.fill holes) (← onFalse.fill holes)
  | .fix predicate body policy => do
    (← predicate.fill holes).retrying (← body.fill holes) policy

end Context

/-- Replacing operands by equivalent ones, in whatever slots of whatever nesting, gives equivalent
agents, or a mismatch of types both before and after. -/
theorem equivalent_fill (context : Context) {holes holes' : Nat → Agent Id}
    (each : ∀ index, Equivalent (holes index) (holes' index)) :
    Alongside Equivalent (context.fill holes) (context.fill holes') := by
  induction context with
  | hole index => exact .made (each index)
  | agent fixed built => exact .made (.of_built built)
  | sequence first second one two =>
    exact .bind one fun a a' same => .bind two fun b b' same' => same.inSequence same'
  | parallel left right one two =>
    exact .bind one fun a a' same => .bind two fun b b' same' => same.inParallel same'
  | branch predicate onTrue onFalse one two three =>
    exact .bind one fun a a' same => .bind two fun b b' same' => .bind three fun c c' same'' =>
      same.branching same' same''
  | fix predicate body policy one two =>
    exact .bind one fun a a' same => .bind two fun b b' same' => same.retrying same' policy

/-- The identity on all values, twice in sequence. -/
def idTwice : Agent Id :=
  .sequence ⟨"seq(id, id)", ⟨.any, .any⟩, .pair .null .null⟩ (.id .any) (.id .any)

/-- It is equivalent to the identity, although its positions are others. -/
theorem equivalent_idTwice : Equivalent (.id .any) idTwice := by
  have once : ∀ input, ((Agent.id .any : Agent Id).step .null input).run = .ok ⟨.null, input, []⟩ :=
    fun input => step_identity.mpr ⟨rfl, rfl⟩
  refine ⟨rfl, fun p q => p = .null ∧ q = .pair .null .null, ⟨rfl, rfl⟩, ?_⟩
  refine ⟨?_, ?_, ?_⟩
  · rintro _ _ ⟨rfl, rfl⟩
    exact ⟨rfl, rfl⟩
  · rintro _ _ ⟨rfl, rfl⟩
    rfl
  · rintro _ _ ⟨rfl, rfl⟩ input
    have twice : (idTwice.step (.pair .null .null) input).run =
        .ok ⟨.pair .null .null, input, []⟩ :=
      step_sequence.mpr ⟨_, once input, _, once input, rfl⟩
    rw [once, twice]
    exact .moved rfl ⟨rfl, rfl⟩

/-- A retry of an open body, as one arm of a branch. -/
def retryingArm : Context :=
  .branch (.agent (.constant (.bool true)) (.constant _))
    (.fix (.agent (.constant (.bool false)) (.constant _)) (.hole 0) .standard)
    (.agent (.id .any) (.id _))

/-- There the identity may be exchanged for the two in sequence. -/
theorem equivalent_fill_idTwice :
    ∃ made made', retryingArm.fill (fun _ => .id .any) = .ok made ∧
      retryingArm.fill (fun _ => idTwice) = .ok made' ∧ Equivalent made made' := by
  have alongside := equivalent_fill retryingArm fun _ => equivalent_idTwice
  obtain ⟨made, composed⟩ : ∃ made, retryingArm.fill (fun _ => .id .any) = .ok made := ⟨_, rfl⟩
  obtain ⟨made', composed'⟩ : ∃ made', retryingArm.fill (fun _ => idTwice) = .ok made' := ⟨_, rfl⟩
  rw [composed, composed'] at alongside
  cases alongside with
  | made holds => exact ⟨made, made', composed, composed', holds⟩

end Agent

end AgentAlgebra
