import AgentAlgebra.Proofs.Effects
import AgentAlgebra.Proofs.WellFormed
import Mathlib.Data.List.Fold
import Mathlib.Data.List.MinMax
/-!
# What can go wrong with the sides of a law

Three recursions go over an expression: one counts the variables, one collects what is applied, and
one builds the agent. In an algebra that can be made they agree, because a law is only added when all
that it applies is there with the right number of operands. So with as many agents as a law is about,
each variable stands for one of them, each operation is found and gets as many agents as it takes,
and what is left to go wrong is in the operations themselves: the types of the agents do not fit, or
an extension fails of its own.
-/

namespace AgentAlgebra

variable {m : Type → Type}

namespace Expr

/-- At some place of the expression an operation of this name is applied to so many operands. -/
inductive Applies (name : String) (count : Nat) : Expr m → Prop
  | here (operand : Fin count → Expr m) : Applies name count (.apply name count operand)
  | within {outer : String} {size : Nat} {operand : Fin size → Expr m} (i : Fin size)
    (inner : Applies name count (operand i)) : Applies name count (.apply outer size operand)

variable {expr : Expr m} {name : String} {count : Nat}

/-- What is collected are all the applications, at any depth. -/
theorem mem_applications : (name, count) ∈ expr.applications ↔ expr.Applies name count := by
  constructor
  · intro among
    induction expr with
    | var index => exact nomatch among
    | agent fixed => exact nomatch among
    | apply outer size operand ih =>
      unfold applications at among
      rcases List.mem_cons.mp among with outermost | inner
      · obtain ⟨rfl, rfl⟩ := Prod.mk.inj outermost
        exact .here operand
      · obtain ⟨_, listed, among⟩ := List.mem_flatten.mp inner
        obtain ⟨i, rfl⟩ := List.mem_ofFn.mp listed
        exact .within i (ih i among)
  · intro applied
    induction applied with
    | here operand =>
      unfold applications
      exact List.mem_cons_self
    | within i _ ih =>
      unfold applications
      exact List.mem_cons_of_mem _ (List.mem_flatten.mpr ⟨_, List.mem_ofFn.mpr ⟨i, rfl⟩, ih⟩)

/-- An operand needs no more agents than the whole expression. -/
theorem arity_operand_le {size : Nat} {operand : Fin size → Expr m} (i : Fin size) :
    (operand i).arity ≤ (Expr.apply name size operand).arity := by
  conv_rhs => rw [Expr.arity, List.foldl_eq_foldr]
  exact List.le_max_of_le' 0 (List.mem_ofFn.mpr ⟨i, rfl⟩) le_rfl

end Expr

/-- Somewhere on one of its sides a law applies an operation of this name to so many operands. -/
def Law.Applies (law : Law m) (name : String) (count : Nat) : Prop :=
  law.lhs.Applies name count ∨ law.rhs.Applies name count

theorem Law.mem_applications {law : Law m} {name : String} {count : Nat} :
    (name, count) ∈ law.applications ↔ law.Applies name count := by
  unfold Law.applications Law.Applies
  rw [List.mem_append, Expr.mem_applications, Expr.mem_applications]

/-- Agents that are put together by the operation of a name, where that can only fail because types
do not fit. -/
def FailsByTypes {α : Type} (name : String) (made : Except AlgebraError α) : Prop :=
  ∀ error, made = .error error →
    ∃ mismatch expected found, error = .typeMismatch name mismatch expected found

namespace FailsByTypes

variable {α β : Type} {name : String}

theorem ok (a : α) : FailsByTypes name (.ok a) := nofun

theorem bind {made : Except AlgebraError α} {next : α → Except AlgebraError β}
    (first : FailsByTypes name made) (rest : ∀ a, FailsByTypes name (next a)) :
    FailsByTypes name (made >>= next) := by
  cases made with
  | ok a => exact rest a
  | error e => exact fun error same => first error (congrArg Except.error (Except.error.inj same))

theorem demand (mismatch : Mismatch) (expected found : ValueType) :
    FailsByTypes name (Agent.demand name mismatch expected found) := by
  unfold Agent.demand
  split
  · exact ok ()
  · exact fun _ same => ⟨mismatch, expected, found, (Except.error.inj same).symm⟩

theorem common (mismatch : Mismatch) (expected found : ValueType) (both : Option ValueType) :
    FailsByTypes name (Agent.common name mismatch expected found both) := by
  unfold Agent.common
  cases both with
  | some type => exact ok type
  | none => exact fun _ same => ⟨mismatch, expected, found, (Except.error.inj same).symm⟩

/-- A built-in operation that gets as many agents as it takes. -/
theorem compose {builtin : Builtin m} {agents : List (Agent m)}
    (count : agents.length = builtin.arity) : FailsByTypes builtin.name (builtin.compose agents) := by
  cases builtin with
  | sequence =>
    match agents, count with
    | [first, second], _ => exact .bind (demand _ _ _) fun _ => ok _
  | parallel =>
    match agents, count with
    | [left, right], _ => exact .bind (common _ _ _ _) fun _ => ok _
  | branch =>
    match agents, count with
    | [predicate, onTrue, onFalse], _ =>
      refine .bind (demand _ _ _) fun _ => .bind (common _ _ _ _) fun _ => ?_
      exact .bind (common _ _ _ _) fun _ => .bind (common _ _ _ _) fun _ => ok _
  | fix policy =>
    match agents, count with
    | [predicate, body], _ => exact .bind (demand _ _ _) fun _ => .bind (demand _ _ _) fun _ => ok _
  | observe =>
    match agents, count with
    | [inner], _ => exact ok _

end FailsByTypes

namespace Operation

/-- The operations that can be made: the built-in ones, each under its own name and with its own
number of agents, and those that build their results by a function of their own. -/
inductive Made : Operation m → Prop
  | ofBuiltin (builtin : Builtin m) : Made (.ofBuiltin builtin)
  | extension (name : String) (arity : Nat) (signature : String)
    (build : List (Agent m) → ExceptT AlgebraError m (Agent m)) :
    Made ⟨name, arity, signature, .extension build⟩

open MonadAttach

variable [Monad m] [MonadAttach m]

/-- The errors that an operation makes itself: a built-in one refuses agents whose types do not fit,
and the function of an extension can return an error for as many agents as the extension takes. -/
inductive Raises (operation : Operation m) : AlgebraError → Prop
  | types {builtin : Builtin m} {agents : List (Agent m)} {mismatch : Mismatch}
    {expected found : ValueType} (composer : operation.composer = .builtin builtin)
    (refused : builtin.compose agents =
      .error (.typeMismatch builtin.name mismatch expected found)) :
    Raises operation (.typeMismatch builtin.name mismatch expected found)
  | extension {build : List (Agent m) → ExceptT AlgebraError m (Agent m)}
    {agents : List (Agent m)} {error : AlgebraError}
    (composer : operation.composer = .extension build) (count : agents.length = operation.arity)
    (returned : CanReturn (build agents).run (.error error)) : Raises operation error

variable [LawfulMonad m] [WeaklyLawfulMonadAttach m]

/-- With as many agents as it takes, an operation fails only by itself. -/
theorem Made.apply {operation : Operation m} (made : operation.Made) {agents : List (Agent m)}
    (count : agents.length = operation.arity) :
    Yields (operation.apply agents) (fun _ => True) operation.Raises := by
  unfold Operation.apply
  rw [if_pos count]
  cases made with
  | ofBuiltin builtin =>
    change Yields (liftExcept (builtin.compose agents)) _ _
    cases composed : builtin.compose agents with
    | ok agent => exact .pure trivial
    | error error =>
      obtain ⟨_, _, _, rfl⟩ := FailsByTypes.compose count error composed
      exact .throw (.types rfl composed)
  | extension name arity signature build =>
    refine Ensures.mono (ensures_canReturn (build agents)) fun result returned => ?_
    exact ⟨fun _ _ => trivial, fun error same => .extension rfl count (same ▸ returned)⟩

end Operation

namespace Algebra

variable [Monad m] [LawfulMonad m] {algebra : Algebra m} {agents : List (Agent m)}

omit [Monad m] [LawfulMonad m] in
/-- What is found under a name is an operation of that name. -/
theorem mem_of_operation? {name : String} {operation : Operation m}
    (known : algebra.operation? name = some operation) :
    operation ∈ algebra.operations ∧ operation.name = name := by
  unfold operation? at known
  exact ⟨List.mem_of_find?_eq_some known, by simpa using List.find?_some known⟩

open MonadAttach

variable [MonadAttach m]

/-- The error was made by an operation of the algebra that the expression applies. -/
def MadeWithin (algebra : Algebra m) (expr : Expr m) (error : AlgebraError) : Prop :=
  ∃ operation ∈ algebra.operations, expr.Applies operation.name operation.arity ∧
    operation.Raises error

/-- If all that an expression applies is there, and all its variables stand for agents, then it fails
only by the operations that it applies. -/
theorem yields_instantiate [WeaklyLawfulMonadAttach m]
    (made : ∀ operation ∈ algebra.operations, operation.Made) {expr : Expr m}
    (there : ∀ name count, expr.Applies name count →
      ∃ operation, algebra.operation? name = some operation ∧ operation.arity = count)
    (enough : expr.arity ≤ agents.length) :
    Yields (expr.instantiate algebra agents) (fun _ => True) (algebra.MadeWithin expr) := by
  induction expr with
  | var index =>
    unfold Expr.instantiate
    have within : index < agents.length := enough
    rw [List.getElem?_eq_getElem within]
    exact .pure trivial
  | agent fixed => exact .pure trivial
  | apply name count operand ih =>
    unfold Expr.instantiate
    have operands (i : Fin count) : Yields ((operand i).instantiate algebra agents)
        (fun _ => True) (algebra.MadeWithin (.apply name count operand)) := by
      refine (ih i (fun _ _ applied => there _ _ (.within i applied))
        ((Expr.arity_operand_le i).trans enough)).mono (fun _ => id) ?_
      rintro error ⟨operation, among, applied, raised⟩
      exact ⟨operation, among, .within i applied, raised⟩
    refine .bind (.mapM fun i _ => operands i) fun built length => ?_
    obtain ⟨operation, known, rfl⟩ := there name count (.here operand)
    obtain ⟨among, rfl⟩ := mem_of_operation? known
    unfold Algebra.compose
    rw [known]
    have supplied : built.length = operation.arity := by
      rw [length, List.length_finRange]
    refine ((made operation among).apply supplied).mono (fun _ => id) fun error raised => ?_
    exact ⟨operation, among, .here operand, raised⟩

theorem yields_sides [WeaklyLawfulMonadAttach m]
    (made : ∀ operation ∈ algebra.operations, operation.Made) {law : Law m}
    (there : ∀ name count, law.Applies name count →
      ∃ operation, algebra.operation? name = some operation ∧ operation.arity = count)
    (bound : agents.length = law.arity) :
    Yields (law.sides algebra agents) (fun _ => True) fun error =>
      ∃ operation ∈ algebra.operations, law.Applies operation.name operation.arity ∧
        operation.Raises error := by
  unfold Law.sides
  rw [if_pos bound]
  have lhs := yields_instantiate made (fun _ _ applied => there _ _ (.inl applied))
    ((Nat.le_max_left ..).trans_eq bound.symm)
  have rhs := yields_instantiate made (fun _ _ applied => there _ _ (.inr applied))
    ((Nat.le_max_right ..).trans_eq bound.symm)
  refine .bind (lhs.mono (fun _ => id) ?_) fun _ _ =>
    .bind (rhs.mono (fun _ => id) ?_) fun _ _ => .pure trivial
  · rintro error ⟨operation, among, applied, raised⟩
    exact ⟨operation, among, .inl applied, raised⟩
  · rintro error ⟨operation, among, applied, raised⟩
    exact ⟨operation, among, .inr applied, raised⟩

/-- In every algebra that can be made no operation and no law shares its name with another, and
whatever a law applies, at any depth of either side, is an operation that is there, applied to as
many operands as it takes. So with as many agents as a law is about, its sides fail only by an
operation that the law applies: a built-in one refuses types that do not fit, or the function of an
extension returns an error. -/
theorem law_fails_only_by_operations [LawfulMonadAttach m] (made : algebra.Made)
    (constructed : ∀ operation ∈ algebra.operations, operation.Made) :
    (algebra.operations.map Operation.name).Nodup ∧ (algebra.laws.map Law.name).Nodup ∧
    ∀ law ∈ algebra.laws,
      (∀ name count, law.Applies name count →
        ∃ operation ∈ algebra.operations, operation.name = name ∧ operation.arity = count) ∧
      ∀ agents : List (Agent m), agents.length = law.arity → ∀ error,
        CanReturn (law.sides algebra agents).run (.error error) →
          ∃ operation ∈ algebra.operations, law.Applies operation.name operation.arity ∧
            operation.Raises error := by
  have wellFormed := made.wellFormed
  refine ⟨wellFormed.operations, wellFormed.laws, fun law among => ?_⟩
  have there (name : String) (count : Nat) (applied : law.Applies name count) :
      ∃ operation, algebra.operation? name = some operation ∧ operation.arity = count :=
    fault?_eq_none.mp (wellFormed.applications law among _ (Law.mem_applications.mpr applied))
  constructor
  · intro name count applied
    obtain ⟨operation, known, takes⟩ := there name count applied
    obtain ⟨among, named⟩ := mem_of_operation? known
    exact ⟨operation, among, named, takes⟩
  · intro agents bound error returned
    exact (Ensures.of_canReturn (yields_sides constructed there bound) returned).2 error rfl

/-- An extension that builds nothing, and says of each agent that there is no operation of its name.
-/
def refusing : Operation Id := ⟨"refuse", 1, "(X -> Y) -> (X -> Y)", .extension fun agents =>
  throw (.unknownOperation "refusals" (joinTexts ", " (agents.map Agent.name)))⟩

/-- A law on it. -/
def refusals : Law Id :=
  ⟨"refusals", .applyTo "seq" [.applyTo "refuse" [.var 0], .var 0], .var 0, .outputs⟩

/-- The base algebra with both. -/
def baseWithRefusals : Algebra Id :=
  ⟨"refusals", some "base", base.operations ++ [refusing], base.laws ++ [refusals]⟩

/-- An operation is said to be unknown only where an extension says so. -/
theorem law_fails_only_by_operations_refusing :
    base.extend "refusals" [refusing] [refusals] = .ok baseWithRefusals ∧
      (refusals.sides baseWithRefusals [.swap]).run =
        .error (.unknownOperation "refusals" "swap") ∧
      ∃ operation ∈ baseWithRefusals.operations,
        refusals.Applies operation.name operation.arity ∧
          operation.Raises (.unknownOperation "refusals" "swap") := by
  have extended : base.extend "refusals" [refusing] [refusals] = .ok baseWithRefusals := rfl
  have constructed : ∀ operation ∈ baseWithRefusals.operations, operation.Made := by
    intro operation among
    rcases List.mem_append.mp among with catalogued | added
    · obtain ⟨builtin, -, rfl⟩ := List.mem_map.mp catalogued
      exact .ofBuiltin builtin
    · obtain rfl := List.mem_singleton.mp added
      exact .extension ..
  have failed : (refusals.sides baseWithRefusals [.swap]).run =
    .error (.unknownOperation "refusals" "swap") := rfl
  obtain ⟨-, -, laws⟩ :=
    law_fails_only_by_operations ((Made.baseWith .standard).extend extended) constructed
  have among : refusals ∈ baseWithRefusals.laws :=
    List.mem_append_right _ List.mem_cons_self
  exact ⟨extended, failed, (laws refusals among).2 [.swap] rfl _ failed⟩

end Algebra

end AgentAlgebra
