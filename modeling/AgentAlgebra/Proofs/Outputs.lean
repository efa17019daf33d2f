import AgentAlgebra.Agent.Step
import AgentAlgebra.Proofs.Construction
import AgentAlgebra.Proofs.Effects
import AgentAlgebra.Proofs.Steps
import AgentAlgebra.Proofs.Types
/-!
# Declared output types

Only primitive agents check their outputs. What a composite gives is of its declared type as far as
its parts give what they declare, with one exception: a branch declares the common type of its arms,
which describes what both arms may give and not what either may. So outputs are of the declared type
where the arms of every branch that feeds the output declare the same type. And for any two arms that
declare different types there is a branch that gives an output outside its own.
-/

namespace AgentAlgebra

namespace Agent

variable {m : Type → Type}

/-- The arms of every branch whose output is part of the agent's own output declare types that are
allowed together. -/
def ArmsAllowed (allowed : ValueType → ValueType → Prop) : Agent m → Prop
  | .primitive .. | .identity _ => True
  | .sequence _ _ second => second.ArmsAllowed allowed
  | .parallel _ left right => left.ArmsAllowed allowed ∧ right.ArmsAllowed allowed
  | .branch _ _ onTrue onFalse =>
    allowed onTrue.output onFalse.output ∧ onTrue.ArmsAllowed allowed ∧ onFalse.ArmsAllowed allowed
  | .fix _ _ body _ => body.ArmsAllowed allowed
  | .observe _ inner => inner.ArmsAllowed allowed

variable [Monad m]

/-- Whatever the agent gives, from any position and on any input, is of the type that it declares.
-/
def OutputSound (agent : Agent m) : Prop :=
  ∀ position input, Gives (agent.step position input) fun move =>
    agent.output.admits move.output = true

variable [LawfulMonad m]

theorem gives_require (agent : Agent m) (position input : Value) :
    Gives (agent.require position input) fun _ =>
      agent.isPosition position = true ∧ (agent.directions position).contains input = true := by
  unfold require
  split
  · rename_i known
    split
    · rename_i legal
      exact .pure ⟨known, legal⟩
    · exact .throw _
  · exact .throw _

namespace OutputSound

variable {header : Header} {machine : Machine m} {predicate first second left right onTrue onFalse
  body inner : Agent m}

theorem primitive : (Agent.primitive header machine).OutputSound := by
  intro position input
  rw [step]
  refine .bind_last fun _ => ?_
  unfold Machine.step
  refine .bind_last fun made => ?_
  obtain ⟨next, output⟩ := made
  dsimp only
  split
  · split
    · rename_i typed
      exact .pure typed
    · exact .throw _
  · exact .throw _

theorem identity (declared : (Agent.identity header : Agent m).output = header.signature.input) :
    (Agent.identity header : Agent m).OutputSound := by
  intro position input
  rw [step]
  refine .bind (gives_require _ position input) fun _ allowed => .pure ?_
  obtain ⟨known, legal⟩ := allowed
  rw [directions, if_pos known] at legal
  exact declared ▸ legal

theorem sequence (declared : (Agent.sequence header first second).output = second.output)
    (sound : second.OutputSound) : (Agent.sequence header first second).OutputSound := by
  intro position input
  rw [step]
  refine .bind_last fun _ => .bind_last fun parts => .bind_last fun one => ?_
  exact .bind (sound parts.2 one.output) fun two typed => .pure (declared ▸ typed)

theorem parallel
    (declared : (Agent.parallel header left right).output = .pair left.output right.output)
    (soundLeft : left.OutputSound) (soundRight : right.OutputSound) :
    (Agent.parallel header left right).OutputSound := by
  intro position input
  rw [step]
  refine .bind_last fun _ => .bind_last fun parts => ?_
  refine .bind (soundLeft parts.1 input) fun one typedLeft => ?_
  refine .bind (soundRight parts.2 input) fun two typedRight => .pure ?_
  exact declared ▸ ValueType.admits_pair_pair.mpr ⟨typedLeft, typedRight⟩

theorem branch
    (declaredTrue : (Agent.branch header predicate onTrue onFalse).output = onTrue.output)
    (declaredFalse : (Agent.branch header predicate onTrue onFalse).output = onFalse.output)
    (soundTrue : onTrue.OutputSound)
    (soundFalse : onFalse.OutputSound) :
    (Agent.branch header predicate onTrue onFalse).OutputSound := by
  intro position input
  rw [step]
  refine .bind_last fun _ => .bind_last fun parts => .bind_last fun judged => ?_
  refine .bind_last fun holds => ?_
  cases holds with
  | true => exact .bind (soundTrue parts.2.1 input) fun taken typed => .pure (declaredTrue ▸ typed)
  | false =>
    exact .bind (soundFalse parts.2.2 input) fun taken typed => .pure (declaredFalse ▸ typed)

theorem outcome_admitted {outcome : RetryOutcome} {type : ValueType}
    (inside : type.admits outcome.value = true) :
    (RetryOutcome.typeOf type).admits outcome.toValue = true :=
  ValueType.admits_recordOf
    (.cons ⟨rfl, rfl⟩ (.cons ⟨rfl, inside⟩ (.cons ⟨rfl, rfl⟩ .nil)))

/-- However often is tried, the last output of the body is in the outcome. -/
theorem retry (name : String) (judge : Value → Value → ExceptT StepError m Step)
    (refine : Value → Value → m Value) (sound : body.OutputSound) (remaining attempts : Nat)
    (p q input : Value) (before : List Stage) :
    Gives (Agent.retry name judge body.step refine remaining attempts p q input before) fun move =>
      (RetryOutcome.typeOf body.output).admits move.output = true := by
  induction remaining generalizing attempts p q input before with
  | zero =>
    unfold Agent.retry
    refine .bind (sound q input) fun produced typed => .bind_last fun judged => ?_
    refine .bind_last fun holds => ?_
    cases holds with
    | true => exact .pure (outcome_admitted typed)
    | false => exact .pure (outcome_admitted typed)
  | succ remaining ih =>
    unfold Agent.retry
    refine .bind (sound q input) fun produced typed => .bind_last fun judged => ?_
    refine .bind_last fun holds => ?_
    cases holds with
    | true => exact .pure (outcome_admitted typed)
    | false => exact .bind_last fun next => ih ..

theorem fix {policy : RetryPolicy m}
    (declared : (Agent.fix header predicate body policy).output = RetryOutcome.typeOf body.output)
    (sound : body.OutputSound) : (Agent.fix header predicate body policy).OutputSound := by
  intro position input
  rw [step]
  refine .bind_last fun _ => .bind_last fun parts => ?_
  rw [declared]
  exact retry predicate.name predicate.step policy.refine sound (policy.maxAttempts - 1) 1 parts.1
    parts.2 input []

theorem observe (declared : (Agent.observe header inner).output =
      .recordOf [("output", inner.output), ("observation", moveType)])
    (sound : inner.OutputSound) : (Agent.observe header inner).OutputSound := by
  intro position input
  rw [step]
  refine .bind_last fun _ => .bind (sound position input) fun move typed => .pure ?_
  have reported : moveType.admits (.record [("agent", .text inner.name), ("input", input),
      ("from", position), ("to", move.position)]) = true :=
    ValueType.admits_recordOf (.cons ⟨rfl, rfl⟩ (.cons ⟨rfl, ValueType.admits_any _⟩
      (.cons ⟨rfl, ValueType.admits_any _⟩ (.cons ⟨rfl, ValueType.admits_any _⟩ .nil))))
  rw [declared]
  exact ValueType.admits_recordOf (.cons ⟨rfl, typed⟩ (.cons ⟨rfl, reported⟩ .nil))

end OutputSound

omit [Monad m] [LawfulMonad m] in
theorem output_of_signature {agent : Agent m} {input output : ValueType}
    (declared : agent.signature = ⟨input, output⟩) : agent.output = output :=
  congrArg Signature.output declared

/-- Where arms are allowed together that declare the same type or have none in common, outputs are of
the declared type. -/
theorem outputSound_of_armsAllowed {allowed : ValueType → ValueType → Prop}
    (same : ∀ t e out, allowed t e → t.unify e = some out → t = e) {agent : Agent m}
    (formed : agent.Formed) (arms : agent.ArmsAllowed allowed) : agent.OutputSound := by
  induction agent with
  | primitive header machine => exact .primitive
  | identity header => exact .identity formed
  | sequence header first second _ ih =>
    obtain ⟨⟨-, declared⟩, -, formed⟩ := formed
    exact .sequence (output_of_signature declared) (ih formed arms)
  | parallel header left right ihLeft ihRight =>
    obtain ⟨⟨input, -, declared⟩, formedLeft, formedRight⟩ := formed
    exact .parallel (output_of_signature declared) (ihLeft formedLeft arms.1)
      (ihRight formedRight arms.2)
  | branch header predicate onTrue onFalse _ ihTrue ihFalse =>
    obtain ⟨⟨-, input, output, -, -, common, declared⟩, -, formedTrue, formedFalse⟩ := formed
    obtain ⟨together, armsTrue, armsFalse⟩ := arms
    have equal : onTrue.output = onFalse.output := same _ _ _ together common
    -- Two equal types go together as that very type.
    have own : output = onTrue.output := by
      rw [← equal, ValueType.unify_self] at common
      exact (Option.some.inj common).symm
    have declared : header.signature.output = output := congrArg Signature.output declared
    exact .branch (declared.trans own) ((declared.trans own).trans equal)
      (ihTrue formedTrue armsTrue) (ihFalse formedFalse armsFalse)
  | fix header predicate body policy _ ih =>
    obtain ⟨⟨-, declared⟩, -, formed⟩ := formed
    exact .fix (output_of_signature declared) (ih formed arms)
  | observe header inner ih =>
    exact .observe (output_of_signature formed.1) (ih formed.2 arms)

section

variable {t e out : ValueType} {holds : Bool} {value : Value}

/-- An agent that takes anything, declares some output type, and passes its input on. -/
def passing (type : ValueType) : Agent Id :=
  .stateless "passing" ⟨.any, type⟩ pure

/-- An agent that always decides in the same way. -/
def deciding (holds : Bool) : Agent Id :=
  .predicate "deciding" .any fun _ => pure holds

/-- The branch between two agents that pass their input on. -/
def passingBranch (holds : Bool) (t e out : ValueType) : Agent Id :=
  .branch ⟨applied "branch" ["deciding", "passing", "passing"], ⟨.any, out⟩,
    .triple .null .null .null⟩ (deciding holds) (passing t) (passing e)

theorem branching_passing (common : t.unify e = some out) :
    (deciding holds).branching (passing t) (passing e) = .ok (passingBranch holds t e out) :=
  branching_eq_ok.mpr ⟨rfl, .any, rfl, .any, rfl, out, common, rfl⟩

theorem built_passingBranch (common : t.unify e = some out) : (passingBranch holds t e out).Built :=
  .branch (.predicate ..) (.stateless ..) (.stateless ..) (branching_passing common)

theorem step_passing (typed : t.admits value = true) :
    ((passing t).step .null value).run = .ok ⟨.null, value, [⟨"passing", value, value⟩]⟩ :=
  step_primitive.mpr ⟨rfl, rfl, typed, rfl⟩

theorem step_deciding :
    ((deciding holds).step .null value).run =
      .ok ⟨.null, .bool holds, [⟨"deciding", value, .bool holds⟩]⟩ :=
  step_primitive.mpr ⟨rfl, rfl, rfl, rfl⟩

/-- The branch gives whatever the chosen arm may give. -/
theorem step_passingBranch (out : ValueType)
    (typed : (bif holds then t else e).admits value = true) :
    ∃ move, ((passingBranch holds t e out).step (.triple .null .null .null) value).run = .ok move ∧
      move.output = value := by
  cases holds with
  | true =>
    exact ⟨_, step_branch.mpr ⟨rfl, _, step_deciding, .inl ⟨rfl, _, step_passing typed, rfl⟩⟩, rfl⟩
  | false =>
    exact ⟨_, step_branch.mpr ⟨rfl, _, step_deciding, .inr ⟨rfl, _, step_passing typed, rfl⟩⟩, rfl⟩

/-- Where outputs are as declared, the chosen arm declares no more than the branch. -/
theorem included_of_outputSound (sound : (passingBranch holds t e out).OutputSound) :
    ValueType.Included (bif holds then t else e) out := by
  intro value typed
  obtain ⟨move, moved, rfl⟩ := step_passingBranch out typed
  exact gives_id.mp (sound _ _) move moved

/-- What two types have in common is all of either only if they are the same. -/
theorem eq_of_outputSound (common : t.unify e = some out)
    (sound : ∀ holds, (passingBranch holds t e out).OutputSound) : t = e := by
  have narrower : ∀ value, out.admits value = true →
      t.admits value = true ∧ e.admits value = true :=
    fun value => (ValueType.admits_unify common value).mp
  have forTrue : ValueType.Included out t := fun value typed => (narrower value typed).1
  have forFalse : ValueType.Included out e := fun value typed => (narrower value typed).2
  calc t = out := (included_of_outputSound (sound true)).antisymm forTrue
    _ = e := forFalse.antisymm (included_of_outputSound (sound false))

end

/-- Suppose that only certain types are allowed together for the arms of a branch. Then everything that
can be made under that rule gives outputs of its declared type exactly if the rule allows no two
different types that a branch would take. -/
theorem outputs_admitted_iff_arms_same (allowed : ValueType → ValueType → Prop) :
    (∀ (m : Type → Type) [Monad m] [LawfulMonad m] (agent : Agent m), agent.Built →
      agent.ArmsAllowed allowed → agent.OutputSound) ↔
    ∀ t e out, allowed t e → t.unify e = some out → t = e := by
  constructor
  · intro sound t e out together common
    refine eq_of_outputSound common fun holds => ?_
    exact sound Id _ (built_passingBranch common) ⟨together, trivial, trivial⟩
  · intro same m _ _ agent built arms
    exact outputSound_of_armsAllowed same built.formed arms

/-- With the same type for both arms a branch between agents that give numbers gives numbers. With any
types allowed, one arm may give records with a field `x` and the other records with a field `y`, and
what is declared to have both fields then lacks one. -/
theorem outputs_admitted_of_numbers_not_of_records :
    (passingBranch true .number .number .number).OutputSound ∧
      ¬ ∀ (m : Type → Type) [Monad m] [LawfulMonad m] (agent : Agent m), agent.Built →
        (agent.ArmsAllowed fun _ _ => True) → agent.OutputSound := by
  constructor
  · exact (outputs_admitted_iff_arms_same Eq).mpr (fun _ _ _ same _ => same) Id _
      (built_passingBranch rfl) ⟨rfl, trivial, trivial⟩
  · rw [outputs_admitted_iff_arms_same]
    intro same
    have unified : ((ValueType.recordOf [("x", .number)]).unify
        (.recordOf [("y", .number)])).isSome = true := by decide +kernel
    obtain ⟨both, common⟩ := Option.isSome_iff_exists.mp unified
    have admitted := congrArg (·.admits (.record [("x", .ofNat 1)])) (same _ _ _ trivial common)
    exact absurd admitted (by decide)

end Agent

end AgentAlgebra
