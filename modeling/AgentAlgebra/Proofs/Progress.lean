import AgentAlgebra.Agent.Trace
import AgentAlgebra.Proofs.Outputs
/-!
# Well-typed agents do not go wrong

An agent made with the five operations from primitives that keep what they declare moves on every
input of its type, from every one of its positions. Typing is gradual, so this asks that nothing is
fed on that is declared only to be anything, that predicates declare truth values, and that the arms
of a branch declare the same output. What carries the induction is `Agent.Safe`: at each position
the legal inputs are all values of the input type, and a move on any of them is made, leads to a
position and gives a value of the output type.
-/

namespace AgentAlgebra

theorem Directions.intersect_typed {t u both : ValueType} (common : t.unify u = some both) :
    (typed t).intersect (typed u) = typed both := by
  simp only [intersect, common]

namespace Agent

/-- A machine that keeps what the header declares: it takes all values of the input type, and then
stays within its positions and within the output type. -/
def Honest (header : Header) (machine : Machine Id) : Prop :=
  ∀ position, machine.positions.contains position = true →
    machine.directions position = .typed header.signature.input ∧
      ∀ input, header.signature.input.admits input = true →
        machine.positions.contains (machine.transition position input).run.1 = true ∧
          header.signature.output.admits (machine.transition position input).run.2 = true

/-- The discipline under which agents do not go wrong: primitives are honest; what is fed on in a
sequence or tried again is of a type without `any`; predicates declare truth values; the arms of a
branch declare the same output; and what is tried again is the same input. -/
def WellTyped : Agent Id → Prop
  | .primitive header machine => Honest header machine
  | .identity _ => True
  | .sequence _ first second =>
    first.output.isConcrete = true ∧ first.WellTyped ∧ second.WellTyped
  | .parallel _ left right => left.WellTyped ∧ right.WellTyped
  | .branch _ predicate onTrue onFalse =>
    (predicate.output = .bool ∧ onTrue.output = onFalse.output) ∧
      predicate.WellTyped ∧ onTrue.WellTyped ∧ onFalse.WellTyped
  | .fix _ predicate body policy =>
    (predicate.output = .bool ∧ body.output.isConcrete = true ∧
      policy.refine = RetryPolicy.sameInput) ∧ predicate.WellTyped ∧ body.WellTyped
  | .observe _ inner => inner.WellTyped

/-- At every position all inputs of the input type are legal, and no others. -/
def FullyTyped (agent : Agent Id) : Prop :=
  ∀ position, agent.isPosition position = true → agent.directions position = .typed agent.input

/-- From every position and on every input of the input type, the agent moves to a position. -/
def Moves (agent : Agent Id) : Prop :=
  ∀ position input, agent.isPosition position = true → agent.input.admits input = true →
    ∃ move, (agent.step position input).run = .ok move ∧ agent.isPosition move.position = true

/-- An agent that takes what it declares to take, moves on all of it, and gives what it declares. -/
structure Safe (agent : Agent Id) : Prop where
  typed : agent.FullyTyped
  moves : agent.Moves
  sound : agent.OutputSound

theorem input_of_signature {agent : Agent Id} {input output : ValueType}
    (declared : agent.signature = ⟨input, output⟩) : agent.input = input :=
  congrArg Signature.input declared

namespace Safe

variable {header : Header} {machine : Machine Id} {policy : RetryPolicy Id} {agent predicate first
  second left right onTrue onFalse body inner : Agent Id} {position input : Value}

/-- The move that a safe agent makes. -/
theorem move (safe : agent.Safe) (known : agent.isPosition position = true)
    (typed : agent.input.admits input = true) :
    ∃ move, (agent.step position input).run = .ok move ∧ agent.isPosition move.position = true ∧
      agent.output.admits move.output = true := by
  obtain ⟨move, moved, within⟩ := safe.moves position input known typed
  exact ⟨move, moved, within, gives_id.mp (safe.sound position input) move moved⟩

/-- Where all inputs of the input type are legal, those are allowed. -/
theorem contains (typed : agent.FullyTyped) (known : agent.isPosition position = true)
    (admitted : agent.input.admits input = true) :
    (agent.directions position).contains input = true := by
  rw [typed position known]
  exact admitted

theorem primitive (honest : Honest header machine) : (Agent.primitive header machine).Safe where
  typed := by
    intro position known
    rw [directions_primitive known]
    exact (honest position known).1
  moves := by
    intro position input known typed
    obtain ⟨directed, made⟩ := honest position known
    obtain ⟨within, admitted⟩ := made input typed
    refine ⟨_, step_primitive.mpr ⟨?_, within, admitted, rfl⟩, within⟩
    rw [directions_primitive known, directed]
    exact typed
  sound := .primitive

theorem identity (declared : header.signature.output = header.signature.input) :
    (Agent.identity header : Agent Id).Safe where
  typed := by
    intro position known
    rw [Value.eq_null_of_isNull known]
    exact directions_identity
  moves := by
    intro position input known typed
    obtain rfl := Value.eq_null_of_isNull known
    exact ⟨_, step_identity.mpr ⟨typed, rfl⟩, rfl⟩
  sound := .identity declared

theorem sequence
    (declared : (Agent.sequence header first second).signature = ⟨first.input, second.output⟩)
    (fed : second.input.accepts first.output = true) (concrete : first.output.isConcrete = true)
    (safeFirst : first.Safe) (safeSecond : second.Safe) :
    (Agent.sequence header first second).Safe where
  typed := by
    intro position known
    obtain ⟨p, q, rfl, knownFirst, knownSecond⟩ := isPosition_sequence_iff.mp known
    rw [directions_sequence knownFirst knownSecond, safeFirst.typed p knownFirst,
      input_of_signature declared]
  moves := by
    intro position input known typed
    obtain ⟨p, q, rfl, knownFirst, knownSecond⟩ := isPosition_sequence_iff.mp known
    rw [input_of_signature declared] at typed
    obtain ⟨one, movedFirst, withinFirst, given⟩ := safeFirst.move knownFirst typed
    -- What the first part gives is of its declared type, and the second part takes all of that.
    have taken := ValueType.included_of_accepts fed concrete one.output given
    obtain ⟨two, movedSecond, withinSecond, -⟩ := safeSecond.move knownSecond taken
    refine ⟨_, step_sequence.mpr ⟨one, movedFirst, two, movedSecond, rfl⟩, ?_⟩
    exact isPosition_sequence_iff.mpr ⟨_, _, rfl, withinFirst, withinSecond⟩
  sound := .sequence (output_of_signature declared) safeSecond.sound

theorem parallel (common : left.input.unify right.input = some header.signature.input)
    (declared : header.signature.output = .pair left.output right.output)
    (safeLeft : left.Safe) (safeRight : right.Safe) :
    (Agent.parallel header left right).Safe := by
  have typed : (Agent.parallel header left right).FullyTyped := by
    intro position known
    obtain ⟨p, q, rfl, knownLeft, knownRight⟩ := isPosition_parallel_iff.mp known
    rw [directions_parallel knownLeft knownRight, safeLeft.typed p knownLeft,
      safeRight.typed q knownRight]
    exact Directions.intersect_typed common
  refine ⟨typed, ?_, .parallel declared safeLeft.sound safeRight.sound⟩
  intro position input known admitted
  have legal := contains typed known admitted
  obtain ⟨p, q, rfl, knownLeft, knownRight⟩ := isPosition_parallel_iff.mp known
  have both := (ValueType.admits_unify common input).mp admitted
  obtain ⟨one, movedLeft, withinLeft, -⟩ := safeLeft.move knownLeft both.1
  obtain ⟨two, movedRight, withinRight, -⟩ := safeRight.move knownRight both.2
  refine ⟨_, step_parallel.mpr ⟨legal, one, movedLeft, two, movedRight, rfl⟩, ?_⟩
  exact isPosition_parallel_iff.mpr ⟨_, _, rfl, withinLeft, withinRight⟩

/-- A branch works out its input type from the right, and the legal inputs at a position from the
left; it comes to the same because finding a common type is associative. -/
theorem fullyTyped_branch {arms : ValueType} (common : onTrue.input.unify onFalse.input = some arms)
    (input : predicate.input.unify arms = some header.signature.input)
    (typedPredicate : predicate.FullyTyped) (typedTrue : onTrue.FullyTyped)
    (typedFalse : onFalse.FullyTyped) :
    (Agent.branch header predicate onTrue onFalse).FullyTyped := by
  intro position known
  obtain ⟨p, q, r, rfl, knownPredicate, knownTrue, knownFalse⟩ := isPosition_branch_iff.mp known
  rw [directions_branch knownPredicate knownTrue knownFalse, typedPredicate p knownPredicate,
    typedTrue q knownTrue, typedFalse r knownFalse]
  have assoc := ValueType.unify_assoc predicate.input onTrue.input onFalse.input
  rw [common, Option.bind_some, input] at assoc
  obtain ⟨first, firstCommon, allCommon⟩ := Option.bind_eq_some_iff.mp assoc
  rw [Directions.intersect_typed firstCommon, Directions.intersect_typed allCommon]
  rfl

theorem branch {arms : ValueType} (common : onTrue.input.unify onFalse.input = some arms)
    (unified : predicate.input.unify arms = some header.signature.input)
    (verdict : predicate.output = .bool) (declaredTrue : header.signature.output = onTrue.output)
    (declaredFalse : header.signature.output = onFalse.output) (safePredicate : predicate.Safe)
    (safeTrue : onTrue.Safe) (safeFalse : onFalse.Safe) :
    (Agent.branch header predicate onTrue onFalse).Safe := by
  have typed := fullyTyped_branch common unified safePredicate.typed safeTrue.typed safeFalse.typed
  refine ⟨typed, ?_, .branch declaredTrue declaredFalse safeTrue.sound safeFalse.sound⟩
  intro position input known admitted
  have legal := contains typed known admitted
  obtain ⟨p, q, r, rfl, knownPredicate, knownTrue, knownFalse⟩ := isPosition_branch_iff.mp known
  obtain ⟨forPredicate, forArms⟩ := (ValueType.admits_unify unified input).mp admitted
  obtain ⟨forTrue, forFalse⟩ := (ValueType.admits_unify common input).mp forArms
  obtain ⟨judged, movedPredicate, within, given⟩ := safePredicate.move knownPredicate forPredicate
  rw [verdict, ValueType.admits_bool] at given
  obtain ⟨holds, given⟩ := given
  cases holds with
  | true =>
    obtain ⟨taken, moved, withinTrue, -⟩ := safeTrue.move knownTrue forTrue
    refine ⟨_, step_branch.mpr
      ⟨legal, judged, movedPredicate, .inl ⟨given, taken, moved, rfl⟩⟩, ?_⟩
    exact isPosition_branch_iff.mpr ⟨_, _, _, rfl, within, withinTrue, knownFalse⟩
  | false =>
    obtain ⟨taken, moved, withinFalse, -⟩ := safeFalse.move knownFalse forFalse
    refine ⟨_, step_branch.mpr
      ⟨legal, judged, movedPredicate, .inr ⟨given, taken, moved, rfl⟩⟩, ?_⟩
    exact isPosition_branch_iff.mpr ⟨_, _, _, rfl, within, knownTrue, withinFalse⟩

/-- One try of the body, and the verdict on what it gave. -/
theorem attempt (safePredicate : predicate.Safe) (safeBody : body.Safe)
    (taken : ValueType.Included body.output predicate.input) (verdict : predicate.output = .bool)
    {p q : Value} (knownPredicate : predicate.isPosition p = true)
    (knownBody : body.isPosition q = true) (typed : body.input.admits input = true) :
    ∃ produced judged holds, (body.step q input).run = .ok produced ∧
      (predicate.step p produced.output).run = .ok judged ∧ judged.output = .bool holds ∧
      predicate.isPosition judged.position = true ∧ body.isPosition produced.position = true := by
  obtain ⟨produced, acted, withinBody, given⟩ := safeBody.move knownBody typed
  obtain ⟨judged, asked, within, ruled⟩ := safePredicate.move knownPredicate (taken _ given)
  rw [verdict, ValueType.admits_bool] at ruled
  obtain ⟨holds, ruled⟩ := ruled
  exact ⟨produced, judged, holds, acted, asked, ruled, within, withinBody⟩

theorem isPosition_finished {status : RetryStatus} {attempts : Nat} {judged produced : Step}
    {before : List Stage} (within : predicate.isPosition judged.position = true)
    (withinBody : body.isPosition produced.position = true) :
    (Agent.fix header predicate body policy).isPosition
      (finished status attempts judged produced before).position = true :=
  isPosition_fix_iff.mpr ⟨_, _, rfl, within, withinBody⟩

/-- Trying the same input again and again never fails, and leaves both parts at a position. -/
theorem retry (name : String) (safePredicate : predicate.Safe) (safeBody : body.Safe)
    (taken : ValueType.Included body.output predicate.input) (verdict : predicate.output = .bool)
    (remaining attempts : Nat) (p q : Value) (before : List Stage)
    (knownPredicate : predicate.isPosition p = true) (knownBody : body.isPosition q = true)
    (typed : body.input.admits input = true) :
    ∃ move, (Agent.retry name predicate.step body.step RetryPolicy.sameInput remaining attempts p q
        input before).run = .ok move ∧
      (Agent.fix header predicate body policy).isPosition move.position = true := by
  induction remaining generalizing attempts p q before with
  | zero =>
    obtain ⟨produced, judged, holds, acted, asked, ruled, within, withinBody⟩ :=
      attempt safePredicate safeBody taken verdict knownPredicate knownBody typed
    rw [run_retry acted asked ruled]
    cases holds with
    | true => exact ⟨_, rfl, isPosition_finished within withinBody⟩
    | false => exact ⟨_, rfl, isPosition_finished within withinBody⟩
  | succ remaining ih =>
    obtain ⟨produced, judged, holds, acted, asked, ruled, within, withinBody⟩ :=
      attempt safePredicate safeBody taken verdict knownPredicate knownBody typed
    rw [run_retry acted asked ruled]
    cases holds with
    | true => exact ⟨_, rfl, isPosition_finished within withinBody⟩
    | false => exact ih _ _ _ _ within withinBody

theorem fix
    (declared : (Agent.fix header predicate body policy).signature =
      ⟨body.input, RetryOutcome.typeOf body.output⟩)
    (fed : predicate.input.accepts body.output = true) (concrete : body.output.isConcrete = true)
    (verdict : predicate.output = .bool) (same : policy.refine = RetryPolicy.sameInput)
    (safePredicate : predicate.Safe) (safeBody : body.Safe) :
    (Agent.fix header predicate body policy).Safe := by
  have typed : (Agent.fix header predicate body policy).FullyTyped := by
    intro position known
    obtain ⟨p, q, rfl, knownPredicate, knownBody⟩ := isPosition_fix_iff.mp known
    rw [directions_fix knownPredicate knownBody, safeBody.typed q knownBody,
      input_of_signature declared]
  refine ⟨typed, ?_, .fix (output_of_signature declared) safeBody.sound⟩
  intro position input known admitted
  have legal := contains typed known admitted
  obtain ⟨p, q, rfl, knownPredicate, knownBody⟩ := isPosition_fix_iff.mp known
  rw [input_of_signature declared] at admitted
  obtain ⟨move, made, within⟩ := retry predicate.name safePredicate safeBody
    (ValueType.included_of_accepts fed concrete) verdict (policy.maxAttempts - 1) 1 p q []
    knownPredicate knownBody admitted
  exact ⟨move, step_fix.mpr ⟨legal, same ▸ made⟩, within⟩

theorem observe
    (declared : (Agent.observe header inner).signature =
      ⟨inner.input, .recordOf [("output", inner.output), ("observation", moveType)]⟩)
    (safe : inner.Safe) : (Agent.observe header inner).Safe where
  typed := by
    intro position known
    rw [isPosition_observe] at known
    rw [directions_observe, safe.typed position known, input_of_signature declared]
  moves := by
    intro position input known typed
    rw [isPosition_observe] at known
    rw [input_of_signature declared] at typed
    obtain ⟨move, moved, within, -⟩ := safe.move known typed
    exact ⟨_, step_observe.mpr ⟨move, moved, rfl⟩, within⟩
  sound := .observe (output_of_signature declared) safe.sound

/-- Everything that is put together in the disciplined way is safe. -/
theorem of_wellTyped (formed : agent.Formed) (wellTyped : agent.WellTyped) : agent.Safe := by
  induction agent with
  | primitive header machine => exact .primitive wellTyped
  | identity header => exact .identity formed
  | sequence header first second ihFirst ihSecond =>
    obtain ⟨⟨fed, declared⟩, formedFirst, formedSecond⟩ := formed
    obtain ⟨concrete, wellFirst, wellSecond⟩ := wellTyped
    exact .sequence declared fed concrete (ihFirst formedFirst wellFirst)
      (ihSecond formedSecond wellSecond)
  | parallel header left right ihLeft ihRight =>
    obtain ⟨⟨input, common, declared⟩, formedLeft, formedRight⟩ := formed
    have own : header.signature.input = input := congrArg Signature.input declared
    rw [← own] at common
    exact .parallel common (congrArg Signature.output declared) (ihLeft formedLeft wellTyped.1)
      (ihRight formedRight wellTyped.2)
  | branch header predicate onTrue onFalse ihPredicate ihTrue ihFalse =>
    obtain ⟨⟨arms, input, output, common, unified, outputs, declared⟩, formedPredicate, formedTrue,
      formedFalse⟩ := formed
    obtain ⟨⟨verdict, same⟩, wellPredicate, wellTrue, wellFalse⟩ := wellTyped
    rw [← same, ValueType.unify_self] at outputs
    have takes : header.signature.input = input := congrArg Signature.input declared
    have gives : header.signature.output = onTrue.output :=
      (congrArg Signature.output declared).trans (Option.some.inj outputs).symm
    rw [← takes] at unified
    exact .branch common unified verdict gives (gives.trans same)
      (ihPredicate formedPredicate wellPredicate) (ihTrue formedTrue wellTrue)
      (ihFalse formedFalse wellFalse)
  | fix header predicate body policy ihPredicate ihBody =>
    obtain ⟨⟨fed, declared⟩, formedPredicate, formedBody⟩ := formed
    obtain ⟨⟨verdict, concrete, same⟩, wellPredicate, wellBody⟩ := wellTyped
    exact .fix declared fed concrete verdict same (ihPredicate formedPredicate wellPredicate)
      (ihBody formedBody wellBody)
  | observe header inner ih => exact .observe formed.1 (ih formed.2 wellTyped)

/-- A safe agent gets through any sequence of inputs of its type. -/
theorem run (safe : agent.Safe) {inputs : List Value} (known : agent.isPosition position = true)
    (typed : ∀ input ∈ inputs, agent.input.admits input = true) :
    ∃ run, (agent.run position inputs).run = .ok run ∧
      agent.isPosition run.finalPosition = true ∧
      ∀ output ∈ run.outputs, agent.output.admits output = true := by
  induction inputs generalizing position with
  | nil => exact ⟨_, rfl, known, by simp⟩
  | cons input inputs ih =>
    rw [List.forall_mem_cons] at typed
    obtain ⟨move, moved, within, given⟩ := safe.move known typed.1
    obtain ⟨rest, ran, last, outputs⟩ := ih within typed.2
    refine ⟨⟨rest.finalPosition, move.output :: rest.outputs⟩, ?_, last, ?_⟩
    · exact run_bind_eq_ok.mpr ⟨move, moved, run_bind_eq_ok.mpr ⟨rest, ran, rfl⟩⟩
    · exact List.forall_mem_cons.mpr ⟨given, outputs⟩

end Safe

/-- An agent that is put together in the disciplined way takes at each position exactly the values
of its input type, and moves on each of them. -/
theorem wellTyped_step_succeeds {agent : Agent Id} (built : agent.Built)
    (wellTyped : agent.WellTyped) {position : Value} (known : agent.isPosition position = true) :
    agent.directions position = .typed agent.input ∧
      ∀ input, agent.input.admits input = true →
        ∃ move, (agent.step position input).run = .ok move ∧
          agent.isPosition move.position = true ∧ agent.output.admits move.output = true := by
  have safe := Safe.of_wellTyped built.formed wellTyped
  exact ⟨safe.typed position known, fun input typed => safe.move known typed⟩

/-- A stateless agent is honest if its function keeps the declared types. -/
theorem wellTyped_stateless {name : String} {signature : Signature} {output : Value → Id Value}
    (kept : ∀ input, signature.input.admits input = true →
      signature.output.admits (output input).run = true) :
    (stateless name signature output : Agent Id).WellTyped :=
  fun _ known => ⟨rfl, fun input typed => ⟨known, kept input typed⟩⟩

/-- An agent that gives back the number it takes, tried again until that is refused too often. -/
def echoing : Agent Id :=
  .fix ⟨applied "fix" ["never", "echo"], ⟨.number, RetryOutcome.typeOf .number⟩, .pair .null .null⟩
    (.predicate "never" .number fun _ => pure false) (.stateless "echo" ⟨.number, .number⟩ pure)
    .standard

theorem wellTyped_step_succeeds_echoing :
    echoing.directions (.pair .null .null) = .typed .number ∧
      ∃ move, (echoing.step (.pair .null .null) (.ofNat 1)).run = .ok move := by
  have made : retrying (.predicate "never" .number fun _ => pure false)
      (.stateless "echo" ⟨.number, .number⟩ pure) .standard = .ok echoing :=
    retrying_eq_ok.mpr ⟨rfl, rfl, rfl⟩
  have built : echoing.Built := .fix (.predicate ..) (.stateless ..) .standard made
  have wellTyped : echoing.WellTyped :=
    ⟨⟨rfl, rfl, rfl⟩, wellTyped_stateless fun _ _ => rfl, wellTyped_stateless fun _ typed => typed⟩
  have known : echoing.isPosition (.pair .null .null) = true := isPosition_fix
  obtain ⟨directed, moves⟩ := wellTyped_step_succeeds built wellTyped known
  obtain ⟨move, moved, -⟩ := moves (.ofNat 1) rfl
  exact ⟨directed, move, moved⟩

end Agent

end AgentAlgebra
