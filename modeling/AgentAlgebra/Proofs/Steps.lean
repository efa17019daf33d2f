import AgentAlgebra.Agent.Draft
import AgentAlgebra.Agent.Step
import AgentAlgebra.Proofs.Values
/-!
# Steps of pure agents

When a pure agent moves and where it then is, for each way of combining agents. What a composite
asks of its position and input before it runs its parts is, for a sequence, no more than what its
parts ask; a parallel agent and a branch ask in addition that the input is legal for all the parts
that read it.
-/

namespace AgentAlgebra

theorem run_bind_eq_ok {ε α β : Type} {x : ExceptT ε Id α} {f : α → ExceptT ε Id β} {b : β} :
    (x >>= f).run = .ok b ↔ ∃ a, x.run = .ok a ∧ (f a).run = .ok b := by
  rw [ExceptT.run_bind]
  cases x.run with
  | error e => exact ⟨nofun, fun ⟨_, given, _⟩ => nomatch given⟩
  | ok a => exact ⟨fun given => ⟨a, rfl, given⟩, fun ⟨_, same, given⟩ => Except.ok.inj same ▸ given⟩

theorem run_bind_eq_error {ε α β : Type} {x : ExceptT ε Id α} {f : α → ExceptT ε Id β} {e : ε} :
    (x >>= f).run = .error e ↔
      x.run = .error e ∨ ∃ a, x.run = .ok a ∧ (f a).run = .error e := by
  rw [ExceptT.run_bind]
  cases x.run with
  | error e' =>
    refine ⟨fun same => .inl (congrArg Except.error (Except.error.inj same)), ?_⟩
    rintro (same | ⟨a, given, -⟩)
    · exact congrArg Except.error (Except.error.inj same)
    · exact nomatch given
  | ok a =>
    refine ⟨fun failed => .inr ⟨a, rfl, failed⟩, ?_⟩
    rintro (same | ⟨b, given, failed⟩)
    · exact nomatch same
    · exact Except.ok.inj given ▸ failed

/-- What a pure machine does: its transition, held to its positions and to the declared output type.
-/
theorem Machine.run_step (machine : Machine Id) (header : Header) (position input : Value) :
    (machine.step header position input).run =
      if machine.positions.contains (machine.transition position input).run.1 then
        if header.signature.output.admits (machine.transition position input).run.2 then
          .ok ⟨(machine.transition position input).run.1, (machine.transition position input).run.2,
            [⟨header.name, input, (machine.transition position input).run.2⟩]⟩
        else .error (.illTypedOutput header.name (machine.transition position input).run.2
          header.signature.output)
      else
        .error (.illegalTransition header.name position (machine.transition position input).run.1) := by
  unfold Machine.step
  generalize machine.transition position input = made
  obtain ⟨next, output⟩ : Value × Value := made
  change ExceptT.run (if machine.positions.contains next = true then _ else _) = _
  dsimp only [Id.run]
  split
  · split <;> rfl
  · rfl

namespace Agent

section

variable {m : Type → Type} {header : Header} {a b c : Agent m} {policy : RetryPolicy m}
  {p q r position : Value}

@[simp]
theorem isPosition_sequence :
    (sequence header a b).isPosition (.pair p q) = (a.isPosition p && b.isPosition q) := by
  simp [isPosition]

@[simp]
theorem isPosition_parallel :
    (parallel header a b).isPosition (.pair p q) = (a.isPosition p && b.isPosition q) := by
  simp [isPosition]

@[simp]
theorem isPosition_branch :
    (branch header a b c).isPosition (.triple p q r) =
      (a.isPosition p && b.isPosition q && c.isPosition r) := by
  simp [isPosition]

@[simp]
theorem isPosition_fix :
    (fix header a b policy).isPosition (.pair p q) = (a.isPosition p && b.isPosition q) := by
  simp [isPosition]

@[simp]
theorem isPosition_observe : (observe header a).isPosition position = a.isPosition position := by
  rw [isPosition]

/-- The positions of a sequence are the pairs of positions of its parts. -/
theorem isPosition_sequence_iff :
    (sequence header a b).isPosition position = true ↔
      ∃ p q, position = .pair p q ∧ a.isPosition p = true ∧ b.isPosition q = true := by
  constructor
  · intro known
    cases parts : position.pair? with
    | none => simp [isPosition, parts] at known
    | some sides =>
      obtain rfl := Value.pair?_eq_some.mp parts
      rw [isPosition_sequence, Bool.and_eq_true] at known
      exact ⟨_, _, rfl, known⟩
  · rintro ⟨p, q, rfl, knownFirst, knownSecond⟩
    rw [isPosition_sequence, knownFirst, knownSecond, Bool.and_self]

theorem isPosition_parallel_iff :
    (parallel header a b).isPosition position = true ↔
      ∃ p q, position = .pair p q ∧ a.isPosition p = true ∧ b.isPosition q = true :=
  (show (sequence header a b).isPosition position = true ↔ _ from isPosition_sequence_iff)

theorem isPosition_fix_iff :
    (fix header a b policy).isPosition position = true ↔
      ∃ p q, position = .pair p q ∧ a.isPosition p = true ∧ b.isPosition q = true :=
  (show (sequence header a b).isPosition position = true ↔ _ from isPosition_sequence_iff)

theorem isPosition_branch_iff :
    (branch header a b c).isPosition position = true ↔
      ∃ p q r, position = .triple p q r ∧ a.isPosition p = true ∧ b.isPosition q = true ∧
        c.isPosition r = true := by
  constructor
  · intro known
    cases parts : position.triple? with
    | none => simp [isPosition, parts] at known
    | some sides =>
      obtain rfl := Value.triple?_eq_some.mp parts
      rw [isPosition_branch, Bool.and_eq_true, Bool.and_eq_true] at known
      exact ⟨_, _, _, rfl, known.1.1, known.1.2, known.2⟩
  · rintro ⟨p, q, r, rfl, knownPredicate, knownTrue, knownFalse⟩
    rw [isPosition_branch, knownPredicate, knownTrue, knownFalse, Bool.and_self, Bool.and_self]

@[simp]
theorem parts2_pair [Monad m] {agent : Agent m} :
    step.parts2 agent (.pair p q) = (pure (p, q) : ExceptT StepError m (Value × Value)) := by
  simp [step.parts2]

@[simp]
theorem parts3_triple [Monad m] {agent : Agent m} :
    step.parts3 agent (.triple p q r) =
      (pure (p, q, r) : ExceptT StepError m (Value × Value × Value)) := by
  simp [step.parts3]

theorem directions_of_not_isPosition {agent : Agent m}
    (unknown : agent.isPosition position = false) :
    agent.directions position = .none := by
  rw [directions.eq_def, unknown]
  rfl

/-- Where there is no position nothing is legal. -/
theorem isPosition_of_contains {agent : Agent m} {input : Value}
    (legal : (agent.directions position).contains input = true) :
    agent.isPosition position = true := by
  cases known : agent.isPosition position with
  | true => rfl
  | false =>
    rw [directions_of_not_isPosition known] at legal
    exact nomatch legal

/-- Where the input is legal an agent may move; that includes that it is at a position. -/
theorem require_of_contains [Monad m] {agent : Agent m} {input : Value}
    (legal : (agent.directions position).contains input = true) :
    agent.require position input = (pure () : ExceptT StepError m Unit) := by
  unfold require
  rw [if_pos (isPosition_of_contains legal), if_pos legal]

theorem directions_primitive {machine : Machine m} (known : machine.positions.contains p = true) :
    (primitive header machine : Agent m).directions p = machine.directions p := by
  rw [directions, isPosition, if_pos known]

theorem directions_identity :
    (identity header : Agent m).directions .null = .typed header.signature.input := by
  simp [directions, isPosition, Value.isNull]

variable (known : a.isPosition p = true) (known' : b.isPosition q = true)

include known known'

theorem directions_sequence : (sequence header a b).directions (.pair p q) = a.directions p := by
  simp [directions, known, known']

theorem directions_parallel :
    (parallel header a b).directions (.pair p q) = (a.directions p).intersect (b.directions q) := by
  simp [directions, known, known']

theorem directions_branch (known'' : c.isPosition r = true) :
    (branch header a b c).directions (.triple p q r) =
      ((a.directions p).intersect (b.directions q)).intersect (c.directions r) := by
  simp [directions, known, known', known'']

theorem directions_fix : (fix header a b policy).directions (.pair p q) = b.directions q := by
  simp [directions, known, known']

end

/-- A stateless agent calls its function once for each input of its type, stays where it is, and gives
what the function gives if that is of the declared type. -/
theorem step_stateless_null {m : Type → Type} [Monad m] [LawfulMonad m] {name : String}
    {signature : Signature} (output : Value → m Value) {input : Value}
    (typed : signature.input.admits input = true) :
    (stateless name signature output).step .null input =
      (liftM (output input) : ExceptT StepError m Value) >>= fun given =>
        if signature.output.admits given then pure ⟨.null, given, [⟨name, input, given⟩]⟩
        else throw (.illTypedOutput name given signature.output) := by
  have allowed : (stateless name signature output).require .null input =
      (pure () : ExceptT StepError m Unit) := require_of_contains typed
  have unfolded : (stateless name signature output).step .null input =
      (stateless name signature output).require .null input >>= fun _ =>
        liftM (output input >>= fun given => pure (Value.null, given)) >>= fun given =>
          if [Value.null].contains given.1 then
            if signature.output.admits given.2 then
              pure (⟨given.1, given.2, [⟨name, input, given.2⟩]⟩ : Step)
            else throw (.illTypedOutput name given.2 signature.output)
          else throw (.illegalTransition name .null given.1) := rfl
  rw [unfolded, allowed, pure_bind]
  simp

theorem directions_observe {m : Type → Type} {header : Header} {a : Agent m} {p : Value} :
    (observe header a).directions p = a.directions p := by
  cases known : a.isPosition p with
  | true => simp [directions, isPosition, known]
  | false =>
    rw [directions_of_not_isPosition known,
      directions_of_not_isPosition (isPosition_observe.trans known)]

section

variable {header : Header} {machine : Machine Id} {policy : RetryPolicy Id} {a b c agent : Agent Id}
  {p q r position input : Value} {move : Step}

/-- A pure agent may move exactly where the input is legal. -/
theorem require_eq_ok {u : Unit} :
    (agent.require position input).run = .ok u ↔
      (agent.directions position).contains input = true := by
  constructor
  · intro allowed
    unfold require at allowed
    split at allowed
    · split at allowed
      · assumption
      · exact nomatch allowed
    · exact nomatch allowed
  · intro legal
    rw [require_of_contains legal]
    rfl

/-- A move is made only from a position and on an input that is legal there. -/
theorem legal_of_step (moved : (agent.step position input).run = .ok move) :
    (agent.directions position).contains input = true := by
  cases agent <;>
  · rw [step, run_bind_eq_ok] at moved
    obtain ⟨u, allowed, -⟩ := moved
    exact require_eq_ok.mp allowed

theorem isPosition_of_step (moved : (agent.step position input).run = .ok move) :
    agent.isPosition position = true :=
  isPosition_of_contains (legal_of_step moved)

theorem step_identity :
    ((identity header : Agent Id).step .null input).run = .ok move ↔
      header.signature.input.admits input = true ∧ ⟨.null, input, []⟩ = move := by
  rw [step, run_bind_eq_ok]
  simp only [require_eq_ok, directions_identity, Directions.contains, exists_and_left, exists_const]
  exact and_congr_right fun _ => ⟨Except.ok.inj, congrArg Except.ok⟩

theorem step_primitive :
    ((primitive header machine).step position input).run = .ok move ↔
      ((primitive header machine).directions position).contains input = true ∧
        machine.positions.contains (machine.transition position input).run.1 = true ∧
        header.signature.output.admits (machine.transition position input).run.2 = true ∧
        ⟨(machine.transition position input).run.1, (machine.transition position input).run.2,
          [⟨header.name, input, (machine.transition position input).run.2⟩]⟩ = move := by
  rw [step, run_bind_eq_ok]
  simp only [require_eq_ok, exists_and_left, exists_const]
  refine and_congr_right fun _ => ?_
  rw [Machine.run_step]
  constructor
  · intro made
    split at made
    · split at made
      · exact ⟨‹_›, ‹_›, Except.ok.inj made⟩
      · exact nomatch made
    · exact nomatch made
  · rintro ⟨within, typed, rfl⟩
    rw [if_pos within, if_pos typed]

/-- A sequence moves exactly if the second part can move on what the first gives; what it checks
itself comes to no more than that. -/
theorem step_sequence :
    ((sequence header a b).step (.pair p q) input).run = .ok move ↔
      ∃ one, (a.step p input).run = .ok one ∧ ∃ two, (b.step q one.output).run = .ok two ∧
        ⟨.pair one.position two.position, two.output, one.stages ++ two.stages⟩ = move := by
  rw [step, parts2_pair]
  simp only [run_bind_eq_ok, require_eq_ok, pure_bind, exists_and_left, exists_const]
  constructor
  · rintro ⟨-, one, first, two, second, made⟩
    exact ⟨one, first, two, second, Except.ok.inj made⟩
  · rintro ⟨one, first, two, second, rfl⟩
    refine ⟨?_, one, first, two, second, rfl⟩
    rw [directions_sequence (isPosition_of_step first) (isPosition_of_step second)]
    exact legal_of_step first

theorem step_parallel :
    ((parallel header a b).step (.pair p q) input).run = .ok move ↔
      ((parallel header a b).directions (.pair p q)).contains input = true ∧
        ∃ one, (a.step p input).run = .ok one ∧ ∃ two, (b.step q input).run = .ok two ∧
          ⟨.pair one.position two.position, .pair one.output two.output,
            one.stages ++ two.stages⟩ = move := by
  rw [step, parts2_pair]
  simp only [run_bind_eq_ok, require_eq_ok, pure_bind, exists_and_left, exists_const]
  refine and_congr_right fun _ => ?_
  constructor
  · rintro ⟨one, left, two, right, made⟩
    exact ⟨one, left, two, right, Except.ok.inj made⟩
  · rintro ⟨one, left, two, right, rfl⟩
    exact ⟨one, left, two, right, rfl⟩

theorem verdict_eq_ok {name : String} {output : Value} {holds : Bool} :
    (verdict name output : ExceptT StepError Id Bool).run = .ok holds ↔ output = .bool holds := by
  unfold verdict
  split
  · rename_i given
    exact ⟨fun same => congrArg Value.bool (Except.ok.inj same),
      fun same => congrArg Except.ok (Value.bool.inj same)⟩
  · rename_i other
    exact ⟨nofun, fun same => absurd same (other holds)⟩

/-- A branch moves exactly if the input is legal for all its parts, the predicate moves and gives a
truth value, and the arm that this chooses moves. -/
theorem step_branch :
    ((branch header a b c).step (.triple p q r) input).run = .ok move ↔
      ((branch header a b c).directions (.triple p q r)).contains input = true ∧
        ∃ judged, (a.step p input).run = .ok judged ∧
          ((judged.output = .bool true ∧ ∃ taken, (b.step q input).run = .ok taken ∧
              ⟨.triple judged.position taken.position r, taken.output,
                judged.stages ++ taken.stages⟩ = move) ∨
            (judged.output = .bool false ∧ ∃ taken, (c.step r input).run = .ok taken ∧
              ⟨.triple judged.position q taken.position, taken.output,
                judged.stages ++ taken.stages⟩ = move)) := by
  rw [step, parts3_triple]
  simp only [run_bind_eq_ok, require_eq_ok, pure_bind, exists_and_left, exists_const, verdict_eq_ok]
  refine and_congr_right fun _ => exists_congr fun judged => and_congr_right fun _ => ?_
  constructor
  · rintro ⟨holds, given, made⟩
    cases holds with
    | true =>
      obtain ⟨taken, moved, made⟩ := run_bind_eq_ok.mp made
      exact .inl ⟨given, taken, moved, Except.ok.inj made⟩
    | false =>
      obtain ⟨taken, moved, made⟩ := run_bind_eq_ok.mp made
      exact .inr ⟨given, taken, moved, Except.ok.inj made⟩
  · rintro (⟨given, taken, moved, rfl⟩ | ⟨given, taken, moved, rfl⟩)
    · exact ⟨true, given, run_bind_eq_ok.mpr ⟨taken, moved, rfl⟩⟩
    · exact ⟨false, given, run_bind_eq_ok.mpr ⟨taken, moved, rfl⟩⟩

/-- Observing adds no failures: the agent observed checks the same. -/
theorem step_observe :
    ((observe header a).step p input).run = .ok move ↔
      ∃ inner, (a.step p input).run = .ok inner ∧
        { inner with output := report a.name p input inner } = move := by
  rw [step]
  simp only [run_bind_eq_ok, require_eq_ok, exists_and_left, exists_const, directions_observe]
  constructor
  · rintro ⟨-, inner, moved, made⟩
    exact ⟨inner, moved, Except.ok.inj made⟩
  · rintro ⟨inner, moved, rfl⟩
    exact ⟨legal_of_step moved, inner, moved, rfl⟩

/-- The step in which a retry ends. The stages of the tries before the last are given last first. -/
def finished (status : RetryStatus) (attempts : Nat) (judged produced : Step)
    (before : List Stage) : Step :=
  ⟨.pair judged.position produced.position,
    RetryOutcome.toValue ⟨status, produced.output, attempts⟩,
    ((produced.stages ++ judged.stages).reverse ++ before).reverse⟩

/-- One try: it is the last if the predicate holds or no further tries remain. -/
theorem run_retry {name : String} {judge act : Value → Value → ExceptT StepError Id Step}
    {refine : Value → Value → Id Value} {remaining attempts : Nat} {before : List Stage}
    {produced judged : Step} {holds : Bool} (acted : (act q input).run = .ok produced)
    (asked : (judge p produced.output).run = .ok judged) (given : judged.output = .bool holds) :
    (retry name judge act refine remaining attempts p q input before).run =
      if holds then .ok (finished .converged attempts judged produced before)
      else
        match remaining with
        | 0 => .ok (finished .exhausted attempts judged produced before)
        | remaining + 1 =>
          (retry name judge act refine remaining (attempts + 1) judged.position produced.position
            (refine input produced.output).run
            ((produced.stages ++ judged.stages).reverse ++ before)).run := by
  have acted : act q input = pure produced := acted
  have asked : judge p produced.output = pure judged := asked
  have ruled : (verdict name judged.output : ExceptT StepError Id Bool) = pure holds :=
    verdict_eq_ok.mpr given
  rw [retry, acted, pure_bind, asked, pure_bind, ruled, pure_bind]
  cases holds with
  | true => rfl
  | false =>
    cases remaining with
    | zero => rfl
    | succ remaining => rfl

/-- A retry ends well exactly if its first try does and what comes after that does. -/
theorem retry_eq_ok {name : String} {judge act : Value → Value → ExceptT StepError Id Step}
    {refine : Value → Value → Id Value} {remaining attempts : Nat} {before : List Stage} :
    (retry name judge act refine remaining attempts p q input before).run = .ok move ↔
      ∃ produced, (act q input).run = .ok produced ∧
        ∃ judged, (judge p produced.output).run = .ok judged ∧
          ∃ holds, judged.output = .bool holds ∧
            (if holds then Except.ok (finished .converged attempts judged produced before)
            else
              match remaining with
              | 0 => Except.ok (finished .exhausted attempts judged produced before)
              | remaining + 1 =>
                (retry name judge act refine remaining (attempts + 1) judged.position
                  produced.position (refine input produced.output).run
                  ((produced.stages ++ judged.stages).reverse ++ before)).run) = .ok move := by
  constructor
  · intro made
    have opened := made
    rw [retry.eq_def] at opened
    obtain ⟨produced, acted, opened⟩ := run_bind_eq_ok.mp opened
    obtain ⟨judged, asked, opened⟩ := run_bind_eq_ok.mp opened
    obtain ⟨holds, given, -⟩ := run_bind_eq_ok.mp opened
    have given := verdict_eq_ok.mp given
    rw [run_retry acted asked given] at made
    exact ⟨produced, acted, judged, asked, holds, given, made⟩
  · rintro ⟨produced, acted, judged, asked, holds, given, made⟩
    rw [run_retry acted asked given]
    exact made

theorem step_fix :
    ((fix header a b policy).step (.pair p q) input).run = .ok move ↔
      ((fix header a b policy).directions (.pair p q)).contains input = true ∧
        (retry a.name a.step b.step policy.refine (policy.maxAttempts - 1) 1 p q input []).run =
          .ok move := by
  rw [step, parts2_pair]
  simp only [run_bind_eq_ok, require_eq_ok, pure_bind, exists_and_left, exists_const]

end

end Agent

end AgentAlgebra
