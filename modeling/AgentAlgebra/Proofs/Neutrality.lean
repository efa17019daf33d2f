import AgentAlgebra.Proofs.Construction
import AgentAlgebra.Proofs.Movement
import AgentAlgebra.Proofs.Traces
/-!
# The identity is neutral

The identity goes in front of every agent and behind every agent, and nothing is seen of it: the
traces are those of the agent alone, only that each position is paired with the `null` of the
identity. In front, the identity takes any input, so what the agent refuses is refused by the agent
itself and in its own name. Behind, the sequence looks first whether the agent takes the input, and
refuses in its place what it does not take.
-/

namespace AgentAlgebra

/-- A trace with its two positions put in some place, as those of a part are in a composite. -/
def Trace.placed (place : Value → Value) (trace : Trace) : Trace :=
  { trace with initial := place trace.initial, finalPosition := place trace.finalPosition }

/-- What can be anything may be fed to every agent. -/
theorem ValueType.accepts_any (type : ValueType) : type.accepts .any = true := by
  cases type <;> rfl

namespace Agent

/-- The identity in front of an agent passes the input on to it, whatever the effects of its move. -/
theorem step_after_identity {m : Type → Type} [Monad m] [LawfulMonad m] {a : Agent m}
    {header : Header} {p : Value} (known : a.isPosition p = true) (input : Value) :
    (sequence header (.id .any) a).step (.pair .null p) input =
      (fun move => { move with position := .pair .null move.position }) <$> a.step p input := by
  have legal : ((sequence header (.id .any) a).directions (.pair .null p)).contains input = true := by
    rw [directions_sequence rfl known]
    rfl
  have allowed : (Agent.id .any).require .null input = (pure () : ExceptT StepError m Unit) :=
    require_of_contains rfl
  have passed : (Agent.id .any).step .null input =
      (pure ⟨.null, input, []⟩ : ExceptT StepError m Step) := by
    rw [Agent.id] at allowed ⊢
    rw [step, allowed, pure_bind]
  rw [step, require_of_contains legal, parts2_pair, pure_bind, pure_bind]
  dsimp only
  rw [passed, pure_bind, map_eq_pure_bind]
  rfl

variable {a : Agent Id} {header : Header} {p input : Value} {inputs : List Value}

/-- The identity behind an agent passes its output on. -/
theorem step_before_identity {move : Step} :
    ((sequence header a (.id .any)).step (.pair p .null) input).run = .ok move ↔
      ∃ own, (a.step p input).run = .ok own ∧
        { own with position := .pair own.position .null } = move := by
  rw [step_sequence]
  refine exists_congr fun own => and_congr_right fun _ => ?_
  constructor
  · rintro ⟨_, passed, rfl⟩
    obtain ⟨-, rfl⟩ := step_identity.mp passed
    rw [List.append_nil]
  · rintro rfl
    refine ⟨_, step_identity.mpr ⟨rfl, rfl⟩, ?_⟩
    rw [List.append_nil]

theorem traceFrom_after_identity (known : a.isPosition p = true) (inputs : List Value) :
    ((sequence header (.id .any) a).traceFrom (.pair .null p) inputs).run =
      (a.traceFrom p inputs).run.map fun traced => (traced.1, .pair .null traced.2) := by
  induction inputs generalizing p with
  | nil => rfl
  | cons input inputs ih =>
    rw [traceFrom, traceFrom, step_after_identity known]
    cases moved : (a.step p input).run with
    | error e =>
      have own : a.step p input = throw e := moved
      rw [own]
      rfl
    | ok move =>
      have own : a.step p input = pure move := moved
      rw [own, map_pure, pure_bind, pure_bind]
      have rest := ih (isPosition_of_moved moved)
      rw [ExceptT.run_bind, ExceptT.run_bind, rest]
      cases (a.traceFrom move.position inputs).run with
      | error e => rfl
      | ok traced => rfl

theorem traceFrom_before_identity {steps : List StepTrace} {last : Value} :
    ((sequence header a (.id .any)).traceFrom (.pair p .null) inputs).run = .ok (steps, last) ↔
      ∃ q, (a.traceFrom p inputs).run = .ok (steps, q) ∧ .pair q .null = last := by
  induction inputs generalizing p steps with
  | nil =>
    simp only [traceFrom_nil]
    constructor
    · rintro ⟨rfl, rfl⟩
      exact ⟨p, ⟨rfl, rfl⟩, rfl⟩
    · rintro ⟨_, ⟨rfl, rfl⟩, rfl⟩
      exact ⟨rfl, rfl⟩
  | cons input inputs ih =>
    have seen (own : Step) : (sequence header a (.id .any)).record input
        { own with position := .pair own.position .null } = a.record input own := by
      simp [record, frontier, Agent.id]
    simp only [traceFrom_cons, step_before_identity]
    constructor
    · rintro ⟨_, ⟨own, moved, rfl⟩, rest, followed, rfl⟩
      obtain ⟨q, alone, rfl⟩ := ih.mp followed
      exact ⟨q, ⟨own, moved, rest, alone, by rw [seen]⟩, rfl⟩
    · rintro ⟨q, ⟨own, moved, rest, alone, rfl⟩, rfl⟩
      exact ⟨_, ⟨own, moved, rfl⟩, rest, ih.mpr ⟨q, alone, rfl⟩, by rw [seen]⟩

theorem trace_after_identity (known : a.isPosition p = true) (inputs : List Value) :
    ((sequence header (.id .any) a).trace (.pair .null p) inputs).run =
      (a.trace p inputs).run.map (.placed (.pair .null)) := by
  have within : (sequence header (.id .any) a).isPosition (.pair .null p) = true :=
    isPosition_sequence_iff.mpr ⟨.null, p, rfl, rfl, known⟩
  unfold Agent.trace
  rw [if_pos within, if_pos known, ExceptT.run_bind, ExceptT.run_bind,
    traceFrom_after_identity known]
  cases (a.traceFrom p inputs).run with
  | error e => rfl
  | ok traced => rfl

theorem trace_before_identity {seen : Trace} :
    ((sequence header a (.id .any)).trace (.pair p .null) inputs).run = .ok seen ↔
      ∃ own, (a.trace p inputs).run = .ok own ∧ own.placed (.pair · .null) = seen := by
  have behind : (Agent.id .any : Agent Id).isPosition .null = true := rfl
  simp only [trace_eq_ok, isPosition_sequence, behind, Bool.and_true, traceFrom_before_identity]
  constructor
  · rintro ⟨known, steps, _, ⟨q, went, rfl⟩, rfl⟩
    exact ⟨_, ⟨known, steps, q, went, rfl⟩, by simp [Trace.placed, frontier, Agent.id]⟩
  · rintro ⟨_, ⟨known, steps, q, went, rfl⟩, rfl⟩
    exact ⟨known, steps, _, ⟨q, went, rfl⟩, by simp [Trace.placed, frontier, Agent.id]⟩

/-- The identity goes in front of every agent and behind it. In front, the traces from a position are
those of the agent alone, errors included; behind, a trace is made exactly if the agent alone makes
it, and it is the same. Only the positions are paired with that of the identity. -/
theorem identity_neutral (a : Agent Id) :
    ∃ left right, (Agent.id .any).inSequence a = .ok left ∧ a.inSequence (.id .any) = .ok right ∧
      ∀ p, a.isPosition p = true → ∀ inputs,
        (left.trace (.pair .null p) inputs).run =
            (a.trace p inputs).run.map (.placed (.pair .null)) ∧
          ∀ seen, (right.trace (.pair p .null) inputs).run = .ok seen ↔
            ∃ own, (a.trace p inputs).run = .ok own ∧ own.placed (.pair · .null) = seen :=
  ⟨_, _, inSequence_eq_ok.mpr ⟨a.input.accepts_any, rfl⟩, inSequence_eq_ok.mpr ⟨rfl, rfl⟩,
    fun _ known inputs => ⟨trace_after_identity known inputs, fun _ => trace_before_identity⟩⟩

/-- An exchange refuses what is no pair in its own name, also behind an identity. In front of an
identity it exchanges pairs as it does alone. -/
theorem identity_neutral_swap :
    ∃ left right : Agent Id, (Agent.id .any).inSequence .swap = .ok left ∧
      Agent.swap.inSequence (.id .any) = .ok right ∧
      (Agent.swap : Agent Id).isPosition .null = true ∧
      (left.trace (.pair .null .null) [.pair .null .null, .null]).run =
        .error (.illegalInput "swap" .null .null) ∧
      ∃ seen, (right.trace (.pair .null .null) [.pair .null (.bool true)]).run = .ok seen ∧
        seen.outputs = [.pair (.bool true) .null] := by
  obtain ⟨left, right, madeLeft, madeRight, alike⟩ := identity_neutral .swap
  exact ⟨left, right, madeLeft, madeRight, rfl, (alike .null rfl _).1.trans rfl, _,
    ((alike .null rfl _).2 _).mpr ⟨_, rfl, rfl⟩, rfl⟩

end Agent

end AgentAlgebra
