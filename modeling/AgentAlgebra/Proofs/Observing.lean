import AgentAlgebra.Proofs.Forms
import AgentAlgebra.Proofs.Recordings
/-!
# What an observer tells

An agent that is observed moves as it does alone; only its outputs are replaced by accounts of its
moves. The accounts of a run follow one on another, each from where the one before it ended, and
together they hold the whole run: its inputs, its outputs and the positions it goes through.
-/

namespace AgentAlgebra

/-- A move as an observer gives account of it. -/
structure Account where
  input : Value
  output : Value
  source : Value
  target : Value

namespace Account

/-- The account of a move of the agent with this name. -/
def toValue (agent : String) (account : Account) : Value :=
  .record [("output", account.output),
    ("observation", .record [("agent", .text agent), ("input", account.input),
      ("from", account.source), ("to", account.target)])]

def ofValue? (value : Value) : Option Account := do
  let observation ← value.field? "observation"
  return ⟨← observation.field? "input", ← value.field? "output", ← observation.field? "from",
    ← observation.field? "to"⟩

theorem ofValue?_toValue (agent : String) (account : Account) :
    ofValue? (account.toValue agent) = some account := by
  simp [ofValue?, toValue, Fields.get?_ofList, Fields.lookup_cons]

/-- Written accounts are read back as they were. -/
theorem mapM_ofValue? (agent : String) (accounts : List Account) :
    (accounts.map (·.toValue agent)).mapM ofValue? = some accounts := by
  have reading : ofValue? ∘ (·.toValue agent) = some := funext (ofValue?_toValue agent)
  rw [List.mapM_map, reading]
  exact List.mapM_pure.trans (congrArg some (List.map_id accounts))

/-- Each account starts where the one before it ended. -/
def Chained : (start : Value) → List Account → (finish : Value) → Prop
  | start, [], finish => start = finish
  | start, account :: rest, finish => account.source = start ∧ Chained account.target rest finish

end Account

/-- The same steps with other outputs. -/
def retold (steps : List StepTrace) (outputs : List Value) : List StepTrace :=
  List.zipWith (fun step output => { step with output }) steps outputs

namespace Agent

variable {a : Agent Id} {header : Header} {position start input output : Value}
  {inputs outputs : List Value} {accounts : List Account} {move : Step}

/-- After so many of the inputs the agent is at this position. -/
def IsAt (agent : Agent Id) (start : Value) (inputs : List Value) (count : Nat) (position : Value) :
    Prop :=
  ∃ out, (agent.run start (inputs.take count)).run = .ok out ∧ out.finalPosition = position

/-- These are the accounts of what the agent does from `start` on the inputs, where it gives the
outputs: each says what went in and what came out at its place, and between which of the positions
that the agent goes through. -/
structure Accounts (agent : Agent Id) (start : Value) (inputs outputs : List Value)
    (accounts : List Account) : Prop where
  map_input : accounts.map (·.input) = inputs
  map_output : accounts.map (·.output) = outputs
  places : ∀ k account, accounts[k]? = some account →
    agent.IsAt start inputs k account.source ∧ agent.IsAt start inputs (k + 1) account.target

theorem isAt_zero : a.IsAt start inputs 0 position ↔ start = position := by
  constructor
  · rintro ⟨out, ran, rfl⟩
    obtain rfl := run_nil.mp ran
    rfl
  · rintro rfl
    exact ⟨_, rfl, rfl⟩

theorem isAt_succ (moved : (a.step start input).run = .ok move) (count : Nat) :
    a.IsAt start (input :: inputs) (count + 1) position ↔
      a.IsAt move.position inputs count position := by
  unfold IsAt
  rw [List.take_succ_cons]
  constructor
  · rintro ⟨_, ran, rfl⟩
    obtain ⟨move', moved', rest, followed, rfl⟩ := run_cons.mp ran
    obtain rfl := Except.ok.inj (moved.symm.trans moved')
    exact ⟨rest, followed, rfl⟩
  · rintro ⟨rest, followed, rfl⟩
    exact ⟨_, run_cons.mpr ⟨move, moved, rest, followed, rfl⟩, rfl⟩

theorem accounts_nil : a.Accounts start [] [] accounts ↔ accounts = [] := by
  constructor
  · intro given
    exact List.map_eq_nil_iff.mp given.map_input
  · rintro rfl
    exact ⟨rfl, rfl, nofun⟩

/-- The first account is that of the first move, and the others are those of what follows it. -/
theorem accounts_cons (moved : (a.step start input).run = .ok move) :
    a.Accounts start (input :: inputs) (output :: outputs) accounts ↔
      ∃ rest, accounts = ⟨input, output, start, move.position⟩ :: rest ∧
        a.Accounts move.position inputs outputs rest := by
  constructor
  · rintro ⟨said, gave, places⟩
    obtain ⟨⟨_, _, source, target⟩, rest, rfl, rfl, saidOthers⟩ := List.map_eq_cons_iff.mp said
    obtain ⟨rfl, gaveOthers⟩ := List.cons.inj gave
    obtain ⟨first, second⟩ := places 0 _ rfl
    have source : start = source := isAt_zero.mp first
    have target : move.position = target := isAt_zero.mp ((isAt_succ moved 0).mp second)
    refine ⟨rest, by rw [source, target], saidOthers, gaveOthers, fun k account here => ?_⟩
    obtain ⟨before, after⟩ := places (k + 1) account here
    exact ⟨(isAt_succ moved k).mp before, (isAt_succ moved (k + 1)).mp after⟩
  · rintro ⟨rest, rfl, given⟩
    refine ⟨by rw [List.map_cons, given.map_input], by rw [List.map_cons, given.map_output], ?_⟩
    intro k account here
    cases k with
    | zero =>
      obtain rfl := Option.some.inj here
      exact ⟨isAt_zero.mpr rfl, (isAt_succ moved 0).mpr (isAt_zero.mpr rfl)⟩
    | succ k =>
      obtain ⟨before, after⟩ := given.places k account here
      exact ⟨(isAt_succ moved k).mpr before, (isAt_succ moved (k + 1)).mpr after⟩

theorem Accounts.length (given : a.Accounts start inputs outputs accounts) :
    accounts.length = outputs.length := by
  rw [← given.map_output, List.length_map]

/-- Of every run there are accounts, and they follow one on another from where it starts to where it
ends. -/
theorem exists_accounts {out : Run} (ran : (a.run start inputs).run = .ok out) :
    ∃ accounts, a.Accounts start inputs out.outputs accounts ∧
      Account.Chained start accounts out.finalPosition := by
  induction inputs generalizing start out with
  | nil =>
    obtain rfl := run_nil.mp ran
    exact ⟨[], accounts_nil.mpr rfl, rfl⟩
  | cons input inputs ih =>
    obtain ⟨move, moved, rest, followed, rfl⟩ := run_cons.mp ran
    obtain ⟨accounts, given, chained⟩ := ih followed
    exact ⟨_, (accounts_cons moved).mpr ⟨accounts, rfl, given⟩, rfl, chained⟩

/-- The steps of an observer are those of the agent that it observes, with the accounts of them for
their outputs. -/
theorem traceFrom_observe {own : List StepTrace} {last : Value}
    (traced : (a.traceFrom start inputs).run = .ok (own, last))
    (given : a.Accounts start inputs (own.map (·.output)) accounts) :
    ((observe header a).traceFrom start inputs).run =
      .ok (retold own (accounts.map (·.toValue a.name)), last) := by
  induction inputs generalizing start own accounts with
  | nil =>
    obtain ⟨rfl, rfl⟩ := traceFrom_nil.mp traced
    rfl
  | cons input inputs ih =>
    obtain ⟨move, moved, rest, followed, rfl⟩ := traceFrom_cons.mp traced
    obtain ⟨others, rfl, told⟩ := (accounts_cons moved).mp given
    exact traceFrom_cons.mpr ⟨_, step_observe.mpr ⟨move, moved, rfl⟩, _, ih followed told, rfl⟩

/-- An observer takes no step that the agent does not take alone. -/
theorem exists_traceFrom_of_observe {steps : List StepTrace} {last : Value}
    (traced : ((observe header a).traceFrom start inputs).run = .ok (steps, last)) :
    ∃ own, (a.traceFrom start inputs).run = .ok (own, last) := by
  induction inputs generalizing start steps with
  | nil =>
    obtain ⟨-, rfl⟩ := traceFrom_nil.mp traced
    exact ⟨[], rfl⟩
  | cons input inputs ih =>
    obtain ⟨_, reported, rest, followed, -⟩ := traceFrom_cons.mp traced
    obtain ⟨move, moved, rfl⟩ := step_observe.mp reported
    obtain ⟨own, went⟩ := ih followed
    exact ⟨_, traceFrom_cons.mpr ⟨move, moved, own, went, rfl⟩⟩

theorem outputs_retold {steps : List StepTrace} {outputs : List Value}
    (long : outputs.length = steps.length) : (retold steps outputs).map (·.output) = outputs := by
  induction steps generalizing outputs with
  | nil =>
    obtain rfl := List.length_eq_zero_iff.mp long
    rfl
  | cons step steps ih =>
    cases outputs with
    | nil => cases long
    | cons output outputs => exact congrArg (output :: ·) (ih (Nat.succ.inj long))

theorem run_observed {own : Run} (ran : (a.run start inputs).run = .ok own)
    (given : a.Accounts start inputs own.outputs accounts) :
    (a.observed.run start inputs).run =
      .ok ⟨own.finalPosition, accounts.map (·.toValue a.name)⟩ := by
  obtain ⟨steps, last, traced, rfl⟩ := run_eq_ok_iff_traceFrom.mp ran
  refine run_eq_ok_iff_traceFrom.mpr ⟨_, _, traceFrom_observe traced given, ?_⟩
  rw [outputs_retold]
  rw [List.length_map, given.length, List.length_map]

theorem trace_observed {seen : Trace} (traced : (a.trace start inputs).run = .ok seen)
    (given : a.Accounts start inputs seen.outputs accounts) :
    (a.observed.trace start inputs).run =
      .ok { seen with steps := retold seen.steps (accounts.map (·.toValue a.name)) } := by
  obtain ⟨known, steps, last, went, rfl⟩ := trace_eq_ok.mp traced
  exact trace_eq_ok.mpr
    ⟨isPosition_observe.trans known, _, last, traceFrom_observe went given, rfl⟩

/-- Observing an agent changes nothing but its outputs, and these hold its whole run. From every start
the observer gets through the inputs exactly if the agent does. Of the run of the agent there are then
accounts: of each move what went in, what came out, and from which to which of the positions that the
agent goes through it led. The run of the observer ends where that of the agent ends, and its outputs
are the accounts in their written form, which can be read back; each starts where the one before it
ended. Its trace is that of the agent with these outputs, with the same frontiers and stages. -/
theorem observing_transparent (a : Agent Id) (start : Value) (inputs : List Value) :
    ((∃ out, (a.observed.run start inputs).run = .ok out) ↔
      ∃ own, (a.run start inputs).run = .ok own) ∧
    ((∃ seen, (a.observed.trace start inputs).run = .ok seen) ↔
      ∃ own, (a.trace start inputs).run = .ok own) ∧
    ∀ own, (a.run start inputs).run = .ok own →
      ∃ accounts, a.Accounts start inputs own.outputs accounts ∧
        Account.Chained start accounts own.finalPosition ∧
        (accounts.map (·.toValue a.name)).mapM Account.ofValue? = some accounts ∧
        (a.observed.run start inputs).run =
          .ok ⟨own.finalPosition, accounts.map (·.toValue a.name)⟩ ∧
        ∀ seen, (a.trace start inputs).run = .ok seen →
          (a.observed.trace start inputs).run =
            .ok { seen with steps := retold seen.steps (accounts.map (·.toValue a.name)) } := by
  refine ⟨⟨?_, ?_⟩, ⟨?_, ?_⟩, ?_⟩
  · rintro ⟨out, ran⟩
    obtain ⟨steps, last, traced, -⟩ := run_eq_ok_iff_traceFrom.mp ran
    obtain ⟨own, went⟩ := exists_traceFrom_of_observe traced
    exact ⟨_, run_eq_ok_iff_traceFrom.mpr ⟨own, last, went, rfl⟩⟩
  · rintro ⟨own, ran⟩
    obtain ⟨accounts, given, -⟩ := exists_accounts ran
    exact ⟨_, run_observed ran given⟩
  · rintro ⟨seen, traced⟩
    obtain ⟨known, steps, last, went, -⟩ := trace_eq_ok.mp traced
    obtain ⟨own, went⟩ := exists_traceFrom_of_observe went
    exact ⟨_, trace_eq_ok.mpr ⟨isPosition_observe.symm.trans known, own, last, went, rfl⟩⟩
  · rintro ⟨own, traced⟩
    obtain ⟨accounts, given, -⟩ := exists_accounts (run_of_trace traced)
    exact ⟨_, trace_observed traced given⟩
  · intro own ran
    obtain ⟨accounts, given, chained⟩ := exists_accounts ran
    refine ⟨accounts, given, chained, Account.mapM_ofValue? _ _, run_observed ran given, ?_⟩
    intro seen traced
    obtain rfl := Except.ok.inj ((run_of_trace traced).symm.trans ran)
    exact trace_observed traced given

/-- The observer of an observed latch: its accounts hold those of the inner observer. -/
theorem observing_transparent_twice :
    ∃ (agent : Agent Id) (own : Run) (accounts : List Account), latch.build = .ok agent ∧
      (agent.observed.run (.bool false) [.bool true, .bool true]).run = .ok own ∧
      (agent.observed.observed.run (.bool false) [.bool true, .bool true]).run =
        .ok ⟨.bool true, accounts.map (·.toValue "observe(latch)")⟩ ∧
      accounts.map (·.input) = [.bool true, .bool true] ∧
      accounts.map (·.output) =
        [Account.toValue "latch" ⟨.bool true, .bool false, .bool false, .bool true⟩,
          Account.toValue "latch" ⟨.bool true, .bool true, .bool true, .bool true⟩] ∧
      Account.Chained (.bool false) accounts (.bool true) ∧
      (accounts.map (·.toValue "observe(latch)")).mapM Account.ofValue? = some accounts := by
  obtain ⟨agent, made⟩ : ∃ agent, latch.build = .ok agent := ⟨_, rfl⟩
  obtain ⟨own, ran, ended, gave⟩ : ∃ own,
      (agent.observed.run (.bool false) [.bool true, .bool true]).run = .ok own ∧
        own.finalPosition = .bool true ∧ own.outputs =
          [Account.toValue "latch" ⟨.bool true, .bool false, .bool false, .bool true⟩,
            Account.toValue "latch" ⟨.bool true, .bool true, .bool true, .bool true⟩] := by
    cases made
    exact ⟨_, rfl, rfl, rfl⟩
  have named : agent.observed.name = "observe(latch)" := by
    cases made
    decide
  obtain ⟨-, -, told⟩ := observing_transparent agent.observed (.bool false) [.bool true, .bool true]
  obtain ⟨accounts, given, chained, read, observed, -⟩ := told own ran
  rw [named] at read observed
  rw [ended] at chained observed
  exact ⟨agent, own, accounts, made, ran, observed, given.map_input, given.map_output.trans gave,
    chained, read⟩

end Agent

end AgentAlgebra
