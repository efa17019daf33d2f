import AgentAlgebra.Explore.Sample
import AgentAlgebra.Proofs.Exhaustive
/-!
# What is drawn is enumerated

Whatever numbers are drawn, an agent built by operations drawn at random is the value of a tree of
operations over the agents given, and no higher than steps were taken: each step makes the current
agent higher by one at most, and all agents to draw from are as low as the current one may be. So the
enumeration to that depth holds it, unless the cap cuts it short.
-/

namespace AgentAlgebra

variable {m : Type → Type} [Monad m]

/-- The agent is the value of a tree of operations of at most this height over the agents given. -/
def Reaches (algebra : Algebra m) (primitives : List (Agent m)) (height : Nat) (agent : Agent m) :
    Prop :=
  ∃ tree, Composes algebra primitives tree agent ∧ tree.height ≤ height

variable {algebra : Algebra m} {primitives : List (Agent m)} {height above : Nat}
  {agent current : Agent m} {operation : Operation m}
  {attempt : Operation m → List (Agent m) → Option (Agent m)}

namespace Reaches

theorem mono (reaches : Reaches algebra primitives height agent) (higher : height ≤ above) :
    Reaches algebra primitives above agent := by
  obtain ⟨tree, composed, low⟩ := reaches
  exact ⟨tree, composed, low.trans higher⟩

/-- The agents given are leaves. -/
theorem of_mem (among : agent ∈ primitives) : Reaches algebra primitives 0 agent := by
  obtain ⟨index, bound⟩ := List.mem_iff_getElem?.mp among
  exact ⟨.var index, .leaf bound, le_rfl⟩

/-- What an operation makes of values of trees is the value of a tree that is higher by one. -/
theorem of_makes {operands : List (Agent m)} (among : operation ∈ algebra.operations)
    (each : ∀ operand ∈ operands, Reaches algebra primitives height operand)
    (made : operation.Makes operands agent) : Reaches algebra primitives (height + 1) agent := by
  have : Nonempty (Expr m) := ⟨.identity⟩
  choose! tree composed low using each
  have values : (operands.map fun operand => (tree operand, operand)).map Prod.snd = operands := by
    simp [Function.comp_def]
  have trees : (operands.map fun operand => (tree operand, operand)).map Prod.fst =
      operands.map tree := List.map_map
  refine ⟨.applyTo operation.name (operands.map tree), ?_, Expr.height_applyTo_le.mpr ?_⟩
  · refine composes_applyTo.mpr ⟨operation, among, rfl, _, trees, fun part listed => ?_, ?_⟩
    · obtain ⟨operand, found, rfl⟩ := List.mem_map.mp listed
      exact composed operand found
    · rwa [values]
  · intro part listed
    obtain ⟨operand, found, rfl⟩ := List.mem_map.mp listed
    exact low operand found

end Reaches

/-- Where operations build without effects, applying one gives an agent only if it makes that agent. -/
theorem Algebra.BuildsBy.makes (builds : algebra.BuildsBy attempt)
    (among : operation ∈ algebra.operations) (operands : List (Agent m)) :
    ∃ result, (operation.apply operands).run = pure result ∧
      ∀ agent, result = .ok agent → operation.Makes operands agent := by
  by_cases counted : operands.length = operation.arity
  · cases composer : operation.composer with
    | builtin builtin =>
      refine ⟨builtin.compose operands, ?_, fun agent made => ⟨counted, ?_⟩⟩
      · simp only [Operation.apply, if_pos counted, composer]
        cases builtin.compose operands with
        | error fault => rfl
        | ok made => rfl
      · rw [composer]
        exact made
    | extension build =>
      obtain ⟨result, ran, -⟩ := builds operation among operands
      refine ⟨result, ran, fun agent made => ⟨counted, ?_⟩⟩
      rw [composer]
      simp only [Operation.apply, if_pos counted, composer] at ran
      exact made ▸ ran
  · refine ⟨.error (.arityMismatch operation.name operation.arity operands.length), ?_, nofun⟩
    simp only [Operation.apply, if_neg counted]
    rfl

namespace Sampling

variable {γ : Type} {pool : Pool m} {draw : Draw γ} {source : γ}

omit [Monad m] in
theorem Pool.draw_mem : (pool.draw draw source).1 ∈ pool.agents := Array.getElem_mem _

omit [Monad m] in
theorem Pool.mem_of_drawMany {count : Nat} (drawn : agent ∈ (pool.drawMany draw count source).1) :
    agent ∈ pool.agents := by
  induction count generalizing source with
  | zero => exact absurd drawn List.not_mem_nil
  | succ count ih =>
    rcases List.mem_cons.mp drawn with rfl | drawn
    · exact draw_mem
    · exact ih drawn

omit [Monad m] in
theorem mem_of_placeCurrent {operands : List (Agent m)}
    (placed : agent ∈ (placeCurrent draw current operands source).1) :
    agent ∈ operands ∨ agent = current := by
  unfold placeCurrent at placed
  split at placed
  · exact List.mem_or_eq_of_mem_set placed
  · exact .inl placed

variable [LawfulMonad m] {choice : Choice m}

/-- Growing the current agent, however often it is tried, makes it higher by one at most. -/
theorem reaches_of_grow (builds : algebra.BuildsBy attempt)
    (those : ∀ operation ∈ choice.operations, operation ∈ algebra.operations)
    (pooled : ∀ agent ∈ pool.agents, Reaches algebra primitives height agent)
    (here : Reaches algebra primitives height current) (tries : Nat) (source : γ) :
    ∃ grown after, grow choice draw pool current tries source = pure (grown, after) ∧
      ∀ agent ∈ grown, Reaches algebra primitives (height + 1) agent := by
  induction tries generalizing source with
  | zero => exact ⟨none, source, rfl, nofun⟩
  | succ tries ih =>
    simp only [grow, Fin.getElem_fin]
    have among := those _ (Array.getElem_mem (draw choice.operations.size choice.nonempty source).1.isLt)
    generalize drawn : placeCurrent draw current (pool.drawMany draw _ _).1 _ = operands
    obtain ⟨result, ran, makes⟩ := builds.makes among operands.1
    have each : ∀ operand ∈ operands.1, Reaches algebra primitives height operand := by
      intro operand placed
      rcases mem_of_placeCurrent (drawn ▸ placed) with given | rfl
      · exact pooled operand (Pool.mem_of_drawMany given)
      · exact here
    rw [ran, pure_bind]
    cases result with
    | error fault => exact ih operands.2
    | ok agent =>
      refine ⟨some agent, operands.2, rfl, ?_⟩
      rintro _ ⟨⟩
      exact .of_makes among each (makes agent rfl)

omit [LawfulMonad m] in
/-- The pool may be as high as the agent that is put into it. -/
theorem reaches_of_push (pooled : ∀ agent ∈ pool.agents, Reaches algebra primitives height agent)
    (grown : Reaches algebra primitives (height + 1) current) :
    ∀ agent ∈ (pool.push current).agents, Reaches algebra primitives (height + 1) agent := by
  intro agent among
  rcases Array.mem_push.mp among with old | rfl
  · exact (pooled agent old).mono (Nat.le_succ height)
  · exact grown

/-- A number of steps make the current agent higher by that number at most. The induction keeps one
height for the pool and the current agent, as the next step draws from both. -/
theorem reaches_of_steps (builds : algebra.BuildsBy attempt)
    (those : ∀ operation ∈ choice.operations, operation ∈ algebra.operations)
    (pooled : ∀ agent ∈ pool.agents, Reaches algebra primitives height agent)
    (here : Reaches algebra primitives height current) (bound : Nat) (source : γ) :
    ∃ agent, steps choice draw bound pool current source = pure agent ∧
      Reaches algebra primitives (height + bound) agent := by
  induction bound generalizing height pool current source with
  | zero => exact ⟨current, rfl, here⟩
  | succ bound ih =>
    obtain ⟨grown, after, ran, reaches⟩ :
        ∃ grown after, grow choice draw pool current triesPerStep source = pure (grown, after) ∧
          ∀ agent ∈ grown, Reaches algebra primitives (height + 1) agent :=
      reaches_of_grow builds those pooled here triesPerStep source
    rw [steps, ran, pure_bind]
    cases grown with
    | none =>
      obtain ⟨agent, ended, low⟩ := ih pooled here after
      exact ⟨agent, ended, low.mono (by omega)⟩
    | some grown =>
      have higher := reaches grown rfl
      obtain ⟨agent, ended, low⟩ := ih (reaches_of_push pooled higher) higher after
      exact ⟨agent, ended, low.mono (by omega)⟩

end Sampling

variable {γ : Type} [LawfulMonad m]

/-- What is drawn at random is reached in as many steps as may be taken. -/
theorem reaches_of_sample (builds : algebra.BuildsBy attempt) (given : primitives ≠ [])
    (draw : Draw γ) (source : γ) (bound : Nat) :
    ∃ agent, (sample draw algebra primitives source bound).run = pure (.ok agent) ∧
      Reaches algebra primitives bound agent := by
  have some : 0 < primitives.toArray.size := by simpa using List.length_pos_iff.mpr given
  let pool : Sampling.Pool m := ⟨primitives.toArray, some⟩
  have pooled : ∀ agent ∈ pool.agents, Reaches algebra primitives 0 agent :=
    fun agent among => .of_mem (List.mem_toArray.mp among)
  have drawn : Reaches algebra primitives 0 (pool.draw draw source).1 :=
    pooled _ Sampling.Pool.draw_mem
  simp only [sample, dif_pos some]
  split
  · rename_i choices
    let choice : Sampling.Choice m := ⟨algebra.operations.toArray, choices⟩
    have those : ∀ operation ∈ choice.operations, operation ∈ algebra.operations :=
      fun _ among => List.mem_toArray.mp among
    obtain ⟨agent, ended, reaches⟩ :
        ∃ agent, Sampling.steps choice draw bound pool (pool.draw draw source).1
            (pool.draw draw source).2 = pure agent ∧
          Reaches algebra primitives (0 + bound) agent :=
      Sampling.reaches_of_steps builds those pooled drawn bound _
    refine ⟨agent, ?_, Nat.zero_add bound ▸ reaches⟩
    change (liftM (Sampling.steps choice draw bound pool _ _) : ExceptT AlgebraError m _).run = _
    rw [ended, liftM_pure, ExceptT.run_pure]
  · exact ⟨_, rfl, drawn.mono (Nat.zero_le bound)⟩

/-- Whatever is drawn, and from any agents, drawing succeeds: with one of them or the value of a tree of
operations over them, no higher than steps may be taken. Over the base algebra and agents with
different plain names, the enumeration to that depth holds an agent of its name, unless the cap cuts it
short. That there is something to draw from each time is what a draw asks for. -/
theorem sample_enumerated (builds : algebra.BuildsBy attempt) (given : primitives ≠ [])
    (draw : Draw γ) (source : γ) (bound : Nat) :
    ∃ agent, (sample draw algebra primitives source bound).run = pure (.ok agent) ∧
      (∃ tree, Composes algebra primitives tree agent ∧ tree.height ≤ bound) ∧
      ∀ policy, algebra = .baseWith policy → (primitives.map Agent.name).Nodup →
        (∀ primitive ∈ primitives, Plain primitive.name) → ∀ cap, ∃ found,
          enumerate algebra primitives bound cap = pure found ∧
          (found.size < cap → agent.name ∈ found.toList.map Agent.name) := by
  obtain ⟨agent, drawn, tree, composed, low⟩ := reaches_of_sample builds given draw source bound
  refine ⟨agent, drawn, ⟨tree, composed, low⟩, ?_⟩
  rintro policy rfl names plain cap
  obtain ⟨found, ran, all⟩ := enumerate_exhausts (Algebra.legible_baseWith policy) names plain
    (Algebra.buildsBy_baseWith policy) (Algebra.makesBy_baseWith policy) bound cap
  refine ⟨found, ran, fun room => ?_⟩
  obtain ⟨built, exhausts, values⟩ := all room
  have held : (tree, agent) ∈ built := (exhausts.all tree agent).mpr ⟨composed, low⟩
  rw [values]
  exact List.mem_map_of_mem (List.mem_map_of_mem held)

/-- Draws as listed. -/
def listed : Draw (List Nat) :=
  fun bound positive draws => (⟨draws.headD 0 % bound, Nat.mod_lt _ positive⟩, draws.tail)

/-- A step is tried again, as an identity is no predicate to branch by, and the next step takes what
was drawn before for both operands. -/
theorem sample_enumerated_listed :
    ∃ agent : Agent Id,
      (sample listed Algebra.base [.id .number] [0, 2, 0, 0, 0, 0, 0, 0, 0, 0, 1, 1, 0, 1] 2).run =
        pure (.ok agent) ∧
      agent.name = "par(seq(id, id), seq(id, id))" ∧
      ∃ found : Array (Agent Id), enumerate Algebra.base [.id .number] 2 100 = pure found ∧
        found.size < 100 ∧ agent.name ∈ found.toList.map Agent.name := by
  obtain ⟨agent, drawn, -, further⟩ :=
    sample_enumerated (Algebra.buildsBy_baseWith (.standard : RetryPolicy Id))
      (List.cons_ne_nil (.id .number) []) listed [0, 2, 0, 0, 0, 0, 0, 0, 0, 0, 1, 1, 0, 1] 2
  obtain ⟨found, ran, all⟩ := further .standard rfl (by decide) (by decide) 100
  have found_eq : found = Id.run (enumerate Algebra.base [.id .number] 2 100) := ran.symm
  have room : found.size < 100 := by
    rw [found_eq]
    decide +kernel
  refine ⟨agent, drawn, ?_, found, ran, room, all room⟩
  have named := congrArg (fun result : Id _ => result.run.toOption.map Agent.name) drawn
  refine Option.some.inj (named.symm.trans ?_)
  decide +kernel

end AgentAlgebra
