import AgentAlgebra.Proofs.Exploration
import Mathlib.Logic.Function.Iterate
/-!
# The enumeration without its shortcuts

In a plain round every operation is applied to every tuple of agents known before it. The rounds of the
enumeration leave out what cannot give a new name: the tuples that were tried before, and all rounds
after one that found nothing or reached the cap. They come to the same agents in the same order. What
carries this is `Settled`: each agent that is made of a tuple left out has a name that is borne already.
-/

namespace AgentAlgebra

variable {m : Type → Type}

namespace Enumeration

/-- An agent is appended to those known unless one of them has its name. -/
def appendNew (known : List (Agent m)) (agent : Agent m) : List (Agent m) :=
  if agent.name ∈ known.map Agent.name then known else known ++ [agent]

/-- The agents of a list are appended one after the other, each unless its name is borne by then. -/
def appendAll (known agents : List (Agent m)) : List (Agent m) := agents.foldl appendNew known

/-- What the operations make of agents: each in its turn of all tuples, in lexicographic order. -/
def yields (attempt : Operation m → List (Agent m) → Option (Agent m))
    (operations : List (Operation m)) (known : List (Agent m)) : List (Agent m) :=
  operations.flatMap fun operation => (tuples known operation.arity).filterMap (attempt operation)

/-- A round that tries everything. -/
def wholeRound (attempt : Operation m → List (Agent m) → Option (Agent m))
    (operations : List (Operation m)) (known : List (Agent m)) : List (Agent m) :=
  appendAll known (yields attempt operations known)

/-- A round that tries everything and stops where the cap is reached. -/
def plainRound (attempt : Operation m → List (Agent m) → Option (Agent m))
    (operations : List (Operation m)) (cap : Nat) (known : List (Agent m)) : List (Agent m) :=
  (wholeRound attempt operations known).take cap

/-- The agents after a number of such rounds, the first of which knows the agents given. -/
def plain (attempt : Operation m → List (Agent m) → Option (Agent m))
    (operations : List (Operation m)) (primitives : List (Agent m)) (depth cap : Nat) :
    List (Agent m) :=
  (plainRound attempt operations cap)^[depth] ((appendAll [] primitives).take cap)

variable {known agents : List (Agent m)} {agent : Agent m} {name : String}

theorem prefix_appendNew : known <+: appendNew known agent := by
  unfold appendNew
  split
  · exact List.prefix_rfl
  · exact List.prefix_append known [agent]

theorem mem_names_appendNew :
    name ∈ (appendNew known agent).map Agent.name ↔ name ∈ known.map Agent.name ∨ name = agent.name := by
  unfold appendNew
  split
  · rename_i borne
    refine ⟨.inl, ?_⟩
    rintro (among | rfl)
    · exact among
    · exact borne
  · simp

theorem nodup_appendNew (distinct : (known.map Agent.name).Nodup) :
    ((appendNew known agent).map Agent.name).Nodup := by
  unfold appendNew
  split
  · exact distinct
  · rename_i unborne
    rw [List.map_append]
    exact distinct.append (List.nodup_singleton _) (List.disjoint_singleton.mpr unborne)

theorem prefix_appendAll : known <+: appendAll known agents := by
  induction agents generalizing known with
  | nil => exact List.prefix_rfl
  | cons agent rest ih => exact prefix_appendNew.trans ih

theorem mem_names_appendAll :
    name ∈ (appendAll known agents).map Agent.name ↔
      name ∈ known.map Agent.name ∨ name ∈ agents.map Agent.name := by
  induction agents generalizing known with
  | nil => simp [appendAll]
  | cons agent rest ih =>
    rw [appendAll, List.foldl_cons, ← appendAll, ih, mem_names_appendNew, List.map_cons,
      List.mem_cons, or_assoc]

theorem nodup_appendAll (distinct : (known.map Agent.name).Nodup) :
    ((appendAll known agents).map Agent.name).Nodup := by
  induction agents generalizing known with
  | nil => exact distinct
  | cons agent rest ih => exact ih (nodup_appendNew distinct)

/-- Agents whose names are borne already may be left out. -/
theorem appendAll_filter {borne : List String} (among : ∀ name ∈ borne, name ∈ known.map Agent.name)
    (agents : List (Agent m)) :
    appendAll known (agents.filter (·.name ∉ borne)) = appendAll known agents := by
  induction agents generalizing known with
  | nil => rfl
  | cons agent rest ih =>
    have later : ∀ name ∈ borne, name ∈ (appendNew known agent).map Agent.name :=
      fun name held => mem_names_appendNew.mpr (.inl (among name held))
    by_cases held : agent.name ∈ borne
    · have kept : appendNew known agent = known := if_pos (among _ held)
      rw [List.filter_cons_of_neg (by simpa using held), ih among, appendAll, appendAll,
        List.foldl_cons, kept]
    · rw [List.filter_cons_of_pos (by simpa using held)]
      exact ih later

variable {cap fresh depth : Nat} {first : Bool} {pool found : Array (Agent m)}
  {attempt : Operation m → List (Agent m) → Option (Agent m)} {operations : List (Operation m)}

/-- Where the cap is reached, nothing more is kept. -/
theorem take_appendAll_of_full (full : known.length = cap) (agents : List (Agent m)) :
    (appendAll known agents).take cap = known := by
  have front : known <+: appendAll known agents := prefix_appendAll
  rw [← full]
  exact (List.prefix_iff_eq_take.mp front).symm

/-- Agents are added to a pool as they are appended to a list, as far as there is room. -/
theorem toList_distinctUpTo (room : pool.size ≤ cap) (agents : List (Agent m)) :
    (distinctUpTo cap pool agents).toList = (appendAll pool.toList agents).take cap := by
  induction agents generalizing pool with
  | nil => exact (List.take_of_length_le room).symm
  | cons agent rest ih =>
    rw [distinctUpTo]
    split
    · rename_i full
      exact (take_appendAll_of_full (Nat.le_antisymm room full) _).symm
    · rename_i more
      rw [appendAll, List.foldl_cons, ← appendAll, appendNew]
      split
      · rename_i borne
        rw [if_pos (named_eq_true.mp borne), ih room]
      · rename_i unborne
        rw [if_neg (mt named_eq_true.mpr unborne), ih (by simp; omega), Array.toList_push]

theorem toList_start (primitives : List (Agent m)) :
    (distinctUpTo cap #[] primitives).toList = (appendAll [] primitives).take cap :=
  toList_distinctUpTo (Nat.zero_le cap) primitives

theorem size_start_le (primitives : List (Agent m)) :
    (distinctUpTo cap #[] primitives).size ≤ cap := by
  rw [← Array.length_toList, toList_start]
  exact List.length_take_le cap _

/-- Each agent that the operations make of a tuple that a round leaves out has a name of the pool. -/
def Settled (attempt : Operation m → List (Agent m) → Option (Agent m))
    (operations : List (Operation m)) (pool : Array (Agent m)) (fresh : Nat) (first : Bool) : Prop :=
  ∀ operation ∈ operations, ∀ places ∈ tuples (List.finRange pool.size) operation.arity,
    (places.any (fresh ≤ ·.val) || (places.isEmpty && first)) = false →
      ∀ agent ∈ attempt operation (places.map pool.toList.get),
        agent.name ∈ pool.toList.map Agent.name

namespace Settled

/-- The first round leaves nothing out. -/
theorem start : Settled attempt operations pool 0 true := by
  intro operation _ places _ leftOut
  cases places with
  | nil => exact nomatch leftOut
  | cons place rest => simp at leftOut

/-- What a round offers of a tuple and what the operation makes of it differ in borne names only. -/
theorem filter_offered (settled : Settled attempt operations pool fresh first)
    {operation : Operation m} (among : operation ∈ operations) {places : List (Fin pool.size)}
    (tuple : places ∈ tuples (List.finRange pool.size) operation.arity) :
    (offered attempt pool fresh first operation places).filter
        (·.name ∉ pool.toList.map Agent.name) =
      (attempt operation (places.map pool.toList.get)).toList.filter
        (·.name ∉ pool.toList.map Agent.name) := by
  unfold offered
  split
  · rfl
  · rename_i leftOut
    have borne := settled operation among places tuple (Bool.eq_false_iff.mpr leftOut)
    refine Eq.symm (List.filter_eq_nil_iff.mpr fun agent made => ?_)
    simpa using borne agent (Option.mem_toList.mp made)

/-- What a round leaves out makes no difference to what is appended. -/
theorem appendAll_candidates (settled : Settled attempt operations pool fresh first) :
    appendAll pool.toList (candidates attempt pool fresh first operations) =
      wholeRound attempt operations pool.toList := by
  rw [wholeRound, ← appendAll_filter (fun _ => id) (candidates attempt pool fresh first operations),
    ← appendAll_filter (fun _ => id) (yields attempt operations pool.toList)]
  unfold candidates yields
  rw [List.filter_flatMap, List.filter_flatMap]
  congr 1
  refine List.flatMap_congr fun operation among => ?_
  have places : tuples pool.toList operation.arity =
      (tuples (List.finRange pool.size) operation.arity).map (List.map pool.toList.get) := by
    rw [← tuples_map]
    exact congrArg (tuples · operation.arity) (List.map_get_finRange pool.toList).symm
  rw [places, List.filterMap_map, List.filterMap_eq_flatMap_toList, List.filter_flatMap,
    List.filter_flatMap]
  exact List.flatMap_congr fun places tuple => settled.filter_offered among tuple

/-- After a round that tried everything new, all tuples of the agents known before it are settled. -/
theorem next (grown : (pool ++ found).toList = wholeRound attempt operations pool.toList) :
    Settled attempt operations (pool ++ found) pool.size false := by
  intro operation among places tuple leftOut agent made
  obtain ⟨length, -⟩ := mem_tuples.mp tuple
  have old : places.map (pool ++ found).toList.get ∈ tuples pool.toList operation.arity := by
    refine mem_tuples.mpr ⟨by rw [List.length_map, length], fun known taken => ?_⟩
    obtain ⟨place, within, rfl⟩ := List.mem_map.mp taken
    have before : place.val < pool.toList.length := by
      rw [Bool.or_eq_false_iff, List.any_eq_false] at leftOut
      simpa using leftOut.1 place within
    have same : (pool ++ found).toList.get place = pool.toList[place.val] := by
      simp only [List.get_eq_getElem, Array.toList_append]
      exact List.getElem_append_left before
    exact same ▸ List.getElem_mem before
  rw [grown, wholeRound, mem_names_appendAll]
  refine .inr (List.mem_map_of_mem ?_)
  exact List.mem_flatMap.mpr ⟨operation, among, List.mem_filterMap.mpr ⟨_, old, made⟩⟩

end Settled

/-- A plain round adds nothing where the cap is reached. -/
theorem iterate_plainRound_of_full (full : known.length = cap) (depth : Nat) :
    (plainRound attempt operations cap)^[depth] known = known :=
  Function.iterate_fixed (take_appendAll_of_full full _) depth

variable [Monad m] [LawfulMonad m] {algebra : Algebra m}

/-- The rounds that are left of the enumeration come to what as many plain rounds come to. -/
theorem rounds_eq_iterate (builds : algebra.BuildsBy attempt) (room : pool.size ≤ cap)
    (settled : Settled attempt algebra.operations pool fresh first) (depth : Nat) :
    rounds algebra cap depth pool fresh first =
      pure ((plainRound attempt algebra.operations cap)^[depth] pool.toList).toArray := by
  induction depth generalizing pool fresh first with
  | zero => rfl
  | succ depth ih =>
    by_cases full : cap ≤ pool.size
    · rw [rounds_of_full full, iterate_plainRound_of_full (Nat.le_antisymm room full)]
    obtain ⟨found, ran, added⟩ := round_eq builds fresh first (Nat.not_le.mp full)
    have stepped : (pool ++ found).toList = plainRound attempt algebra.operations cap pool.toList := by
      rw [added, toList_distinctUpTo room, settled.appendAll_candidates, plainRound]
    simp only [rounds, if_neg full, ran, pure_bind]
    by_cases none : found.isEmpty = true
    · obtain rfl := Array.isEmpty_iff.mp none
      rw [Array.append_empty] at stepped
      rw [if_pos none, Function.iterate_fixed stepped.symm]
    rw [if_neg none, Function.iterate_succ_apply, ← stepped]
    have within : (pool ++ found).size ≤ cap := by
      rw [← Array.length_toList, stepped]
      exact List.length_take_le cap _
    by_cases full' : cap ≤ (pool ++ found).size
    · rw [rounds_of_full full', iterate_plainRound_of_full (Nat.le_antisymm within full')]
    · have whole : (wholeRound attempt algebra.operations pool.toList).length ≤ cap := by
        have size := congrArg List.length stepped
        rw [plainRound, List.length_take, Array.length_toList] at size
        omega
      exact ih within (.next (stepped.trans (List.take_of_length_le whole)))

/-- Where the operations of an algebra build without effects, the enumeration gives the same agents in
the same order as the plain procedure: from the first agents with different names, in each round every
operation is applied in its turn to all tuples of agents known at its start, and each result with a
new name is appended, up to the cap. -/
theorem enumerate_eq_plain (builds : algebra.BuildsBy attempt) (primitives : List (Agent m))
    (depth cap : Nat) :
    enumerate algebra primitives depth cap =
      pure (plain attempt algebra.operations primitives depth cap).toArray := by
  rw [enumerate, rounds_eq_iterate builds (size_start_le primitives) .start, toList_start, plain]

end Enumeration

/-- What an operation makes of agents, where all functions are pure. -/
def Operation.built? (operation : Operation Id) (agents : List (Agent Id)) : Option (Agent Id) :=
  (operation.apply agents).run.run.toOption

theorem Algebra.buildsBy_built? (algebra : Algebra Id) : algebra.BuildsBy Operation.built? :=
  fun _ _ _ => ⟨_, rfl, rfl⟩

namespace Enumeration

/-- An algebra with an operation of no agents, which always makes the same. -/
def withNothing : Algebra Id :=
  ⟨"with nothing", none,
    [⟨"nothing", 0, "() -> (X -> null)", .extension fun _ => pure (.constant .null)⟩,
      .ofBuiltin .sequence, .ofBuiltin .observe], []⟩

/-- Of two agents with one name the first is kept, and the cap is reached within the second round. -/
theorem enumerate_eq_plain_capped :
    enumerate withNothing [.id .number, .id .text] 3 6 =
        pure (plain Operation.built? withNothing.operations [.id .number, .id .text] 3 6).toArray ∧
      (plain Operation.built? withNothing.operations [.id .number, .id .text] 3 6).map Agent.name =
        ["id", "const(null)", "seq(id, id)", "observe(id)", "seq(id, const(null))",
          "seq(id, seq(id, id))"] :=
  ⟨enumerate_eq_plain withNothing.buildsBy_built? _ 3 6, by decide +kernel⟩

end Enumeration

end AgentAlgebra
