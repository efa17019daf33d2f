import AgentAlgebra.Explore.Enumerate
import Mathlib.Data.List.Nodup
/-!
# What a round of the enumeration adds

Where the operations of an algebra build without effects, a round adds to the pool, in order and up to
the cap, those agents with new names that its operations build from the tuples it tries. So a round is
one run of `distinctUpTo` over the list of these agents, `candidates`.
-/

namespace AgentAlgebra

section

variable {α β : Type} {choices : List α} {arity : Nat} {tuple : List α}

theorem mem_tuples :
    tuple ∈ tuples choices arity ↔ tuple.length = arity ∧ ∀ choice ∈ tuple, choice ∈ choices := by
  induction arity generalizing tuple with
  | zero =>
    rw [tuples, List.mem_singleton]
    constructor
    · rintro rfl
      exact ⟨rfl, fun _ among => absurd among List.not_mem_nil⟩
    · rintro ⟨none, -⟩
      exact List.eq_nil_of_length_eq_zero none
  | succ arity ih =>
    simp only [tuples, List.mem_flatMap, List.mem_map]
    constructor
    · rintro ⟨first, among, rest, later, rfl⟩
      obtain ⟨length, all⟩ := ih.mp later
      exact ⟨by rw [List.length_cons, length], List.forall_mem_cons.mpr ⟨among, all⟩⟩
    · rintro ⟨length, all⟩
      obtain ⟨first, rest, rfl⟩ := List.exists_cons_of_length_eq_add_one length
      obtain ⟨among, later⟩ := List.forall_mem_cons.mp all
      exact ⟨first, among, rest, ih.mpr ⟨Nat.succ.inj length, later⟩, rfl⟩

theorem tuples_map (f : α → β) (choices : List α) (arity : Nat) :
    tuples (choices.map f) arity = (tuples choices arity).map (List.map f) := by
  induction arity with
  | zero => rfl
  | succ arity ih =>
    simp only [tuples, ih, List.flatMap_map, List.map_flatMap, List.map_map]
    rfl

theorem nodup_tuples (distinct : choices.Nodup) (arity : Nat) : (tuples choices arity).Nodup := by
  induction arity with
  | zero => exact List.nodup_singleton []
  | succ arity ih =>
    refine List.nodup_flatMap.mpr ⟨fun first _ => ih.map (List.cons_injective), ?_⟩
    refine distinct.imp fun {first other} differ => ?_
    intro tuple one two
    obtain ⟨_, -, rfl⟩ := List.mem_map.mp one
    obtain ⟨_, -, same⟩ := List.mem_map.mp two
    exact differ (List.cons.inj same).1.symm

end

variable {m : Type → Type}

namespace Enumeration

variable {cap : Nat} {pool found : Array (Agent m)}

theorem distinctUpTo_of_full (full : cap ≤ pool.size) (agents : List (Agent m)) :
    distinctUpTo cap pool agents = pool := by
  cases agents with
  | nil => rfl
  | cons agent rest => exact if_pos full

theorem distinctUpTo_append (front back : List (Agent m)) :
    distinctUpTo cap pool (front ++ back) =
      distinctUpTo cap (distinctUpTo cap pool front) back := by
  induction front generalizing pool with
  | nil => rfl
  | cons agent rest ih =>
    simp only [List.cons_append, distinctUpTo]
    split
    · rename_i full
      rw [distinctUpTo_of_full full]
    · split
      · exact ih
      · exact ih

theorem named_append {name : String} :
    named (pool ++ found) name = (named pool name || named found name) := by
  simp only [named, Array.any_append]

theorem named_eq_true {name : String} :
    named pool name = true ↔ name ∈ pool.toList.map Agent.name := by
  simp only [named, Array.any_eq_true', beq_iff_eq, List.mem_map, Array.mem_toList_iff]

/-- Where all names differ and the cap is not reached, nothing is left out. -/
theorem distinctUpTo_of_distinct {agents : List (Agent m)}
    (distinct : ((pool.toList ++ agents).map Agent.name).Nodup)
    (room : (distinctUpTo cap pool agents).size < cap) :
    distinctUpTo cap pool agents = pool ++ agents.toArray := by
  induction agents generalizing pool with
  | nil => simp [distinctUpTo]
  | cons agent rest ih =>
    have unused : ¬ named pool agent.name = true := by
      rw [named_eq_true]
      intro used
      rw [List.map_append, List.nodup_append] at distinct
      exact distinct.2.2 _ used _ (List.mem_map_of_mem List.mem_cons_self) rfl
    have below : ¬ cap ≤ pool.size := by
      intro full
      rw [distinctUpTo_of_full full] at room
      exact Nat.not_lt.mpr full room
    rw [distinctUpTo, if_neg below, if_neg unused] at room ⊢
    have pushed : ((pool.push agent).toList ++ rest).map Agent.name =
        (pool.toList ++ agent :: rest).map Agent.name := by
      simp
    rw [ih (pushed ▸ distinct) room]
    simp

end Enumeration

variable [Monad m]

/-- The operations of an algebra build without effects, and this function tells what each makes of
agents, if anything. -/
def Algebra.BuildsBy (algebra : Algebra m)
    (attempt : Operation m → List (Agent m) → Option (Agent m)) : Prop :=
  ∀ operation ∈ algebra.operations, ∀ agents,
    ∃ result, (operation.apply agents).run = pure result ∧
      result.toOption = attempt operation agents

namespace Enumeration

section

variable (attempt : Operation m → List (Agent m) → Option (Agent m)) (pool : Array (Agent m))
  (fresh : Nat) (first : Bool)

/-- What an operation makes of the agents at these places, if they are tried. -/
def offered (operation : Operation m) (places : List (Fin pool.size)) : List (Agent m) :=
  if places.any (fresh ≤ ·.val) || (places.isEmpty && first) then
    (attempt operation (places.map pool.toList.get)).toList
  else []

/-- What the operations make of all tuples that a round tries, in the order of the round. -/
def candidates (operations : List (Operation m)) : List (Agent m) :=
  operations.flatMap fun operation =>
    (tuples (List.finRange pool.size) operation.arity).flatMap
      (offered attempt pool fresh first operation)

end

/-- A visit that has no effects adds these agents to those found, and it asks to stop as soon as the
pool with them reaches the cap. -/
def Adds (cap : Nat) (pool found : Array (Agent m)) (agents : List (Agent m))
    (visited : m (ForInStep (Array (Agent m)))) : Prop :=
  ∃ progress, visited = pure progress ∧
    match progress with
    | .yield later =>
      pool ++ later = distinctUpTo cap (pool ++ found) agents ∧ (pool ++ later).size < cap
    | .done later =>
      pool ++ later = distinctUpTo cap (pool ++ found) agents ∧ cap ≤ (pool ++ later).size

variable {cap fresh : Nat} {first : Bool} {pool found : Array (Agent m)}
  {attempt : Operation m → List (Agent m) → Option (Agent m)} {operation : Operation m}
  {algebra : Algebra m}

theorem Adds.nothing (room : (pool ++ found).size < cap) :
    Adds cap pool found [] (pure (.yield found)) :=
  ⟨_, rfl, rfl, room⟩

variable [LawfulMonad m]

/-- Visits one after the other add what each of them adds. -/
theorem Adds.walk {α : Type} {visit : Array (Agent m) → α → m (ForInStep (Array (Agent m)))}
    {agents : α → List (Agent m)} {members : List α}
    (each : ∀ a ∈ members, ∀ found, (pool ++ found).size < cap →
      Adds cap pool found (agents a) (visit found a))
    (room : (pool ++ found).size < cap) :
    Adds cap pool found (members.flatMap agents) (walk visit found members) := by
  induction members generalizing found with
  | nil => exact .nothing room
  | cons a rest ih =>
    obtain ⟨progress, visited, added⟩ := each a List.mem_cons_self found room
    have each' := fun b later => each b (List.mem_cons_of_mem a later)
    rw [List.flatMap_cons, AgentAlgebra.walk, visited, pure_bind]
    cases progress with
    | yield later =>
      obtain ⟨added, room⟩ := added
      obtain ⟨progress, walked, more⟩ := ih each' room
      rw [added, ← distinctUpTo_append] at more
      exact ⟨progress, walked, more⟩
    | done later =>
      obtain ⟨added, full⟩ := added
      refine ⟨_, rfl, ?_, full⟩
      rw [distinctUpTo_append, ← added, distinctUpTo_of_full full]

/-- One tuple adds what is offered for it. -/
theorem adds_tryTuple (builds : algebra.BuildsBy attempt) (among : operation ∈ algebra.operations)
    (places : List (Fin pool.size)) (room : (pool ++ found).size < cap) :
    Adds cap pool found (offered attempt pool fresh first operation places)
      (tryTuple cap pool fresh first operation found places) := by
  unfold offered tryTuple
  split
  · obtain ⟨result, ran, told⟩ := builds operation among (places.map pool.toList.get)
    have agents : (places.map fun i => pool[i]) = places.map pool.toList.get := rfl
    rw [agents, ran, pure_bind, ← told]
    cases result with
    | error _ => exact .nothing room
    | ok agent =>
      simp only [Except.toOption, Option.toList, ← named_append]
      have below : ¬ cap ≤ (pool ++ found).size := Nat.not_le.mpr room
      split
      · rename_i used
        refine ⟨_, rfl, ?_, room⟩
        rw [distinctUpTo, if_neg below, if_pos used, distinctUpTo]
      · rename_i unused
        have added : pool ++ found.push agent = distinctUpTo cap (pool ++ found) [agent] := by
          rw [distinctUpTo, if_neg below, if_neg unused, distinctUpTo, Array.append_push]
        have size : (pool ++ found.push agent).size = pool.size + found.size + 1 := by
          simp [Nat.add_assoc]
        split
        · rename_i full
          exact ⟨_, rfl, added, size ▸ full⟩
        · rename_i more
          exact ⟨_, rfl, added, by omega⟩
  · exact .nothing room

/-- A round has no effects, and it adds to the pool all its candidates with new names, up to the cap. -/
theorem round_eq (builds : algebra.BuildsBy attempt) (fresh : Nat) (first : Bool)
    (room : pool.size < cap) :
    ∃ found, round algebra cap pool fresh first = pure found ∧
      pool ++ found =
        distinctUpTo cap pool (candidates attempt pool fresh first algebra.operations) := by
  have start : (pool ++ (#[] : Array (Agent m))).size < cap := by simpa using room
  have walked : Adds cap pool #[] (candidates attempt pool fresh first algebra.operations)
      (walk (fun found (operation : Operation m) =>
        walkTuples (List.finRange pool.size) (tryTuple cap pool fresh first operation)
          operation.arity [] found) #[] algebra.operations) := by
    refine .walk (fun operation among found room => ?_) start
    rw [walkTuples_eq_walk]
    exact .walk (fun places _ found room => adds_tryTuple builds among places room) room
  obtain ⟨progress, ended, added⟩ := walked
  rw [Array.append_empty] at added
  simp only [round, ended, pure_bind]
  cases progress with
  | yield later => exact ⟨later, rfl, added.1⟩
  | done later => exact ⟨later, rfl, added.1⟩

omit [LawfulMonad m] in
/-- No round is added to a full pool. -/
theorem rounds_of_full (full : cap ≤ pool.size) (depth : Nat) :
    rounds algebra cap depth pool fresh first = pure pool := by
  cases depth with
  | zero => rfl
  | succ depth => exact if_pos full

end Enumeration

end AgentAlgebra
