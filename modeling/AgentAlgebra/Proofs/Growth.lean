import AgentAlgebra.Proofs.Exploration
import AgentAlgebra.Proofs.Trees
/-!
# How trees grow in a round

The agents of a pool are the values of trees of operations over the agents that the enumeration started
from. Where those reached last are the trees of some height, a round tries just the tuples of operands
whose tree is above this height, so its candidates are the values of `grown`.
-/

namespace AgentAlgebra

variable {m : Type → Type}

namespace Enumeration

/-- The trees that an operation makes of those built so far and that are above a height. -/
def grownBy (attempt : Operation m → List (Agent m) → Option (Agent m)) (height : Nat)
    (built : List (Expr m × Agent m)) (operation : Operation m) : List (Expr m × Agent m) :=
  (tuples built operation.arity).filterMap fun parts =>
    let tree := Expr.applyTo operation.name (parts.map Prod.fst)
    if height < tree.height then (attempt operation (parts.map Prod.snd)).map (tree, ·) else none

/-- The trees that the operations make of those built so far and that are above a height. -/
def grown (attempt : Operation m → List (Agent m) → Option (Agent m)) (height : Nat)
    (built : List (Expr m × Agent m)) (operations : List (Operation m)) : List (Expr m × Agent m) :=
  operations.flatMap (grownBy attempt height built)

/-- The trees built so far stand for the agents of a pool, and those that reach the height are the ones
from the place `fresh` on. -/
structure Stands (pool : Array (Agent m)) (fresh : Nat) (first : Bool) (height : Nat)
    (built : List (Expr m × Agent m)) : Prop where
  agents : pool.toList = built.map Prod.snd
  fresh : ∀ (i : Nat) (within : i < built.length), fresh ≤ i ↔ height ≤ built[i].1.height
  first : first = true ↔ height = 0

/-- The trees that are leaves. -/
def leavesOf (primitives : List (Agent m)) : List (Expr m × Agent m) :=
  primitives.zipIdx.map fun place => (.var place.2, place.1)

variable {height fresh : Nat} {first : Bool} {built : List (Expr m × Agent m)}
  {pool : Array (Agent m)} {operation : Operation m} {tree : Expr m} {agent : Agent m}
  {attempt : Operation m → List (Agent m) → Option (Agent m)}

theorem mem_grownBy :
    (tree, agent) ∈ grownBy attempt height built operation ↔
      ∃ parts : List (Expr m × Agent m),
        (parts.length = operation.arity ∧ ∀ part ∈ parts, part ∈ built) ∧
          tree = .applyTo operation.name (parts.map Prod.fst) ∧ height < tree.height ∧
          attempt operation (parts.map Prod.snd) = some agent := by
  rw [grownBy, List.mem_filterMap]
  constructor
  · rintro ⟨parts, among, made⟩
    dsimp only at made
    split at made
    · rename_i above
      obtain ⟨made', attempted, same⟩ := Option.map_eq_some_iff.mp made
      obtain ⟨rfl, rfl⟩ := Prod.mk.inj same
      exact ⟨parts, mem_tuples.mp among, rfl, above, attempted⟩
    · exact nomatch made
  · rintro ⟨parts, among, rfl, above, attempted⟩
    refine ⟨parts, mem_tuples.mpr among, ?_⟩
    dsimp only
    rw [if_pos above, attempted, Option.map_some]

/-- Where the trees built so far differ, so do those that grow from them. -/
theorem nodup_grown {operations : List (Operation m)}
    (names : (operations.map Operation.name).Nodup) (distinct : (built.map Prod.fst).Nodup) :
    ((grown attempt height built operations).map Prod.fst).Nodup := by
  rw [List.Nodup, List.pairwise_map, grown, List.pairwise_flatMap]
  constructor
  · intro operation _
    have tuples_distinct : ((tuples built operation.arity).map (List.map Prod.fst)).Nodup := by
      rw [← tuples_map]
      exact nodup_tuples distinct operation.arity
    rw [List.Nodup, List.pairwise_map] at tuples_distinct
    rw [grownBy, List.pairwise_filterMap]
    refine tuples_distinct.imp fun {parts parts'} differ => ?_
    intro one made other made' same
    dsimp only at made made'
    split at made
    · split at made'
      · obtain ⟨_, -, rfl⟩ := Option.map_eq_some_iff.mp made
        obtain ⟨_, -, rfl⟩ := Option.map_eq_some_iff.mp made'
        exact differ (Expr.applyTo_inj.mp same).2
      · exact nomatch made'
    · exact nomatch made
  · rw [List.Nodup, List.pairwise_map] at names
    refine names.imp fun {operation operation'} differ => ?_
    rintro ⟨tree, agent⟩ made ⟨tree', agent'⟩ made' same
    obtain ⟨_, _, rfl, -⟩ := mem_grownBy.mp made
    obtain ⟨_, _, rfl, -⟩ := mem_grownBy.mp made'
    exact differ (Expr.applyTo_inj.mp same).1

namespace Stands

/-- The leaves stand for the agents that the enumeration starts from. -/
theorem leaves (primitives : List (Agent m)) :
    Stands (#[] ++ primitives.toArray) 0 true 0 (leavesOf primitives) where
  agents := by
    rw [leavesOf, List.map_map, Array.toList_append]
    exact (List.zipIdx_map_fst 0 primitives).symm
  fresh := fun i within => iff_of_true (Nat.zero_le i) (Nat.zero_le _)
  first := iff_of_true rfl rfl

theorem size_eq (stands : Stands pool fresh first height built) : built.length = pool.size := by
  rw [← Array.length_toList, stands.agents, List.length_map]

/-- The tree that stands for the agent at a place, with this agent. -/
def part (stands : Stands pool fresh first height built) (i : Fin pool.size) : Expr m × Agent m :=
  built.get (i.cast stands.size_eq.symm)

variable (stands : Stands pool fresh first height built)
include stands

theorem map_part : (List.finRange pool.size).map stands.part = built := by
  refine List.ext_getElem (by simp [stands.size_eq]) fun i within within' => ?_
  simp [part]

theorem part_snd (i : Fin pool.size) : (stands.part i).2 = pool.toList.get i := by
  have within : i.val < built.length := lt_of_lt_of_eq i.isLt stands.size_eq.symm
  have same : pool.toList[i.val]? = (built.map Prod.snd)[i.val]? := by rw [stands.agents]
  rw [List.getElem?_map, List.getElem?_eq_getElem within, Array.getElem?_toList,
    Array.getElem?_eq_getElem i.isLt] at same
  exact (Option.some.inj same).symm

/-- A round tries just the tuples that make a tree above the height. -/
theorem tried_iff (name : String) (places : List (Fin pool.size)) :
    (places.any (fresh ≤ ·.val) || (places.isEmpty && first)) = true ↔
      height < (Expr.applyTo name ((places.map stands.part).map Prod.fst)).height := by
  have place (i : Fin pool.size) : fresh ≤ i.val ↔ height ≤ (stands.part i).1.height :=
    stands.fresh i (lt_of_lt_of_eq i.isLt stands.size_eq.symm)
  simp only [Expr.lt_height_applyTo, Bool.or_eq_true, List.any_eq_true, decide_eq_true_eq, place,
    Bool.and_eq_true, List.isEmpty_iff, stands.first, List.mem_map, exists_exists_and_eq_and]
  constructor
  · rintro (reached | ⟨-, low⟩)
    · exact .inr reached
    · exact .inl low
  · rintro (rfl | reached)
    · cases places with
      | nil => exact .inr ⟨rfl, rfl⟩
      | cons i rest => exact .inl ⟨i, List.mem_cons_self, Nat.zero_le _⟩
    · exact .inl reached

/-- The candidates of a round are the values of the trees above the height. -/
theorem candidates_eq (operations : List (Operation m)) :
    candidates attempt pool fresh first operations =
      (grown attempt height built operations).map Prod.snd := by
  have agents (places : List (Fin pool.size)) :
      places.map pool.toList.get = (places.map stands.part).map Prod.snd := by
    rw [List.map_map]
    exact List.map_congr_left fun i _ => (stands.part_snd i).symm
  unfold candidates grown
  rw [List.map_flatMap]
  congr 1
  funext operation
  unfold grownBy
  conv_rhs => rw [← stands.map_part]
  rw [tuples_map, List.filterMap_map, List.map_filterMap, List.filterMap_eq_flatMap_toList]
  congr 1
  funext places
  simp only [offered, agents, stands.tried_iff operation.name, Function.comp_apply]
  split
  · rw [Option.map_map]
    congr 1
    exact (Option.map_id' ..).symm
  · rfl

end Stands

end Enumeration

end AgentAlgebra
