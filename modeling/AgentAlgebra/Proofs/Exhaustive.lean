import AgentAlgebra.Proofs.Growth
import AgentAlgebra.Proofs.Reading
/-!
# The enumeration is exhaustive

Unless the cap cuts it short, the enumeration over the base algebra finds the values of all trees of
operations up to its depth, each tree once and the lower ones first. After each round the pool holds all
trees up to a height, `Exhausts`, and the next round adds those that are higher by one. No tree is lost
for its name, as different trees have different names. A round that finds nothing ends the search for
good, since any higher tree would have a part of the height that is missing.
-/

namespace AgentAlgebra

variable {m : Type → Type}

variable [Monad m]

/-- The list holds all trees up to a height with their values, each once, the lower before the higher. -/
structure Exhausts (algebra : Algebra m) (primitives : List (Agent m)) (height : Nat)
    (built : List (Expr m × Agent m)) : Prop where
  distinct : (built.map Prod.fst).Nodup
  all : ∀ tree agent, (tree, agent) ∈ built ↔
    Composes algebra primitives tree agent ∧ tree.height ≤ height
  ordered : built.Pairwise fun earlier later => earlier.1.height ≤ later.1.height

/-- The function tells which agent an operation makes. -/
def Algebra.MakesBy (algebra : Algebra m)
    (attempt : Operation m → List (Agent m) → Option (Agent m)) : Prop :=
  ∀ operation ∈ algebra.operations, ∀ agents agent,
    attempt operation agents = some agent ↔ operation.Makes agents agent

variable {algebra : Algebra m} {primitives : List (Agent m)} {height : Nat}
  {built : List (Expr m × Agent m)} {tree : Expr m} {agent : Agent m}
  {attempt : Operation m → List (Agent m) → Option (Agent m)}

/-- Where no tree has just this height, none is higher: it would have a part of this height. -/
theorem Composes.height_le_of_gap (gap : ∀ tree agent, Composes algebra primitives tree agent →
      tree.height ≠ height + 1) (composed : Composes algebra primitives tree agent) :
    tree.height ≤ height := by
  induction composed with
  | leaf bound => exact Nat.zero_le height
  | @node operation count operand agents agent among operands made ih =>
    have low : (Expr.apply operation.name count operand).height ≤ height + 1 := by
      rw [Expr.apply_eq_applyTo, Expr.height_applyTo_le]
      intro part found
      obtain ⟨i, rfl⟩ := (List.mem_ofFn' _ _).mp found
      exact ih i
    have other := gap _ _ (.node among operands made)
    omega

open Enumeration

namespace Exhausts

/-- The leaves are the trees of height 0. -/
theorem leaves (algebra : Algebra m) (primitives : List (Agent m)) :
    Exhausts algebra primitives 0 (leavesOf primitives) where
  distinct := by
    rw [leavesOf, List.map_map]
    have indices : Prod.fst ∘ (fun place : Agent m × Nat => ((.var place.2 : Expr m), place.1)) =
        Expr.var ∘ Prod.snd := rfl
    rw [indices, ← List.map_map, List.zipIdx_map_snd]
    exact List.Nodup.map (fun _ _ same => Expr.var.inj same) List.nodup_range'
  all := by
    intro tree agent
    rw [leavesOf, List.mem_map]
    constructor
    · rintro ⟨⟨agent, index⟩, found, ⟨⟩⟩
      exact ⟨.leaf (List.mem_zipIdx_iff_getElem?.mp found), le_rfl⟩
    · rintro ⟨bound | _, low⟩
      · exact ⟨(agent, _), List.mem_zipIdx_iff_getElem?.mpr bound, rfl⟩
      · exact absurd low (Nat.not_succ_le_zero _)
  ordered := by
    rw [leavesOf, List.pairwise_map]
    exact List.pairwise_of_forall fun _ _ => le_rfl

/-- What grows from all trees up to a height are the trees that are higher by one. -/
theorem mem_grown (exhausts : Exhausts algebra primitives height built)
    (makes : algebra.MakesBy attempt) :
    (tree, agent) ∈ grown attempt height built algebra.operations ↔
      Composes algebra primitives tree agent ∧ tree.height = height + 1 := by
  rw [grown, List.mem_flatMap]
  constructor
  · rintro ⟨operation, among, made⟩
    obtain ⟨parts, ⟨-, all⟩, rfl, above, attempted⟩ := mem_grownBy.mp made
    have composed (part) (found : part ∈ parts) := (exhausts.all part.1 part.2).mp (all part found)
    refine ⟨composes_applyTo.mpr ⟨operation, among, rfl, parts, rfl,
      fun part found => (composed part found).1, (makes _ among _ _).mp attempted⟩, ?_⟩
    refine Nat.le_antisymm (Expr.height_applyTo_le.mpr ?_) above
    intro operand operands
    obtain ⟨part, found, rfl⟩ := List.mem_map.mp operands
    exact (composed part found).2
  · rintro ⟨composed, high⟩
    cases tree with
    | var index => exact absurd high (Nat.succ_ne_zero height).symm
    | agent fixed => exact absurd high (Nat.succ_ne_zero height).symm
    | apply name count operand =>
      rw [Expr.apply_eq_applyTo] at composed high ⊢
      obtain ⟨operation, among, rfl, parts, operands, each, made⟩ := composes_applyTo.mp composed
      rw [← operands] at high ⊢
      refine ⟨operation, among, mem_grownBy.mpr ⟨parts, ⟨?_, ?_⟩, rfl, high.ge, ?_⟩⟩
      · rw [← made.1, List.length_map]
      · intro part found
        refine (exhausts.all part.1 part.2).mpr ⟨each part found, ?_⟩
        exact Expr.height_applyTo_le.mp high.le _ (List.mem_map_of_mem found)
      · exact (makes _ among _ _).mpr made

/-- All trees up to a height and those that grow from them are all trees up to the next height. -/
theorem succ (exhausts : Exhausts algebra primitives height built)
    (makes : algebra.MakesBy attempt) (names : (algebra.operations.map Operation.name).Nodup) :
    Exhausts algebra primitives (height + 1)
      (built ++ grown attempt height built algebra.operations) where
  distinct := by
    rw [List.map_append]
    refine exhausts.distinct.append (nodup_grown names exhausts.distinct) ?_
    intro tree low high
    obtain ⟨⟨tree, agent⟩, found, rfl⟩ := List.mem_map.mp low
    obtain ⟨⟨tree', agent'⟩, found', same⟩ := List.mem_map.mp high
    obtain rfl : tree' = tree := same
    have low := ((exhausts.all _ _).mp found).2
    have high := ((exhausts.mem_grown makes).mp found').2
    omega
  all := by
    intro tree agent
    rw [List.mem_append, exhausts.all, exhausts.mem_grown makes]
    constructor
    · rintro (⟨composed, low⟩ | ⟨composed, high⟩)
      · exact ⟨composed, Nat.le_succ_of_le low⟩
      · exact ⟨composed, high.le⟩
    · rintro ⟨composed, low⟩
      rcases Nat.le_succ_iff.mp low with low | high
      · exact .inl ⟨composed, low⟩
      · exact .inr ⟨composed, high⟩
  ordered := by
    rw [List.pairwise_append]
    have high (part) (found : part ∈ grown attempt height built algebra.operations) :
        part.1.height = height + 1 := ((exhausts.mem_grown makes).mp found).2
    refine ⟨exhausts.ordered, ?_, ?_⟩
    · exact List.pairwise_of_forall_mem_list fun part found other found' =>
        ((high part found).trans (high other found').symm).le
    · intro part found other found'
      have low := ((exhausts.all part.1 part.2).mp found).2
      rw [high other found']
      exact Nat.le_succ_of_le low

/-- If nothing grows from all trees up to a height, there are no others. -/
theorem of_grown_eq_nil (exhausts : Exhausts algebra primitives height built)
    (makes : algebra.MakesBy attempt)
    (none : grown attempt height built algebra.operations = []) {above : Nat}
    (higher : height ≤ above) : Exhausts algebra primitives above built where
  distinct := exhausts.distinct
  all := by
    intro tree agent
    rw [exhausts.all]
    constructor
    · rintro ⟨composed, low⟩
      exact ⟨composed, low.trans higher⟩
    · rintro ⟨composed, -⟩
      refine ⟨composed, composed.height_le_of_gap fun tree agent composed high => ?_⟩
      have found := (exhausts.mem_grown makes).mpr ⟨composed, high⟩
      rw [none] at found
      exact absurd found List.not_mem_nil
  ordered := exhausts.ordered

end Exhausts

/-- The trees of the next height are at the places behind the pool. -/
theorem Enumeration.Stands.next {fresh : Nat} {first : Bool} {pool more : Array (Agent m)}
    (stands : Stands pool fresh first height built)
    (exhausts : Exhausts algebra primitives height built) (makes : algebra.MakesBy attempt)
    (added : more.toList =
      (built ++ grown attempt height built algebra.operations).map Prod.snd) :
    Stands more pool.size false (height + 1)
      (built ++ grown attempt height built algebra.operations) where
  agents := added
  fresh := by
    intro i within
    rw [← stands.size_eq]
    by_cases before : i < built.length
    · rw [List.getElem_append_left before]
      have low : built[i].1.height ≤ height :=
        ((exhausts.all _ _).mp (List.getElem_mem before)).2
      omega
    · rw [List.getElem_append_right (Nat.not_lt.mp before)]
      rw [List.length_append] at within
      have behind : i - built.length <
          (grown attempt height built algebra.operations).length := by omega
      have high : (grown attempt height built algebra.operations)[i - built.length].1.height =
          height + 1 := ((exhausts.mem_grown makes).mp (List.getElem_mem behind)).2
      omega
  first := by simp

section

variable (legible : algebra.Legible) (names : (primitives.map Agent.name).Nodup)
  (plain : ∀ primitive ∈ primitives, Plain primitive.name)
include legible names plain

/-- Different trees have values of different names. -/
theorem nodup_names (composed : ∀ part ∈ built, Composes algebra primitives part.1 part.2)
    (distinct : (built.map Prod.fst).Nodup) : ((built.map Prod.snd).map Agent.name).Nodup := by
  rw [List.map_map, List.Nodup, List.pairwise_map]
  rw [List.Nodup, List.pairwise_map] at distinct
  refine distinct.imp_of_mem fun {part other} found found' differ same => ?_
  have one := composed part found
  have two := composed other found'
  exact differ (one.tree_eq_of_name legible names plain two same)

variable [LawfulMonad m] (builds : algebra.BuildsBy attempt) (makes : algebra.MakesBy attempt)
  {cap fresh : Nat} {first : Bool} {pool : Array (Agent m)}
include builds makes

/-- A round adds the values of all trees that are higher by one, unless the cap cuts it short. -/
theorem round_exhausts (exhausts : Exhausts algebra primitives height built)
    (stands : Stands pool fresh first height built) (room : pool.size < cap) :
    ∃ found, round algebra cap pool fresh first = pure found ∧
      ((pool ++ found).size < cap →
        (pool ++ found).toList =
          (built ++ grown attempt height built algebra.operations).map Prod.snd) := by
  obtain ⟨found, ran, added⟩ := round_eq builds fresh first room
  refine ⟨found, ran, fun short => ?_⟩
  have next := exhausts.succ makes legible.distinct
  have distinct := nodup_names legible names plain
    (fun part found => ((next.all part.1 part.2).mp found).1) next.distinct
  rw [List.map_append, ← stands.agents, ← stands.candidates_eq] at distinct
  rw [added] at short
  rw [added, distinctUpTo_of_distinct distinct short, stands.candidates_eq, List.map_append,
    ← stands.agents, Array.toList_append]

/-- Once a pool holds all trees up to a height, the rounds add those of the heights above, unless the
cap cuts them short. The induction is on the rounds that are left. -/
theorem rounds_exhausts (exhausts : Exhausts algebra primitives height built)
    (stands : Stands pool fresh first height built) (depth : Nat) :
    ∃ found, rounds algebra cap depth pool fresh first = pure found ∧
      (found.size < cap → ∃ built, Exhausts algebra primitives (height + depth) built ∧
        found.toList = built.map Prod.snd) := by
  induction depth generalizing height built pool fresh first with
  | zero => exact ⟨pool, rfl, fun _ => ⟨built, exhausts, stands.agents⟩⟩
  | succ depth ih =>
    by_cases full : cap ≤ pool.size
    · exact ⟨pool, rounds_of_full full _, fun room => absurd room (Nat.not_lt.mpr full)⟩
    obtain ⟨found, ran, added⟩ := round_exhausts legible names plain builds makes exhausts stands
      (Nat.not_le.mp full)
    simp only [rounds, if_neg full, ran, pure_bind]
    by_cases none : found.isEmpty = true
    · refine ⟨pool, if_pos none, fun room => ⟨built, ?_, stands.agents⟩⟩
      obtain rfl := Array.isEmpty_iff.mp none
      have values := added (by simpa using room)
      rw [Array.append_empty, stands.agents, List.map_append, List.self_eq_append_right,
        List.map_eq_nil_iff] at values
      exact exhausts.of_grown_eq_nil makes values (Nat.le_add_right height _)
    rw [if_neg none]
    by_cases full' : cap ≤ (pool ++ found).size
    · exact ⟨_, rounds_of_full full' _, fun room => absurd room (Nat.not_lt.mpr full')⟩
    have next := exhausts.succ makes legible.distinct
    obtain ⟨final, ended, all⟩ := ih next (stands.next exhausts makes (added (Nat.not_le.mp full')))
    rw [Nat.add_right_comm, Nat.add_assoc] at all
    exact ⟨final, ended, all⟩

/-- Over an algebra whose operations build without effects and have plain names, the enumeration finds
all trees up to its depth, unless the cap cuts it short. -/
theorem enumerate_exhausts (depth cap : Nat) :
    ∃ found, enumerate algebra primitives depth cap = pure found ∧
      (found.size < cap → ∃ built, Exhausts algebra primitives depth built ∧
        found.toList = built.map Prod.snd) := by
  unfold enumerate
  by_cases full : cap ≤ (distinctUpTo cap #[] primitives).size
  · exact ⟨_, rounds_of_full full depth, fun room => absurd room (Nat.not_lt.mpr full)⟩
  rw [distinctUpTo_of_distinct names (Nat.not_le.mp full)]
  simpa only [Nat.zero_add] using rounds_exhausts legible names plain builds makes
    (.leaves algebra primitives) (.leaves primitives) depth

end

/-- What a built-in operation makes of agents. -/
def Operation.composed? (operation : Operation m) (agents : List (Agent m)) : Option (Agent m) :=
  match operation.composer with
  | .builtin builtin =>
    if agents.length = operation.arity then (builtin.compose agents).toOption else none
  | .extension _ => none

theorem Algebra.buildsBy_baseWith (policy : RetryPolicy m) :
    (baseWith policy).BuildsBy Operation.composed? := by
  intro operation among agents
  obtain ⟨builtin, -, rfl⟩ := List.mem_map.mp among
  unfold Operation.apply Operation.composed? Operation.ofBuiltin
  dsimp only
  split
  · refine ⟨builtin.compose agents, ?_, rfl⟩
    cases builtin.compose agents with
    | error fault => rfl
    | ok made => rfl
  · exact ⟨.error _, rfl, rfl⟩

theorem Algebra.makesBy_baseWith (policy : RetryPolicy m) :
    (baseWith policy).MakesBy Operation.composed? := by
  intro operation among agents agent
  obtain ⟨builtin, -, rfl⟩ := List.mem_map.mp among
  unfold Operation.Makes Operation.composed? Operation.ofBuiltin
  dsimp only
  split
  · rename_i counted
    cases composed : builtin.compose agents with
    | error _ => simp [Except.toOption]
    | ok made => simp [Except.toOption, counted]
  · rename_i miscounted
    simp [miscounted]

/-- Over the base algebra and agents with different plain names, the enumeration finds the values of
all trees up to its depth, unless the cap cuts it short: each tree once, the lower ones first, and each
named by the text of the tree. -/
theorem enumerate_exhaustive [LawfulMonad m] (policy : RetryPolicy m) (primitives : List (Agent m))
    (names : (primitives.map Agent.name).Nodup)
    (plain : ∀ primitive ∈ primitives, Plain primitive.name) (depth cap : Nat) :
    ∃ found, enumerate (Algebra.baseWith policy) primitives depth cap = pure found ∧
      (found.size < cap →
        ∃ built, Exhausts (Algebra.baseWith policy) primitives depth built ∧
          found.toList = built.map Prod.snd ∧
          found.toList.map Agent.name =
            built.map (fun part => part.1.textWith (nameBound primitives)) ∧
          (found.toList.map Agent.name).Nodup) := by
  have legible := Algebra.legible_baseWith policy
  obtain ⟨found, ended, all⟩ := enumerate_exhausts legible names plain
    (Algebra.buildsBy_baseWith policy) (Algebra.makesBy_baseWith policy) depth cap
  refine ⟨found, ended, fun room => ?_⟩
  obtain ⟨built, exhausts, values⟩ := all room
  have composed (part) (among : part ∈ built) :
      Composes (Algebra.baseWith policy) primitives part.1 part.2 :=
    ((exhausts.all part.1 part.2).mp among).1
  refine ⟨built, exhausts, values, ?_, ?_⟩
  · rw [values, List.map_map]
    exact List.map_congr_left fun part among => (composed part among).name_eq legible
  · rw [values]
    exact nodup_names legible names plain composed exhausts.distinct

/-- A predicate and an identity on numbers. -/
def numberAgents : List (Agent Id) :=
  [.predicate "zero" .number fun value => pure (value == .ofNat 0), .id .number]

/-- Of a predicate and an identity on numbers, eleven trees can be made with one operation. -/
theorem enumerate_exhaustive_numbers :
    ∃ built, Exhausts Algebra.base numberAgents 1 built ∧
      built.map (fun part => part.1.textWith (nameBound numberAgents)) =
        ["zero", "id", "seq(id, zero)", "seq(id, id)", "par(zero, zero)", "par(zero, id)",
          "par(id, zero)", "par(id, id)", "branch(zero, zero, zero)", "branch(zero, id, id)",
          "fix(zero, id)", "observe(zero)", "observe(id)"] := by
  obtain ⟨found, ended, all⟩ :=
    enumerate_exhaustive .standard numberAgents (by decide) (by decide) 1 100
  have found_eq : found = (enumerate Algebra.base numberAgents 1 100).run := ended.symm
  have room : found.size < 100 := by
    rw [found_eq]
    decide +kernel
  obtain ⟨built, exhausts, -, named, -⟩ := all room
  refine ⟨built, exhausts, ?_⟩
  rw [← named, found_eq]
  decide +kernel

end AgentAlgebra
