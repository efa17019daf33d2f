import AgentAlgebra.Explore.Odometer
import AgentAlgebra.Proofs.Exploration
import Mathlib.Data.List.Induction
import Mathlib.Data.List.Lex
import Mathlib.Data.List.Sort
import Mathlib.Tactic.Ring
/-!
# What an odometer runs through

The digits of a tuple are those of a number to the base of the odometer, the rank of the tuple. A
step raises the rank by one, and the odometer ends where no greater rank is left, so it runs through
the ranks from zero on, each once and in order. The order of ranks is the lexicographic order of
tuples.
-/

namespace AgentAlgebra

namespace Odometer

/-- Advanced again and again, the odometer gives these tuples and then no more. -/
def RunsThrough : Odometer → List (List Nat) → Prop
  | odometer, [] => odometer.advance = none
  | odometer, item :: items =>
    ∃ behind, odometer.advance = some (item, behind) ∧ behind.RunsThrough items

/-- The number whose digits to a base are those of a tuple. -/
def rank (base : Nat) : List Nat → Nat
  | [] => 0
  | digit :: rest => digit * base ^ rest.length + rank base rest

/-- A tuple of so many numbers below the base. -/
structure OnGrid (base arity : Nat) (digits : List Nat) : Prop where
  length : digits.length = arity
  below : ∀ digit ∈ digits, digit < base

variable {base arity digit : Nat} {digits other front next : List Nat}

theorem RunsThrough.unique {odometer : Odometer} {items others : List (List Nat)}
    (one : odometer.RunsThrough items) (two : odometer.RunsThrough others) : items = others := by
  induction items generalizing odometer others with
  | nil =>
    cases others with
    | nil => rfl
    | cons item others =>
      obtain ⟨behind, advanced, -⟩ := two
      rw [show odometer.advance = none from one] at advanced
      cases advanced
  | cons item items ih =>
    obtain ⟨behind, advanced, later⟩ := one
    cases others with
    | nil =>
      rw [show odometer.advance = none from two] at advanced
      cases advanced
    | cons item' others =>
      obtain ⟨behind', advanced', later'⟩ := two
      rw [advanced] at advanced'
      obtain ⟨rfl, rfl⟩ := Prod.mk.inj (Option.some.inj advanced')
      rw [ih later later']

theorem rank_append (front back : List Nat) :
    rank base (front ++ back) = rank base front * base ^ back.length + rank base back := by
  induction front with
  | nil => simp [rank]
  | cons digit front ih =>
    simp only [List.cons_append, rank, ih, List.length_append, Nat.pow_add]
    ring

theorem rank_zeros (count : Nat) : rank base (List.replicate count 0) = 0 := by
  induction count with
  | zero => rfl
  | succ count ih => simp [List.replicate_succ, rank, ih]

theorem onGrid_cons : OnGrid base (arity + 1) (digit :: digits) ↔
    digit < base ∧ OnGrid base arity digits := by
  constructor
  · intro grid
    obtain ⟨first, rest⟩ := List.forall_mem_cons.mp grid.below
    exact ⟨first, Nat.succ.inj grid.length, rest⟩
  · rintro ⟨first, grid⟩
    exact ⟨congrArg Nat.succ grid.length, List.forall_mem_cons.mpr ⟨first, grid.below⟩⟩

theorem OnGrid.rank_lt (grid : OnGrid base arity digits) : rank base digits < base ^ arity := by
  induction digits generalizing arity with
  | nil => simp [← grid.length, rank]
  | cons digit digits ih =>
    obtain ⟨arity, rfl⟩ : ∃ rest, arity = rest + 1 := ⟨digits.length, grid.length.symm⟩
    obtain ⟨first, rest⟩ := onGrid_cons.mp grid
    have room : (digit + 1) * base ^ arity ≤ base ^ arity * base := by
      rw [Nat.mul_comm (base ^ arity)]
      exact Nat.mul_le_mul_right _ first
    have small := ih rest
    rw [Nat.succ_mul] at room
    rw [rank, rest.length, Nat.pow_succ]
    omega

/-- Tuples of one length are in lexicographic order as their ranks are. -/
theorem OnGrid.lt_iff (one : OnGrid base arity digits) (two : OnGrid base arity other) :
    digits < other ↔ rank base digits < rank base other := by
  induction digits generalizing arity other with
  | nil =>
    obtain rfl := List.eq_nil_of_length_eq_zero (two.length.trans one.length.symm)
    simp [rank]
  | cons digit digits ih =>
    obtain ⟨arity, rfl⟩ : ∃ rest, arity = rest + 1 := ⟨digits.length, one.length.symm⟩
    obtain ⟨digit', other, rfl⟩ := List.exists_cons_of_length_eq_add_one two.length
    obtain ⟨-, one⟩ := onGrid_cons.mp one
    obtain ⟨-, two⟩ := onGrid_cons.mp two
    have small := one.rank_lt
    have small' := two.rank_lt
    rw [List.cons_lt_cons_iff, ih one two, rank, rank, one.length, two.length]
    rcases Nat.lt_trichotomy digit digit' with less | rfl | more
    · have room : (digit + 1) * base ^ arity ≤ digit' * base ^ arity := Nat.mul_le_mul_right _ less
      rw [Nat.succ_mul] at room
      omega
    · simp
    · have room : (digit' + 1) * base ^ arity ≤ digit * base ^ arity := Nat.mul_le_mul_right _ more
      rw [Nat.succ_mul] at room
      omega

theorem OnGrid.rank_inj (one : OnGrid base arity digits) (two : OnGrid base arity other)
    (same : rank base digits = rank base other) : digits = other := by
  rcases lt_trichotomy digits other with less | same | more
  · exact absurd ((one.lt_iff two).mp less) same.not_lt
  · exact same
  · exact absurd ((two.lt_iff one).mp more) same.not_gt

/-- One place of the carry. -/
theorem carry_append (front behind : List Nat) (digit : Nat) :
    carry base (front.length + 1) (front ++ digit :: behind) =
      if digit + 1 < base then some (front ++ (digit + 1) :: behind)
      else carry base front.length (front ++ 0 :: behind) := by
  have raised : (front ++ digit :: behind).modify front.length (· + 1) =
      front ++ (digit + 1) :: behind := by
    simp [List.modify_eq_set_getElem?]
  have shown : (front ++ (digit + 1) :: behind).getD front.length 0 = digit + 1 := by simp
  have cleared : (front ++ (digit + 1) :: behind).set front.length 0 = front ++ 0 :: behind := by
    simp
  rw [carry, raised, shown, cleared]

/-- Counting up in front of zeros adds one at the place in front of them, unless all digits there
are as great as they may be. The induction goes from the last digit to the first, as the carry
does. -/
theorem carry_spec (below : ∀ digit ∈ front, digit < base) (zeros : Nat) :
    (∀ next, carry base front.length (front ++ List.replicate zeros 0) = some next →
      OnGrid base (front.length + zeros) next ∧
        rank base next = rank base (front ++ List.replicate zeros 0) + base ^ zeros) ∧
    (carry base front.length (front ++ List.replicate zeros 0) = none →
      rank base (front ++ List.replicate zeros 0) + base ^ zeros =
        base ^ (front.length + zeros)) := by
  induction front using List.reverseRecOn generalizing zeros with
  | nil => simp [carry, rank_zeros]
  | append_singleton front digit ih =>
    obtain ⟨inFront, here⟩ : (∀ digit ∈ front, digit < base) ∧ digit < base := by
      simpa [or_imp, forall_and] using below
    rw [List.length_append, List.length_singleton, List.append_assoc, List.singleton_append,
      carry_append]
    by_cases grows : digit + 1 < base
    · rw [if_pos grows]
      refine ⟨?_, nofun⟩
      rintro _ ⟨⟩
      refine ⟨⟨by simp; omega, fun entry among => ?_⟩, ?_⟩
      · rcases List.mem_append.mp among with before | behind
        · exact inFront entry before
        · rcases List.mem_cons.mp behind with rfl | zero
          · exact grows
          · rw [(List.mem_replicate.mp zero).2]
            omega
      · simp [rank_append, rank_zeros, rank]
        ring
    · -- The digit runs over, so it is one zero more for the digits in front of it.
      obtain ⟨some, none⟩ := ih inFront (zeros + 1)
      have width : front.length + 1 + zeros = front.length + (zeros + 1) := by omega
      have full : digit * base ^ zeros + base ^ zeros = base ^ (zeros + 1) := by
        rw [← Nat.succ_mul, show digit.succ = base by omega, Nat.pow_succ, Nat.mul_comm]
      have ranks : rank base (front ++ digit :: List.replicate zeros 0) =
          rank base (front ++ List.replicate (zeros + 1) 0) + digit * base ^ zeros := by
        simp [rank_append, rank_zeros, rank]
      rw [if_neg grows, ← List.replicate_succ, width, ranks, Nat.add_assoc, full]
      exact ⟨some, none⟩

/-- The step of an odometer: the next tuple is the one of the next rank, and there is none only
behind the greatest rank. -/
theorem OnGrid.step (grid : OnGrid base arity digits) :
    (∀ next, carry base digits.length digits = some next →
      OnGrid base arity next ∧ rank base next = rank base digits + 1) ∧
    (carry base digits.length digits = none → rank base digits + 1 = base ^ arity) := by
  simpa [grid.length] using carry_spec grid.below 0

/-- From a tuple on, an odometer runs through all ranks from the rank of the tuple on. The induction
is on the number of ranks that are left. -/
theorem exists_runsThrough (grid : OnGrid base arity digits) :
    ∃ items, RunsThrough ⟨base, some digits⟩ items ∧ (∀ item ∈ items, OnGrid base arity item) ∧
      items.map (rank base) =
        List.range' (rank base digits) (base ^ arity - rank base digits) := by
  obtain ⟨left, many⟩ := Nat.exists_eq_add_one.mpr (Nat.sub_pos_of_lt grid.rank_lt)
  induction left generalizing digits with
  | zero =>
    cases carried : carry base digits.length digits with
    | some next =>
      obtain ⟨grid', raised⟩ := grid.step.1 next carried
      have small := grid'.rank_lt
      omega
    | none =>
      refine ⟨[digits], ⟨⟨base, none⟩, ?_, rfl⟩, by simpa using grid, ?_⟩
      · simp [advance, carried]
      · simp [many]
  | succ left ih =>
    cases carried : carry base digits.length digits with
    | none =>
      have last := grid.step.2 carried
      omega
    | some next =>
      obtain ⟨grid', raised⟩ := grid.step.1 next carried
      obtain ⟨items, run, all, ranks⟩ := ih grid' (by omega)
      refine ⟨digits :: items, ⟨⟨base, some next⟩, ?_, run⟩, ?_, ?_⟩
      · simp [advance, carried]
      · exact List.forall_mem_cons.mpr ⟨grid, all⟩
      · rw [List.map_cons, ranks, raised, many, List.range'_succ]
        congr 2
        omega

/-- From its start on, an odometer runs through all ranks. -/
theorem exists_runsThrough_start (base arity : Nat) :
    ∃ items, (start base arity).RunsThrough items ∧ (∀ item ∈ items, OnGrid base arity item) ∧
      items.map (rank base) = List.range (base ^ arity) := by
  by_cases fills : 0 < base ∨ arity = 0
  · have zeros : OnGrid base arity (List.replicate arity 0) := by
      refine ⟨List.length_replicate, fun digit among => ?_⟩
      obtain ⟨some, rfl⟩ := List.mem_replicate.mp among
      omega
    obtain ⟨items, run, all, ranks⟩ := exists_runsThrough zeros
    refine ⟨items, ?_, all, ?_⟩
    · rwa [start, if_pos fills]
    · rw [ranks, rank_zeros, List.range_eq_range', Nat.sub_zero]
  · refine ⟨[], ?_, by simp, ?_⟩
    · simp [RunsThrough, start, if_neg fills, advance]
    · rw [show base = 0 by omega, Nat.zero_pow (by omega)]
      rfl

/-- Tuples that run through all ranks in order are the grid in lexicographic order. -/
theorem grid_of_ranks {items : List (List Nat)} (all : ∀ item ∈ items, OnGrid base arity item)
    (ranks : items.map (rank base) = List.range (base ^ arity)) :
    (∀ item, item ∈ items ↔ OnGrid base arity item) ∧ items.Pairwise (· < ·) := by
  constructor
  · intro item
    refine ⟨all item, fun grid => ?_⟩
    have among : rank base item ∈ items.map (rank base) := by
      rw [ranks]
      exact List.mem_range.mpr grid.rank_lt
    obtain ⟨other, found, same⟩ := List.mem_map.mp among
    rwa [← (all other found).rank_inj grid same]
  · have ascending : (items.map (rank base)).Pairwise (· < ·) := ranks ▸ List.pairwise_lt_range
    refine (List.pairwise_map.mp ascending).imp_of_mem fun one two less => ?_
    exact ((all _ one).lt_iff (all _ two)).mpr less

end Odometer

/-- The tuples over numbers in increasing order are in lexicographic order. -/
theorem pairwise_lt_tuples {choices : List Nat} (ascending : choices.Pairwise (· < ·))
    (arity : Nat) : (tuples choices arity).Pairwise (· < ·) := by
  induction arity with
  | zero => exact List.pairwise_singleton _ _
  | succ arity ih =>
    refine List.pairwise_flatMap.mpr ⟨fun first _ => ?_, ?_⟩
    · refine List.pairwise_map.mpr (ih.imp fun less => ?_)
      exact List.cons_lt_cons_iff.mpr (.inr ⟨rfl, less⟩)
    · refine ascending.imp fun {first other} less => ?_
      intro tuple one tuple' two
      obtain ⟨_, -, rfl⟩ := List.mem_map.mp one
      obtain ⟨_, -, rfl⟩ := List.mem_map.mp two
      exact List.cons_lt_cons_iff.mpr (.inl less)

/-- The walk over tuples of places goes through the grid in order. -/
theorem walkTuples_finRange {m : Type → Type} [Monad m] [LawfulMonad m] {σ : Type} {len arity : Nat}
    {items : List (List Nat)} (grid : ∀ item, item ∈ items ↔ Odometer.OnGrid len arity item)
    (ascending : items.Pairwise (· < ·)) (visit : σ → List Nat → m (ForInStep σ)) (s : σ) :
    walkTuples (List.finRange len) (fun s places => visit s (places.map Fin.val)) arity [] s =
      walk visit s items := by
  have listed : (tuples (List.finRange len) arity).map (List.map Fin.val) = items := by
    rw [← tuples_map, List.map_coe_finRange_eq_range]
    refine (pairwise_lt_tuples List.pairwise_lt_range arity).eq_of_mem_iff ascending fun item => ?_
    rw [grid, mem_tuples]
    simp only [List.mem_range]
    exact ⟨fun ⟨length, below⟩ => ⟨length, below⟩, fun grid => ⟨grid.length, grid.below⟩⟩
  rw [walkTuples_eq_walk, ← listed, walk_map]
  rfl

namespace Odometer

/-- An odometer runs through the whole grid in lexicographic order and then ends. There are as many
tuples as the power says, so one if they are empty and none if there is no number to put into them,
each tuple comes once, and a walk over tuples of places visits just these tuples in this order. -/
theorem runs_through_grid (len arity : Nat) :
    ∃ items : List (List Nat),
      (∀ given, (start len arity).RunsThrough given ↔ given = items) ∧
      items.length = len ^ arity ∧
      (∀ item, item ∈ items ↔ item.length = arity ∧ ∀ index ∈ item, index < len) ∧
      items.Pairwise (· < ·) ∧ (∀ item ∈ items, items.count item = 1) ∧
      ∀ {m : Type → Type} [Monad m] [LawfulMonad m] {σ : Type}
        (visit : σ → List Nat → m (ForInStep σ)) (s : σ),
        walkTuples (List.finRange len) (fun s places => visit s (places.map Fin.val)) arity [] s =
          walk visit s items := by
  obtain ⟨items, run, all, ranks⟩ := exists_runsThrough_start len arity
  obtain ⟨grid, ascending⟩ := grid_of_ranks all ranks
  refine ⟨items, fun given => ?_, ?_, fun item => ?_, ascending, fun item among => ?_, ?_⟩
  · constructor
    · exact fun also => also.unique run
    · rintro rfl
      exact run
  · have counted := congrArg List.length ranks
    rwa [List.length_map, List.length_range] at counted
  · rw [grid]
    exact ⟨fun grid => ⟨grid.length, grid.below⟩, fun ⟨length, below⟩ => ⟨length, below⟩⟩
  · exact List.count_eq_one_of_mem (ascending.imp ne_of_lt) among
  · exact fun visit s => walkTuples_finRange grid ascending visit s

example : (start 2 2).RunsThrough [[0, 0], [0, 1], [1, 0], [1, 1]] :=
  ⟨_, rfl, _, rfl, _, rfl, _, rfl, rfl⟩

example : (start 0 2).RunsThrough [] ∧ (start 0 0).RunsThrough [[]] := ⟨rfl, _, rfl, rfl⟩

end Odometer

end AgentAlgebra
