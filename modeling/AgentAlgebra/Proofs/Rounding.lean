import AgentAlgebra.Double.Decimal
import Mathlib.Algebra.Order.Field.Basic
import Mathlib.Algebra.Order.Field.Rat
import Mathlib.Data.Nat.Cast.Order.Field
import Mathlib.Tactic.FieldSimp
import Mathlib.Tactic.Linarith
import Mathlib.Tactic.Ring
/-!
# Doubles and their shortest decimals

The numbers that round to a double are an interval, and the intervals of two doubles of different size
share no number: where they meet, the even significand takes the end for itself. The shortest decimal
of a double is in its interval, so its value tells the size of the double.
-/

namespace AgentAlgebra

namespace Double

variable {x y : Double} {r : ℚ} {num den : Nat}

theorem magnitude_eq (x : Double) : x.magnitude = x.significand * 2 ^ x.scale :=
  Nat.shiftLeft_eq _ _

/-- Where scales differ, the double of the greater scale has all 53 bits and so is greater in size. -/
theorem magnitude_lt_of_scale (less : x.scale < y.scale) : x.magnitude < y.magnitude := by
  obtain ⟨d, scale⟩ := Nat.exists_eq_add_of_lt less
  have normal : 0x10000000000000 ≤ y.significand := y.normal.resolve_right (by omega)
  have bound := x.significand_lt
  calc x.magnitude = x.significand * 2 ^ x.scale := x.magnitude_eq
    _ < 2 * 0x10000000000000 * 2 ^ x.scale := Nat.mul_lt_mul_of_pos_right bound (Nat.two_pow_pos _)
    _ ≤ 2 ^ (d + 1) * y.significand * 2 ^ x.scale := by
      have double : 2 ≤ 2 ^ (d + 1) := Nat.le_self_pow (by omega) 2
      exact Nat.mul_le_mul_right _ (Nat.mul_le_mul double normal)
    _ = y.significand * 2 ^ y.scale := by
      rw [scale]
      ring
    _ = y.magnitude := y.magnitude_eq.symm

/-- Doubles of one size have one significand and one scale. -/
theorem parts_eq_of_magnitude (same : x.magnitude = y.magnitude) :
    x.significand = y.significand ∧ x.scale = y.scale := by
  have scales : x.scale = y.scale := by
    rcases lt_trichotomy x.scale y.scale with less | equal | more
    · exact absurd same (magnitude_lt_of_scale less).ne
    · exact equal
    · exact absurd same (magnitude_lt_of_scale more).ne'
  refine ⟨?_, scales⟩
  rw [magnitude_eq, magnitude_eq, scales] at same
  exact Nat.eq_of_mul_eq_mul_right (Nat.two_pow_pos _) same

theorem high_eq (x : Double) :
    x.roundingInterval.high = (4 * x.significand + 2) * 2 ^ x.scale := by
  simp only [roundingInterval, magnitude_eq, Nat.shiftLeft_eq]
  ring

theorem low_eq (x : Double) :
    x.roundingInterval.low =
      if x.significand = 0x10000000000000 ∧ 0 < x.scale then (4 * x.significand - 1) * 2 ^ x.scale
      else (4 * x.significand - 2) * 2 ^ x.scale := by
  simp only [roundingInterval, magnitude_eq, Nat.shiftLeft_eq, Nat.sub_mul, one_mul, mul_assoc]

/-- The steps of a greater scale are at least twice as wide. -/
theorem mul_two_pow_le {m n a b : Nat} (below : a < b) (fits : m ≤ 2 * n) :
    m * 2 ^ a ≤ n * 2 ^ b ∧ (m * 2 ^ a = n * 2 ^ b → m = 2 * n) := by
  obtain ⟨d, scale⟩ := Nat.exists_eq_add_of_lt below
  have double : 2 ≤ 2 ^ (d + 1) := Nat.le_self_pow (by omega) 2
  have reach : 2 * n * 2 ^ a ≤ n * 2 ^ b := by
    calc 2 * n * 2 ^ a ≤ 2 ^ (d + 1) * n * 2 ^ a :=
          Nat.mul_le_mul_right _ (Nat.mul_le_mul_right _ double)
      _ = n * 2 ^ b := by
        rw [scale]
        ring
  refine ⟨(Nat.mul_le_mul_right _ fits).trans reach, fun meet => ?_⟩
  have back := Nat.le_of_mul_le_mul_right (meet ▸ reach) (Nat.two_pow_pos a)
  omega

/-- Where one double is less in size than another, the numbers that round to it are below those that
round to the other, up to an end that the two intervals do not both hold. -/
theorem high_le_low (less : x.magnitude < y.magnitude) :
    x.roundingInterval.high ≤ y.roundingInterval.low ∧
      (x.roundingInterval.high = y.roundingInterval.low →
        ¬ (x.significand % 2 = 0 ∧ y.significand % 2 = 0)) := by
  have bound := x.significand_lt
  have scales : x.scale ≤ y.scale := by
    by_contra more
    exact absurd less (magnitude_lt_of_scale (by omega)).not_gt
  rw [high_eq, low_eq]
  rcases Nat.eq_or_lt_of_le scales with equal | below
  · -- Of one scale, the greater significand is no least one, and the steps are of one width.
    rw [magnitude_eq, magnitude_eq, equal] at less
    have more : x.significand < y.significand := Nat.lt_of_mul_lt_mul_right less
    have normal := x.normal
    rw [if_neg (by omega), equal]
    refine ⟨Nat.mul_le_mul_right _ (by omega), fun meet => ?_⟩
    have meet := Nat.eq_of_mul_eq_mul_right (Nat.two_pow_pos _) meet
    omega
  · -- Of a greater scale, the steps below even the least significand are no narrower.
    have normal : 0x10000000000000 ≤ y.significand := y.normal.resolve_right (by omega)
    by_cases least : y.significand = 0x10000000000000 ∧ 0 < y.scale
    · rw [if_pos least]
      obtain ⟨fits, ends⟩ := mul_two_pow_le below
        (by omega : 4 * x.significand + 2 ≤ 2 * (4 * y.significand - 1))
      refine ⟨fits, fun meet => ?_⟩
      have meet := ends meet
      omega
    · rw [if_neg least]
      obtain ⟨fits, ends⟩ := mul_two_pow_le below
        (by omega : 4 * x.significand + 2 ≤ 2 * (4 * y.significand - 2))
      refine ⟨fits, fun meet => ?_⟩
      have meet := ends meet
      omega

/-- A number, in quarters of a unit, is in an interval. -/
def RoundingInterval.Holds (interval : RoundingInterval) (r : ℚ) : Prop :=
  if interval.closed then interval.low ≤ r ∧ r ≤ interval.high
  else interval.low < r ∧ r < interval.high

theorem RoundingInterval.contains_eq_true {interval : RoundingInterval} (positive : 0 < den) :
    interval.contains num den = true ↔ interval.Holds (num / den) := by
  have positive : (0 : ℚ) < den := by exact_mod_cast positive
  unfold RoundingInterval.contains RoundingInterval.Holds
  split
  · rw [Bool.and_eq_true, decide_eq_true_eq, decide_eq_true_eq, le_div_iff₀ positive,
      div_le_iff₀ positive]
    norm_cast
  · rw [Bool.and_eq_true, decide_eq_true_eq, decide_eq_true_eq, lt_div_iff₀ positive,
      div_lt_iff₀ positive]
    norm_cast

theorem RoundingInterval.Holds.bounds {interval : RoundingInterval} (holds : interval.Holds r) :
    (interval.low : ℚ) ≤ r ∧ r ≤ interval.high := by
  unfold RoundingInterval.Holds at holds
  split at holds
  · exact holds
  · exact ⟨holds.1.le, holds.2.le⟩

theorem closed_of_holds (holds : x.roundingInterval.Holds r)
    (ends : r = x.roundingInterval.low ∨ r = x.roundingInterval.high) :
    x.significand % 2 = 0 := by
  unfold RoundingInterval.Holds at holds
  split at holds
  · rename_i closed
    simpa [roundingInterval] using closed
  · rcases ends with rfl | rfl
    · exact absurd holds.1 (lt_irrefl _)
    · exact absurd holds.2 (lt_irrefl _)

theorem not_less_of_holds (holds : x.roundingInterval.Holds r)
    (holds' : y.roundingInterval.Holds r) : ¬ x.magnitude < y.magnitude := by
  intro less
  obtain ⟨below, ends⟩ := high_le_low less
  have below : (x.roundingInterval.high : ℚ) ≤ y.roundingInterval.low := by exact_mod_cast below
  have top : r = x.roundingInterval.high :=
    le_antisymm holds.bounds.2 (below.trans holds'.bounds.1)
  have bottom : r = y.roundingInterval.low :=
    le_antisymm (top.le.trans below) holds'.bounds.1
  exact ends (by exact_mod_cast top.symm.trans bottom)
    ⟨closed_of_holds holds (.inr top), closed_of_holds holds' (.inl bottom)⟩

/-- A number rounds to doubles of one size only. -/
theorem magnitude_eq_of_holds (holds : x.roundingInterval.Holds r)
    (holds' : y.roundingInterval.Holds r) : x.magnitude = y.magnitude :=
  le_antisymm (not_lt.mp (not_less_of_holds holds' holds))
    (not_lt.mp (not_less_of_holds holds holds'))

end Double

/-- The number that a decimal is. -/
def Decimal.value (d : Decimal) : ℚ := d.coefficient * 10 ^ d.exponent

theorem Decimal.value_trimmed (fuel : Nat) (d : Decimal) : (d.trimmed fuel).value = d.value := by
  induction fuel generalizing d with
  | zero => rfl
  | succ fuel ih =>
    rw [trimmed]
    split
    · rename_i round
      rw [ih]
      obtain ⟨n, tens⟩ := Nat.dvd_of_mod_eq_zero round.2
      have tenth : d.coefficient / 10 = n := by omega
      unfold Decimal.value
      rw [tenth, tens, zpow_add_one₀ (by norm_num)]
      push_cast
      ring
    · rfl

namespace Double

variable {x y : Double}

theorem powerOfTen_div (exponent : Int) :
    (powerOfTen exponent.toNat : ℚ) / powerOfTen (-exponent).toNat = 10 ^ exponent := by
  unfold powerOfTen
  rw [Nat.pow_eq, Nat.pow_eq]
  rcases Int.le_total 0 exponent with whole | part
  · obtain ⟨n, rfl⟩ := Int.eq_ofNat_of_zero_le whole
    simp
  · obtain ⟨n, negative⟩ := Int.eq_ofNat_of_zero_le (Int.neg_nonneg_of_nonpos part)
    obtain rfl : exponent = -n := by omega
    simp

/-- What is found on a grid is in the interval. -/
theorem holds_of_onGrid {halving : Halving} {exponent : Int} {d : Decimal}
    (found : x.onGrid? halving exponent = some d) :
    x.roundingInterval.Holds (4 * unitsPerOne * d.value) := by
  have positive : 0 < powerOfTen (-exponent).toNat := Nat.pow_pos (by decide)
  have fits (n : Nat) (within : x.roundingInterval.contains
      (n * (4 * unitsPerOne * powerOfTen exponent.toNat)) (powerOfTen (-exponent).toNat) = true) :
      x.roundingInterval.Holds (4 * unitsPerOne * Decimal.value ⟨n, exponent⟩) := by
    have holds := (RoundingInterval.contains_eq_true positive).mp within
    have scaled : 4 * unitsPerOne * Decimal.value ⟨n, exponent⟩ =
        ((n * (4 * unitsPerOne * powerOfTen exponent.toNat) : Nat) : ℚ) /
          powerOfTen (-exponent).toNat := by
      unfold Decimal.value
      rw [← powerOfTen_div]
      push_cast
      ring
    rw [scaled]
    exact holds
  unfold onGrid? at found
  extract_lets up down value step below interval belowFits aboveFits rest at found
  have down : belowFits = true → d = ⟨below, exponent⟩ →
      x.roundingInterval.Holds (4 * unitsPerOne * d.value) := fun within same =>
    same ▸ fits below within
  have up : aboveFits = true → d = ⟨below + 1, exponent⟩ →
      x.roundingInterval.Holds (4 * unitsPerOne * d.value) := fun within same =>
    same ▸ fits (below + 1) within
  split at found
  · rename_i both
    obtain ⟨lower, upper⟩ := Bool.and_eq_true_iff.mp both
    split at found
    · exact down lower (Option.some.inj found).symm
    · exact up upper (Option.some.inj found).symm
  · split at found
    · rename_i lower
      exact down lower (Option.some.inj found).symm
    · split at found
      · rename_i upper
        exact up upper (Option.some.inj found).symm
      · exact nomatch found

/-- A double rounds to itself. -/
theorem holds_self (x : Double) : x.roundingInterval.Holds (4 * x.magnitude) := by
  have step : 0 < 2 ^ x.scale := Nat.two_pow_pos _
  have size := x.magnitude_eq
  have high : 4 * x.magnitude < x.roundingInterval.high := by
    rw [high_eq, size, ← Nat.mul_assoc]
    exact Nat.mul_lt_mul_of_pos_right (by omega) step
  have low : x.roundingInterval.low ≤ 4 * x.magnitude := by
    simp only [roundingInterval]
    split <;> exact Nat.sub_le _ _
  unfold RoundingInterval.Holds
  split
  · exact ⟨by exact_mod_cast low, by exact_mod_cast high.le⟩
  · rename_i opened
    have odd : x.significand % 2 ≠ 0 := by simpa [roundingInterval] using opened
    have some_unit : 0 < x.magnitude := size ▸ Nat.mul_pos (by omega) step
    have low : x.roundingInterval.low < 4 * x.magnitude := by
      simp only [roundingInterval, Nat.shiftLeft_eq]
      split <;> omega
    exact ⟨by exact_mod_cast low, by exact_mod_cast high⟩

/-- The exact decimal, for a unit that is any power of a half. -/
theorem value_of_unit (n magnitude : Nat) :
    (4 : ℚ) * ((1 <<< n : Nat) : ℚ) * Decimal.value ⟨magnitude * Nat.pow 5 n, -n⟩ =
      4 * (magnitude : ℚ) := by
  have ten : (10 : ℚ) ^ n = 2 ^ n * 5 ^ n := by
    rw [← mul_pow]
    norm_num
  have positive : (10 : ℚ) ^ n ≠ 0 := pow_ne_zero _ (by norm_num)
  rw [Decimal.value, Nat.pow_eq, Nat.shiftLeft_eq, zpow_neg, zpow_natCast]
  push_cast
  field_simp
  rw [ten]
  ring

theorem value_exact (x : Double) : 4 * unitsPerOne * x.exact.value = 4 * (x.magnitude : ℚ) := by
  have exponent : (-1074 : Int) = -((1074 : Nat) : Int) := rfl
  unfold unitsPerOne exact
  rw [exponent]
  -- As a numeral, the exponent would be worked out.
  generalize 1074 = n
  exact value_of_unit n x.magnitude

/-- The shortest decimal of a double rounds to it. -/
theorem holds_shortest (halving : Halving) (x : Double) :
    x.roundingInterval.Holds (4 * unitsPerOne * (x.shortest halving).value) := by
  have self := x.holds_self
  unfold shortest
  split
  · rename_i zero
    have none : (x.magnitude : ℚ) = 0 := by simp [magnitude_eq, zero]
    simpa [Decimal.value, none] using self
  · dsimp only
    split
    · rename_i decimal found
      obtain ⟨n, -, here⟩ := List.exists_of_findSome?_eq_some found
      rw [Decimal.value_trimmed]
      exact holds_of_onGrid here
    · rw [value_exact]
      exact self

/-- The value of its shortest decimal tells the size of a double. -/
theorem magnitude_eq_of_shortest {halving : Halving}
    (same : (x.shortest halving).value = (y.shortest halving).value) :
    x.magnitude = y.magnitude :=
  magnitude_eq_of_holds (holds_shortest halving x) (same ▸ holds_shortest halving y)

end Double

end AgentAlgebra
