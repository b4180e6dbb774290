import Mathlib.Algebra.Ring.Nat
import VerbChain.Number.Decimal

namespace VerbChain

/-!
# Which decimals have a finite number

A decimal is read as a finite number exactly when it lies below the middle
between the greatest finite magnitude and the power of two behind it.  The
middle itself is a tie that goes to the even side, which no finite number has.
-/

/-- The least magnitude that is read as an infinity. -/
def overflow : Nat := 2 ^ 1024 - 2 ^ 970

/-- Whether a decimal lies below the least magnitude that overflows. -/
def Decimal.Fits (decimal : Decimal) : Prop :=
  decimal.digits * 10 ^ decimal.exponent.toNat <
    overflow * 10 ^ (-decimal.exponent).toNat

namespace Magnitude

/--
The least magnitude that overflows lies half a spacing below the end of the
last spacing.  The power is left open so that no step works it out.
-/
private theorem exists_half_spacing :
    ∃ half,
      finiteRanks = (half + 3) * 2 ^ 52 ∧
        overflow * unitsPerOne = (2 ^ 54 - 1) * 2 ^ half :=
  ⟨2044, by decide +kernel⟩

/-- A quotient takes no more than 53 bits at its spacing. -/
theorem div_spacing_lt
    {numerator denominator scale : Nat}
    (bits : (numerator / denominator).log2 ≤ scale + 52) :
    numerator / (denominator * 2 ^ scale) < 2 ^ 53 := by
  have quotient : numerator / denominator < 2 ^ (scale + 53) := by
    refine Nat.lt_of_lt_of_le Nat.lt_log2_self ?_
    exact Nat.pow_le_pow_right (by omega) (by omega)
  rw [← Nat.div_div_eq_div_mul, Nat.div_lt_iff_lt_mul (Nat.two_pow_pos _),
    ← Nat.pow_add, Nat.add_comm 53]
  exact quotient

/-- And no less than 53 bits if it is spaced at all. -/
private theorem le_div_spacing
    {numerator denominator scale : Nat}
    (bits : (numerator / denominator).log2 = scale + 52) :
    2 ^ 52 ≤ numerator / (denominator * 2 ^ scale) := by
  have some : numerator / denominator ≠ 0 := by
    intro zero
    rw [zero, Nat.log2_zero] at bits
    omega
  rw [← Nat.div_div_eq_div_mul, Nat.le_div_iff_mul_le (Nat.two_pow_pos _),
    ← Nat.pow_add, Nat.add_comm, ← bits]
  exact Nat.log2_self_le some

/--
Below the last significand there is room for rounding up; the last one itself
is odd, so it is left from the tie on.
-/
private theorem rounding_at_last
    {base significand left spacing half : Nat}
    (even : base % 2 = 0)
    (short : significand < 2 * half)
    (remainder : left < spacing) :
    let rank :=
      if spacing < 2 * left ∨
          (2 * left = spacing ∧ (base + significand) % 2 = 1) then
        base + significand + 1
      else base + significand
    rank ≤ base + 2 * half ∧
      (rank < base + 2 * half ↔
        2 * (spacing * significand + left) + spacing <
          4 * (spacing * half)) := by
  intro rank
  by_cases last : significand + 1 = 2 * half
  · have top : spacing * significand + spacing = 2 * (spacing * half) := by
      rw [← Nat.mul_succ, Nat.succ_eq_add_one, last, Nat.mul_left_comm]
    have odd : (base + significand) % 2 = 1 := by omega
    by_cases up : spacing ≤ 2 * left
    · have rounded : rank = base + significand + 1 :=
        if_pos (by omega)
      omega
    · have kept : rank = base + significand :=
        if_neg (by omega)
      omega
  · have room : significand + 2 ≤ 2 * half := by omega
    have low : spacing * (significand + 2) ≤ 2 * (spacing * half) := by
      rw [Nat.mul_left_comm]
      exact Nat.mul_le_mul_left _ room
    rw [Nat.mul_add] at low
    have small : rank ≤ base + significand + 1 := by
      unfold rank
      split <;> omega
    omega

/-- The ranks of one spacing are left exactly from the tie on. -/
theorem nearestRank_spacing
    {numerator denominator scale : Nat}
    (positive : 0 < denominator)
    (spaced : (numerator / denominator).log2 - 52 = scale) :
    nearestRank numerator denominator ≤ (scale + 2) * 2 ^ 52 ∧
      (nearestRank numerator denominator < (scale + 2) * 2 ^ 52 ↔
        2 * numerator + denominator * 2 ^ scale <
          4 * (denominator * 2 ^ scale * 2 ^ 52)) := by
  have short :=
    @div_spacing_lt numerator denominator scale (by omega)
  have spacingPositive : 0 < denominator * 2 ^ scale :=
    Nat.mul_pos positive (Nat.two_pow_pos _)
  have rounding :=
    @rounding_at_last (scale * 2 ^ 52) _ _ _ (2 ^ 52) (by omega) short
      (Nat.mod_lt numerator spacingPositive)
  rw [Nat.div_add_mod, ← Nat.add_mul] at rounding
  simp only [nearestRank, spaced, Nat.shiftLeft_eq]
  exact rounding

/-- A quotient is rounded to a finite magnitude below the overflow only. -/
theorem nearestRank_lt_finiteRanks_iff
    {numerator denominator : Nat}
    (positive : 0 < denominator) :
    nearestRank numerator denominator < finiteRanks ↔
      numerator < overflow * unitsPerOne * denominator := by
  obtain ⟨half, ranks, limit⟩ := exists_half_spacing
  obtain ⟨scale, spaced⟩ :
      ∃ scale, (numerator / denominator).log2 - 52 = scale := ⟨_, rfl⟩
  obtain ⟨atMost, below⟩ := nearestRank_spacing positive spaced
  have spacingPositive : 0 < denominator * 2 ^ scale :=
    Nat.mul_pos positive (Nat.two_pow_pos _)
  rw [ranks, limit, Nat.mul_assoc, Nat.mul_comm (2 ^ half)]
  rcases Nat.lt_trichotomy scale (half + 1) with lower | rfl | higher
  · have short := @div_spacing_lt numerator denominator scale (by omega)
    rw [Nat.div_lt_iff_lt_mul spacingPositive] at short
    have wider : denominator * 2 ^ scale ≤ denominator * 2 ^ half :=
      Nat.mul_le_mul_left _ (Nat.pow_le_pow_right (by omega) (by omega))
    exact iff_of_true (by omega) (by omega)
  · have spacing :
        denominator * 2 ^ (half + 1) = 2 * (denominator * 2 ^ half) := by
      rw [Nat.pow_succ, ← Nat.mul_assoc, Nat.mul_comm]
    rw [spacing] at below
    exact below.trans (by omega)
  · have long := @le_div_spacing numerator denominator scale (by omega)
    have reaches := (Nat.le_div_iff_mul_le spacingPositive).1 long
    have wider :
        denominator * 2 ^ (half + 2) ≤ denominator * 2 ^ scale :=
      Nat.mul_le_mul_left _ (Nat.pow_le_pow_right (by omega) higher)
    rw [Nat.pow_add, ← Nat.mul_assoc] at wider
    have noLess :
        scale * 2 ^ 52 + numerator / (denominator * 2 ^ scale) ≤
          nearestRank numerator denominator := by
      simp only [nearestRank, spaced, Nat.shiftLeft_eq]
      split <;> omega
    exact iff_of_false (by omega) (by omega)

end Magnitude

namespace Decimal

theorem fits_ofNat
    {digits power : Nat} :
    Fits ⟨digits, .ofNat power⟩ ↔ digits * 10 ^ power < overflow := by
  have none : (-Int.ofNat power).toNat = 0 := by simp
  rw [Fits, none, Nat.pow_zero, Nat.mul_one]
  rfl

theorem fits_negSucc
    {digits power : Nat} :
    Fits ⟨digits, .negSucc power⟩ ↔ digits < overflow * 10 ^ (power + 1) := by
  have none : (Int.negSucc power).toNat = 0 := rfl
  rw [Fits, none, Nat.pow_zero, Nat.mul_one]
  rfl

theorem overflow_bounds :
    0 < overflow ∧ 0 < Magnitude.unitsPerOne ∧
      ∃ zeros, zeros ≤ 401 ∧ overflow < 10 ^ zeros :=
  ⟨by decide +kernel, by decide +kernel, 401, by decide +kernel⟩

/-- Few bits are below any power of ten with a third as many zeros. -/
private theorem lt_of_log2
    {digits power : Nat}
    (short : digits.log2 < 3 * power) :
    digits < 10 ^ power := by
  calc digits < 2 ^ (digits.log2 + 1) := Nat.lt_log2_self
    _ ≤ 2 ^ (3 * power) := Nat.pow_le_pow_right (by omega) short
    _ = (2 ^ 3) ^ power := Nat.pow_mul 2 3 power
    _ ≤ 10 ^ power := Nat.pow_le_pow_left (by omega) power

/-- A decimal has a finite rank exactly when it fits. -/
theorem nearestRank_lt_finiteRanks_iff (decimal : Decimal) :
    decimal.nearestRank < finiteRanks ↔ decimal.Fits := by
  obtain ⟨some, unit, zeros, few, limit⟩ := overflow_bounds
  obtain ⟨digits, exponent⟩ := decimal
  cases exponent with
  | ofNat power =>
      rw [fits_ofNat]
      simp only [nearestRank]
      by_cases zero : digits = 0
      · rw [if_pos zero, zero, Nat.zero_mul]
        exact iff_of_true (by decide) some
      by_cases beyond : 400 < power
      · rw [if_neg zero, if_pos beyond]
        refine iff_of_false (Nat.lt_irrefl _) (Nat.not_lt.2 ?_)
        calc overflow ≤ 10 ^ zeros := Nat.le_of_lt limit
          _ ≤ 10 ^ power := Nat.pow_le_pow_right (by omega) (by omega)
          _ ≤ digits * 10 ^ power :=
            Nat.le_mul_of_pos_left _ (Nat.pos_of_ne_zero zero)
      · rw [if_neg zero, if_neg beyond,
          Magnitude.nearestRank_lt_finiteRanks_iff Nat.one_pos, Nat.mul_one]
        exact Nat.mul_lt_mul_right unit
  | negSucc power =>
      rw [fits_negSucc]
      simp only [nearestRank]
      by_cases short : digits.log2 + 1100 < 3 * (power + 1)
      · rw [if_pos short]
        have below := @lt_of_log2 digits (power + 1) (by omega)
        refine iff_of_true (by decide) (Nat.lt_of_lt_of_le below ?_)
        exact Nat.le_mul_of_pos_left _ some
      · have positive : 0 < Nat.pow 10 (power + 1) :=
          Nat.pow_pos (by omega)
        rw [if_neg short,
          Magnitude.nearestRank_lt_finiteRanks_iff positive,
          Nat.mul_right_comm]
        exact Nat.mul_lt_mul_right unit

end Decimal

/-- A decimal is read as a finite number exactly when it fits. -/
theorem Binary64.isFinite_ofDecimal_iff
    (negative : Bool)
    (decimal : Decimal) :
    (ofDecimal negative decimal).isFinite = true ↔ decimal.Fits := by
  rw [← decimal.nearestRank_lt_finiteRanks_iff, ofDecimal, ofRank]
  split <;> simp_all [isFinite]

end VerbChain
