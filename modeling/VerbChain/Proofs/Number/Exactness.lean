import VerbChain.Proofs.Number.Overflow
import VerbChain.Proofs.Number.ReadBack

namespace VerbChain

/-!
# Numbers that are held exactly

A magnitude of no more than 53 bits is held exactly, however often it is
doubled.  So a decimal with few digits and a small power of ten is held exactly,
and one rounding is all there is to a product or a quotient of two of them.
-/

namespace Magnitude

/-- The magnitude of a rank that is put together from its two parts. -/
theorem units_of_parts
    {rank bits doubled : Nat}
    (short : bits < 2 ^ 53)
    (long : 2 ^ 52 ≤ bits ∨ doubled = 0)
    (parts : rank = doubled * 2 ^ 52 + bits) :
    units rank = bits * 2 ^ doubled := by
  have count : doublings rank = doubled := by
    unfold doublings
    simp only [Nat.shiftLeft_eq]
    omega
  have left : significand rank = bits := by
    unfold significand
    rw [count, Nat.shiftLeft_eq]
    omega
  rw [units, count, left, Nat.shiftLeft_eq]

/-- A magnitude of few bits is held exactly, however often it is doubled. -/
theorem exists_rank
    {bits : Nat}
    (short : bits < 2 ^ 53)
    (doubled : Nat) :
    ∃ rank, units rank = bits * 2 ^ doubled := by
  by_cases zero : bits = 0
  · subst zero
    exact ⟨0, by rw [Nat.zero_mul]; rfl⟩
  have least := Nat.log2_self_le zero
  have most := @Nat.lt_log2_self bits
  have few : bits.log2 < 53 := (Nat.log2_lt zero).2 short
  -- As many doublings as leave 53 bits go into the significand.
  by_cases roomy : doubled ≤ 52 - bits.log2
  · have within : bits * 2 ^ doubled < 2 ^ 53 := by
      calc bits * 2 ^ doubled < 2 ^ (bits.log2 + 1) * 2 ^ doubled :=
            Nat.mul_lt_mul_of_pos_right most (Nat.two_pow_pos _)
        _ = 2 ^ (bits.log2 + 1 + doubled) := (Nat.pow_add ..).symm
        _ ≤ 2 ^ 53 := Nat.pow_le_pow_right (by omega) (by omega)
    exact ⟨_, (units_of_parts within (.inr rfl) rfl).trans (Nat.mul_one _)⟩
  · obtain ⟨rest, rfl⟩ := Nat.exists_eq_add_of_le (Nat.le_of_not_le roomy)
    have within : bits * 2 ^ (52 - bits.log2) < 2 ^ 53 := by
      calc bits * 2 ^ (52 - bits.log2)
          < 2 ^ (bits.log2 + 1) * 2 ^ (52 - bits.log2) :=
            Nat.mul_lt_mul_of_pos_right most (Nat.two_pow_pos _)
        _ = 2 ^ 53 := by
            rw [← Nat.pow_add]
            congr 1
            omega
    have full : 2 ^ 52 ≤ bits * 2 ^ (52 - bits.log2) := by
      calc 2 ^ 52 = 2 ^ bits.log2 * 2 ^ (52 - bits.log2) := by
            rw [← Nat.pow_add]
            congr 1
            omega
        _ ≤ bits * 2 ^ (52 - bits.log2) := Nat.mul_le_mul_right _ least
    refine ⟨rest * 2 ^ 52 + bits * 2 ^ (52 - bits.log2), ?_⟩
    rw [units_of_parts within (.inl full) rfl, Nat.pow_add, Nat.mul_assoc]

/-- A common factor does not change what is nearest to a quotient. -/
theorem nearestRank_mul_right
    {factor : Nat}
    (positive : 0 < factor)
    (numerator denominator : Nat) :
    nearestRank (numerator * factor) (denominator * factor) =
      nearestRank numerator denominator := by
  have spacing (scale : Nat) :
      (denominator * factor) <<< scale = denominator <<< scale * factor := by
    rw [Nat.shiftLeft_eq, Nat.shiftLeft_eq, Nat.mul_right_comm]
  have rounds (twice spaced below : Nat) :
      (spaced * factor < 2 * (twice * factor) ∨
          2 * (twice * factor) = spaced * factor ∧ below % 2 = 1) ↔
        (spaced < 2 * twice ∨ 2 * twice = spaced ∧ below % 2 = 1) := by
    rw [← Nat.mul_assoc, Nat.mul_lt_mul_right positive,
      Nat.mul_left_inj (Nat.ne_of_gt positive)]
  simp only [nearestRank, Nat.mul_div_mul_right _ _ positive, spacing,
    Nat.mul_mod_mul_right, rounds]

end Magnitude

namespace Decimal

open Magnitude

/-- With a small power of ten a decimal is rounded from its exact magnitude. -/
theorem nearestRank_ofNat
    {power : Nat}
    (small : power ≤ 400)
    (digits : Nat) :
    nearestRank ⟨digits, .ofNat power⟩ =
      Magnitude.nearestRank (digits * 10 ^ power * unitsPerOne) 1 := by
  simp only [nearestRank]
  by_cases zero : digits = 0
  · rw [if_pos zero, zero, Nat.zero_mul, Nat.zero_mul]
    rfl
  · rw [if_neg zero, if_neg (Nat.not_lt.2 small)]
    rfl

theorem nearestRank_negSucc
    {power : Nat}
    (small : power < 300)
    (digits : Nat) :
    nearestRank ⟨digits, .negSucc power⟩ =
      Magnitude.nearestRank (digits * unitsPerOne) (10 ^ (power + 1)) := by
  simp only [nearestRank]
  rw [if_neg (by omega)]
  rfl

/-- A decimal with few digits and a small power of ten fits. -/
theorem fits_of_few
    {digits power : Nat}
    (short : digits < 2 ^ 53)
    (small : power ≤ 22) :
    Fits ⟨digits, .ofNat power⟩ := by
  rw [fits_ofNat]
  calc digits * 10 ^ power < 2 ^ 53 * 10 ^ power :=
        Nat.mul_lt_mul_of_pos_right short (Nat.pow_pos (by omega))
    _ ≤ 2 ^ 53 * 10 ^ 22 :=
        Nat.mul_le_mul_left _ (Nat.pow_le_pow_right (by omega) small)
    _ ≤ overflow := by decide +kernel

/-- A decimal whose digits times its fives are few is held exactly. -/
theorem exists_finite
    {digits power : Nat}
    (short : digits * 5 ^ power < 2 ^ 53)
    (small : power ≤ 22) :
    ∃ rank : Fin finiteRanks,
      Binary64.ofDecimal false ⟨digits, .ofNat power⟩ = .finite false rank ∧
        units rank = digits * 10 ^ power * unitsPerOne := by
  -- The power is left open so that no step works it out.
  obtain ⟨ones, unit⟩ : ∃ ones, unitsPerOne = 1 <<< ones := ⟨1074, rfl⟩
  rw [Nat.one_shiftLeft] at unit
  have tens : digits * 10 ^ power = digits * 5 ^ power * 2 ^ power := by
    rw [Nat.mul_assoc, ← Nat.mul_pow]
  obtain ⟨rank, held⟩ := exists_rank short (power + ones)
  rw [Nat.pow_add, ← Nat.mul_assoc, ← tens, ← unit] at held
  have nearest : nearestRank ⟨digits, .ofNat power⟩ = rank := by
    have rounded := nearestRank_units_mul rank Nat.one_pos
    rw [Nat.mul_one, held] at rounded
    rw [nearestRank_ofNat (by omega), rounded]
  have few : digits ≤ digits * 5 ^ power :=
    Nat.le_mul_of_pos_right _ (Nat.pow_pos (by omega))
  have fits : rank < finiteRanks := by
    rw [← nearest, nearestRank_lt_finiteRanks_iff]
    exact fits_of_few (Nat.lt_of_le_of_lt few short) small
  refine ⟨⟨rank, fits⟩, ?_, held⟩
  rw [Binary64.ofDecimal, nearest, Binary64.ofRank, dif_pos fits]

/-- A power of ten up to `10 ^ 22` is held exactly. -/
theorem exists_finite_tens
    {power : Nat}
    (small : power ≤ 22) :
    ∃ rank : Fin finiteRanks,
      Binary64.ofDecimal false ⟨1, .ofNat power⟩ = .finite false rank ∧
        units rank = 10 ^ power * unitsPerOne := by
  have short : 1 * 5 ^ power < 2 ^ 53 := by
    calc 1 * 5 ^ power = 5 ^ power := Nat.one_mul _
      _ ≤ 5 ^ 22 := Nat.pow_le_pow_right (by omega) small
      _ < 2 ^ 53 := by decide
  obtain ⟨rank, held, magnitude⟩ := exists_finite short small
  exact ⟨rank, held, by rw [magnitude, Nat.one_mul]⟩

end Decimal

namespace Binary64

open Magnitude

theorem ofNat_eq_ofDecimal (n : Nat) :
    ofNat n = ofDecimal false ⟨n, .ofNat 0⟩ := by
  rw [ofNat, ofDecimal, Decimal.nearestRank_ofNat (by omega), Nat.pow_zero,
    Nat.mul_one]

/-- A whole number below `2 ^ 53` is held exactly. -/
theorem exists_ofNat_eq
    {n : Nat}
    (short : n < 2 ^ 53) :
    ∃ rank : Fin finiteRanks,
      ofNat n = .finite false rank ∧ units rank = n * unitsPerOne := by
  have few : n * 5 ^ 0 < 2 ^ 53 := by
    rw [Nat.pow_zero, Nat.mul_one]
    exact short
  obtain ⟨rank, held, magnitude⟩ := Decimal.exists_finite few (Nat.zero_le 22)
  rw [Nat.pow_zero, Nat.mul_one] at magnitude
  exact ⟨rank, (ofNat_eq_ofDecimal n).trans held, magnitude⟩

/-- Few digits times a small power of ten are rounded once. -/
theorem times_tens
    {digits power : Nat}
    (short : digits < 2 ^ 53)
    (small : power ≤ 22) :
    (ofNat digits).times (ofDecimal false ⟨1, .ofNat power⟩) =
      ofDecimal false ⟨digits, .ofNat power⟩ := by
  obtain ⟨_, positive, _⟩ := Decimal.overflow_bounds
  obtain ⟨rank, held, magnitude⟩ := exists_ofNat_eq short
  obtain ⟨tens, heldTens, magnitudeTens⟩ := Decimal.exists_finite_tens small
  have product :
      digits * unitsPerOne * (10 ^ power * unitsPerOne) =
        digits * 10 ^ power * unitsPerOne * unitsPerOne := by
    rw [Nat.mul_mul_mul_comm, ← Nat.mul_assoc]
  have rounded :=
    nearestRank_mul_right positive (digits * 10 ^ power * unitsPerOne) 1
  rw [Nat.one_mul] at rounded
  rw [held, heldTens, times, magnitude, magnitudeTens, product, rounded,
    ofDecimal, Decimal.nearestRank_ofNat (by omega)]
  rfl

/-- Few digits divided by a small power of ten are rounded once. -/
theorem dividedBy_tens
    {digits power : Nat}
    (short : digits < 2 ^ 53)
    (small : power < 22) :
    (ofNat digits).dividedBy (ofDecimal false ⟨1, .ofNat (power + 1)⟩) =
      ofDecimal false ⟨digits, .negSucc power⟩ := by
  obtain ⟨_, positive, _⟩ := Decimal.overflow_bounds
  obtain ⟨rank, held, magnitude⟩ := exists_ofNat_eq short
  obtain ⟨tens, heldTens, magnitudeTens⟩ :=
    @Decimal.exists_finite_tens (power + 1) (by omega)
  have nonzero : tens.val ≠ 0 := by
    intro zero
    rw [zero] at magnitudeTens
    have some := Nat.mul_pos (@Nat.pow_pos 10 (power + 1) (by omega)) positive
    rw [← magnitudeTens] at some
    exact absurd some (by decide)
  rw [held, heldTens, dividedBy, if_neg nonzero, magnitude, magnitudeTens,
    nearestRank_mul_right positive, ofDecimal,
    Decimal.nearestRank_negSucc (by omega)]
  rfl

theorem negate_ofDecimal
    (decimal : Decimal) :
    (ofDecimal false decimal).negate = ofDecimal true decimal := by
  rw [ofDecimal, ofDecimal, ofRank, ofRank]
  split <;> rfl

end Binary64

end VerbChain
