import VerbChain.Number.Layout

namespace VerbChain

/-!
# Reading written numbers back

A finite number in program text is written with digits that read back as the
same number.  Three facts make this up.  The magnitude of a rank rounds to that
rank, so the exact decimal of a number reads back and so does the shortest one.
Digits written positionally are read as the decimal they were written from.
And a decimal has the same nearest rank whether its power of ten stands in the
exponent or is written out in zeros.
-/

namespace Magnitude

/-- A rank is its significand after the spacings below its own. -/
theorem significand_add_doublings (rank : Nat) :
    (doublings rank <<< 52) + significand rank = rank := by
  unfold significand doublings
  simp only [Nat.shiftLeft_eq]
  omega

theorem significand_lt (rank : Nat) :
    significand rank < 1 <<< 53 := by
  unfold significand doublings
  simp only [Nat.shiftLeft_eq]
  omega

/-- Once the spacing is doubled, a significand takes 53 bits exactly. -/
theorem le_significand
    {rank : Nat}
    (doubled : 0 < doublings rank) :
    1 <<< 52 ≤ significand rank := by
  unfold significand doublings at *
  simp only [Nat.shiftLeft_eq] at *
  omega

/-- Once the spacing is doubled, a magnitude takes 53 bits and the doublings. -/
theorem log2_units
    {rank : Nat}
    (doubled : 0 < doublings rank) :
    (units rank).log2 = 52 + doublings rank := by
  have lower := le_significand doubled
  have upper := significand_lt rank
  rw [Nat.shiftLeft_eq] at lower upper
  have power := Nat.two_pow_pos (doublings rank)
  have positive : units rank ≠ 0 := by
    rw [units, Nat.shiftLeft_eq]
    exact Nat.ne_of_gt (Nat.mul_pos (by omega) power)
  rw [Nat.log2_eq_iff positive, units, Nat.shiftLeft_eq, Nat.pow_add,
    show 52 + doublings rank + 1 = 53 + doublings rank by omega, Nat.pow_add]
  constructor
  · exact Nat.mul_le_mul_right _ (by omega)
  · exact Nat.mul_lt_mul_of_pos_right (by omega) power

/-- The scale of a magnitude is the number of doublings at its rank. -/
theorem log2_units_sub (rank : Nat) :
    (units rank).log2 - 52 = doublings rank := by
  rcases Nat.eq_zero_or_pos (doublings rank) with undoubled | doubled
  · have upper := significand_lt rank
    rw [Nat.shiftLeft_eq] at upper
    have small : (units rank).log2 < 53 := by
      rw [units, undoubled, Nat.shiftLeft_zero]
      by_cases zero : significand rank = 0
      · rw [zero, Nat.log2_zero]
        omega
      · rw [Nat.log2_lt zero]
        omega
    omega
  · rw [log2_units doubled]
    omega

/-- A magnitude that a rank has is rounded to that rank. -/
theorem nearestRank_units_mul
    (rank : Nat)
    {denominator : Nat}
    (positive : 0 < denominator) :
    nearestRank (units rank * denominator) denominator = rank := by
  have quotient : units rank * denominator / denominator = units rank :=
    Nat.mul_div_cancel _ positive
  have dividend :
      units rank * denominator =
        significand rank * (denominator <<< doublings rank) := by
    rw [units, Nat.shiftLeft_eq, Nat.shiftLeft_eq, Nat.mul_assoc,
      Nat.mul_comm (2 ^ _)]
  have spacingPositive : 0 < denominator <<< doublings rank := by
    rw [Nat.shiftLeft_eq]
    exact Nat.mul_pos positive (Nat.two_pow_pos _)
  unfold nearestRank
  simp only [quotient, log2_units_sub]
  rw [dividend, Nat.mul_div_cancel _ spacingPositive, Nat.mul_mod_left,
    if_neg (by omega)]
  exact significand_add_doublings rank

end Magnitude

namespace Shortest

open Magnitude

theorem units_pos
    {rank : Nat}
    (positive : 0 < rank) :
    0 < units rank := by
  rw [units, Nat.shiftLeft_eq]
  refine Nat.mul_pos ?_ (Nat.two_pow_pos _)
  have split := significand_add_doublings rank
  rcases Nat.eq_zero_or_pos (doublings rank) with undoubled | doubled
  · rw [undoubled, Nat.zero_shiftLeft] at split
    omega
  · have lower := le_significand doubled
    rw [Nat.shiftLeft_eq] at lower
    omega

/-- Every factor of five adds two bits at least. -/
private theorem two_mul_le_log2
    {n digits : Nat}
    (fives : Nat)
    (positive : 0 < n)
    (shape : digits = n * Nat.pow 5 fives) :
    2 * fives ≤ digits.log2 := by
  subst shape
  have power : 0 < Nat.pow 5 fives := Nat.pow_pos (by omega)
  rw [Nat.le_log2 (Nat.ne_of_gt (Nat.mul_pos positive power))]
  calc 2 ^ (2 * fives) = (2 ^ 2) ^ fives := by rw [← Nat.pow_mul]
    _ ≤ Nat.pow 5 fives := Nat.pow_le_pow_left (by omega) _
    _ ≤ n * Nat.pow 5 fives := Nat.le_mul_of_pos_left _ positive

/-- A power of ten is that power of five, doubled as often. -/
private theorem pow_ten_eq (power : Nat) :
    Nat.pow 10 power = Nat.pow 5 power * (1 <<< power) := by
  rw [Nat.one_shiftLeft]
  exact Nat.mul_pow 5 2 power

/--
An exact decimal has one power for its fives, its exponent and its units.  The
power is left open so that no step works it out.
-/
theorem exists_power_exact (rank : Nat) :
    ∃ power,
      0 < power ∧ power ≤ 1100 ∧
        (exact rank).digits = units rank * Nat.pow 5 power ∧
        (exact rank).exponent = .negSucc (power - 1) ∧
        unitsPerOne = 1 <<< power :=
  ⟨1074, by omega, by omega, by simp only [exact], rfl, rfl⟩

/-- The exact decimal of a positive magnitude reads back. -/
theorem nearestRank_exact
    {rank : Nat}
    (positive : 0 < rank) :
    (exact rank).nearestRank = rank := by
  obtain ⟨power, some, few, digits, exponent, ones⟩ := exists_power_exact rank
  have visible := two_mul_le_log2 _ (units_pos positive) digits
  have dividend :
      (exact rank).digits * unitsPerOne = units rank * Nat.pow 10 power := by
    rw [digits, ones, pow_ten_eq, Nat.mul_assoc]
  unfold Decimal.nearestRank
  rw [exponent]
  simp only [Nat.sub_add_cancel some]
  rw [if_neg (by omega), dividend]
  exact nearestRank_units_mul rank (Nat.pow_pos (by omega))

/-- The shortest decimal of a finite magnitude reads back. -/
theorem nearestRank_ofRank
    (tie : TieRule)
    (rank : Nat) :
    (ofRank tie rank).nearestRank = rank := by
  unfold ofRank
  split
  · next zero => rw [zero]; rfl
  · next nonzero =>
      have positive : 0 < rank := Nat.pos_of_ne_zero nonzero
      cases found : (List.range 17).findSome? (withDigits? tie rank) with
      | none => exact nearestRank_exact positive
      | some decimal =>
          obtain ⟨more, _, chosen⟩ := List.exists_of_findSome?_eq_some found
          have readsBack : (decimal.nearestRank == rank) = true :=
            List.find?_some
              (p := fun decimal : Decimal => decimal.nearestRank == rank)
              chosen
          exact beq_iff_eq.1 readsBack

end Shortest

/-- The digits of numerals are the ASCII digits. -/
theorem isDigit_eq (c : Char) :
    isDigit c = c.isDigit := by
  simp only [isDigit, Char.isDigit, Char.le_def]

namespace Decimal

theorem isDigit_of_mem_toDigits
    {n : Nat}
    {c : Char}
    (member : c ∈ Nat.toDigits 10 n) :
    isDigit c = true := by
  rw [isDigit_eq]
  exact Nat.isDigit_of_mem_toDigits (by omega) (by omega) member

theorem isDigit_of_mem_lowDigits
    {width n : Nat}
    {c : Char}
    (member : c ∈ lowDigits width n) :
    isDigit c = true := by
  induction width generalizing n with
  | zero => simp [lowDigits] at member
  | succ width inductionHypothesis =>
      rw [lowDigits, List.mem_append, List.mem_singleton] at member
      rcases member with higher | last
      · exact inductionHypothesis higher
      · rw [last, isDigit_eq]
        simpa using Nat.mod_lt n (by omega)

private theorem length_lowDigits (width n : Nat) :
    (lowDigits width n).length = width := by
  induction width generalizing n with
  | zero => rfl
  | succ width inductionHypothesis =>
      rw [lowDigits, List.length_append, inductionHypothesis]
      rfl

/-- Digits of a fixed width read as the lowest digits of the number. -/
private theorem ofDigitChars_lowDigits (width n init : Nat) :
    Nat.ofDigitChars 10 (lowDigits width n) init =
      init * Nat.pow 10 width + n % Nat.pow 10 width := by
  induction width generalizing n with
  | zero =>
      show init = init * 1 + n % 1
      omega
  | succ width inductionHypothesis =>
      have power : Nat.pow 10 (width + 1) = 10 * Nat.pow 10 width :=
        Nat.pow_succ'
      have split :
          n % (10 * Nat.pow 10 width) =
            n % 10 + 10 * (n / 10 % Nat.pow 10 width) :=
        Nat.mod_mul
      rw [lowDigits, Nat.ofDigitChars_append, inductionHypothesis,
        Nat.ofDigitChars_cons_digitChar_of_lt_ten (Nat.mod_lt n (by omega)),
        Nat.ofDigitChars_nil, power, split, Nat.mul_left_comm]
      omega

/-- Writing a power of ten out in zeros does not change the nearest rank. -/
theorem nearestRank_mul_pow
    {digits power : Nat}
    (finite : nearestRank ⟨digits, .ofNat power⟩ < finiteRanks) :
    nearestRank ⟨digits * Nat.pow 10 power, 0⟩ =
      nearestRank ⟨digits, .ofNat power⟩ := by
  show (if digits * Nat.pow 10 power = 0 then 0
      else if 400 < 0 then finiteRanks
      else Magnitude.nearestRank
        (digits * Nat.pow 10 power * Nat.pow 10 0 *
          Magnitude.unitsPerOne) 1) = _
  have tens : 0 < Nat.pow 10 power := Nat.pow_pos (by omega)
  simp only [nearestRank] at finite ⊢
  by_cases zero : digits = 0
  · simp [zero]
  · have positive : digits * Nat.pow 10 power ≠ 0 :=
      Nat.mul_ne_zero zero (Nat.ne_of_gt tens)
    rw [if_neg zero] at finite
    rw [if_neg positive, if_neg zero, if_neg (by omega)]
    by_cases beyond : 400 < power
    · rw [if_pos beyond] at finite
      exact absurd finite (Nat.lt_irrefl _)
    · rw [if_neg beyond, show Nat.pow 10 0 = 1 from rfl, Nat.mul_one]

/-- Digits in front of a point and behind it are read as all the digits. -/
theorem ofParts_lowDigits (digits power : Nat) :
    ofParts (Nat.toDigits 10 (digits / Nat.pow 10 (power + 1)))
        (lowDigits (power + 1) (digits % Nat.pow 10 (power + 1))) =
      ⟨digits, .negSucc power⟩ := by
  simp only [ofParts, Nat.ofDigitChars_append, Nat.ofDigitChars_ten_toDigits,
    ofDigitChars_lowDigits, length_lowDigits, Nat.mod_mod, Nat.div_add_mod']
  rfl

/--
A decimal written positionally is digits with or without a fraction, and they
read as a decimal that has the same nearest rank.
-/
theorem exists_parts_plain
    {decimal : Decimal}
    (finite : decimal.nearestRank < finiteRanks) :
    ∃ whole fraction : List Char,
      decimal.plain =
          whole ++ ((if fraction = [] then [] else ['.']) ++ fraction) ∧
        whole ≠ [] ∧
        (∀ c ∈ whole, isDigit c = true) ∧
        (∀ c ∈ fraction, isDigit c = true) ∧
        (ofParts whole fraction).nearestRank = decimal.nearestRank := by
  obtain ⟨digits, exponent⟩ := decimal
  cases exponent with
  | ofNat power =>
      refine ⟨Nat.toDigits 10 (digits * Nat.pow 10 power), [], ?_,
        Nat.toDigits_ne_nil, fun _ => isDigit_of_mem_toDigits, by simp, ?_⟩
      · simp [plain]
      · rw [← nearestRank_mul_pow finite]
        simp [ofParts, Nat.ofDigitChars_ten_toDigits]
  | negSucc power =>
      refine ⟨Nat.toDigits 10 (digits / Nat.pow 10 (power + 1)),
        lowDigits (power + 1) (digits % Nat.pow 10 (power + 1)), ?_,
        Nat.toDigits_ne_nil, fun _ => isDigit_of_mem_toDigits,
        fun _ => isDigit_of_mem_lowDigits, ?_⟩
      · have some : lowDigits (power + 1)
            (digits % Nat.pow 10 (power + 1)) ≠ [] := by
          simp [lowDigits]
        simp only [plain, if_neg some, List.singleton_append]
      · rw [ofParts_lowDigits]

end Decimal

/--
A finite number in program text is an optional minus, digits and an optional
fraction, and they read back as the number.
-/
theorem Binary64.exists_parts_sourceText
    (negative : Bool)
    (rank : Fin finiteRanks) :
    ∃ whole fraction : List Char,
      (Binary64.finite negative rank).sourceText =
          (if negative then ['-'] else []) ++
            (whole ++ ((if fraction = [] then [] else ['.']) ++ fraction)) ∧
        whole ≠ [] ∧
        (∀ c ∈ whole, isDigit c = true) ∧
        (∀ c ∈ fraction, isDigit c = true) ∧
        ofDecimal negative (.ofParts whole fraction) =
          .finite negative rank := by
  have readsBack := Shortest.nearestRank_ofRank .upward rank
  have finite : (Shortest.ofRank .upward rank).nearestRank < finiteRanks := by
    rw [readsBack]
    exact rank.isLt
  obtain ⟨whole, fraction, written, some, digits, others, same⟩ :=
    Decimal.exists_parts_plain finite
  refine ⟨whole, fraction, ?_, some, digits, others, ?_⟩
  · rw [← written]
    cases negative <;>
      simp [sourceText, NumberLayout.finite, NumberLayout.magnitude,
        NumberLayout.source, NumberLayout.plain]
  · rw [ofDecimal, same, readsBack, ofRank, dif_pos rank.isLt]

end VerbChain
