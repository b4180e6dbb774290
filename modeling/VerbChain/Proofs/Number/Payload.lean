import VerbChain.Chain.Payload
import VerbChain.Proofs.Number.ReadBack

namespace VerbChain

/-!
# Numbers in a payload

A finite number stands in a payload as a JSON number that is read as the same
number: the whole number it is equal to, if that is small and keeps the sign, or
the number itself.  A number that is not finite stands there as nothing.
-/

namespace Binary64

open Magnitude

/-- The whole number that a number is equal to is rounded to that number. -/
theorem ofInt_of_toInt?
    {number : Binary64}
    {value : Int}
    (whole : number.toInt? = some value)
    (signed : number.isNegativeZero = false) :
    ofInt value = number := by
  cases number with
  | infinite negative => cases whole
  | nan => cases whole
  | finite negative rank =>
      rw [toInt?] at whole
      split at whole
      · next exact =>
          have size : units rank / unitsPerOne * unitsPerOne = units rank * 1 := by
            rw [Nat.div_mul_cancel (Nat.dvd_of_mod_eq_zero exact), Nat.mul_one]
          have nearest :
              nearestRank (units rank / unitsPerOne * unitsPerOne) 1 = rank := by
            rw [size]
            exact nearestRank_units_mul rank Nat.one_pos
          have placed (sign : Bool) : ofRank sign rank = finite sign rank :=
            dif_pos rank.isLt
          cases negative with
          | false =>
              cases whole
              show ofNat _ = _
              rw [ofNat, nearest, placed]
          | true =>
              have some : 0 < rank.val := by
                have nonzero : (rank.val == 0) = false := signed
                simp at nonzero
                omega
              -- A magnitude that is not zero has a whole part of one at least.
              have units : units rank / unitsPerOne ≠ 0 := by
                intro zero
                rw [zero, Nat.zero_mul, Nat.mul_one] at size
                exact absurd size (Nat.ne_of_lt (Shortest.units_pos some))
              obtain ⟨below, shape⟩ := Nat.exists_eq_succ_of_ne_zero units
              rw [shape] at nearest whole
              cases whole
              show ofRank true (nearestRank ((below + 1) * unitsPerOne) 1) = _
              rw [nearest, placed]
      · cases whole

/-- A finite number is read from its payload as itself. -/
theorem number?_toPayload
    {number : Binary64}
    (finite : number.isFinite = true) :
    number.toPayload.number? = some number := by
  cases number with
  | infinite negative => cases finite
  | nan => cases finite
  | finite negative rank =>
      rw [toPayload]
      split
      · next value whole =>
          split
          · next small =>
              exact congrArg some (ofInt_of_toInt? whole small.2)
          · rfl
      · rfl

/-- What is not finite has nothing in its payload. -/
theorem toPayload_of_not_finite
    {number : Binary64}
    (infinite : number.isFinite = false) :
    number.toPayload = .null := by
  cases number with
  | finite negative rank => cases infinite
  | infinite negative => rfl
  | nan => rfl

/-- A decimal is read as a number, finite or not. -/
theorem ofDecimal_ne_nan (negative : Bool) (decimal : Decimal) :
    ofDecimal negative decimal ≠ .nan := by
  rw [ofDecimal, ofRank]
  intro same
  split at same <;> cases same

theorem exists_place
    {number : Binary64}
    (known : number ≠ .nan) :
    ∃ place, number.place? = some place := by
  cases number with
  | finite negative rank => cases negative <;> exact ⟨_, rfl⟩
  | infinite negative => cases negative <;> exact ⟨_, rfl⟩
  | nan => exact absurd rfl known

section Order

variable {left right : Binary64} (known : left ≠ .nan)
  (knownRight : right ≠ .nan)

include known knownRight

/-- Of two numbers one is at most the other, unless it is greater. -/
theorem atMost_of_not_less (notLess : left.less right = false) :
    right.atMost left = true := by
  obtain ⟨place, placed⟩ := exists_place known
  obtain ⟨other, placedOther⟩ := exists_place knownRight
  simp only [less, placed, placedOther, decide_eq_false_iff_not] at notLess
  simp only [atMost, placed, placedOther, decide_eq_true_eq]
  omega

theorem less_of_not_atMost (notAtMost : left.atMost right = false) :
    right.less left = true := by
  obtain ⟨place, placed⟩ := exists_place known
  obtain ⟨other, placedOther⟩ := exists_place knownRight
  simp only [atMost, placed, placedOther, decide_eq_false_iff_not] at notAtMost
  simp only [less, placed, placedOther, decide_eq_true_eq]
  omega

end Order

end Binary64

end VerbChain
