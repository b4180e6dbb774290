import Mathlib.Algebra.Order.Field.Rat
import Mathlib.Data.Nat.Cast.Field
import Mathlib.Tactic.Linarith
import VerbChain.Action
import VerbChain.Proofs.Json.Losses
import VerbChain.Proofs.Number.Overflow
import VerbChain.Proofs.Number.Payload

namespace VerbChain

/-!
# Numbers are told apart by their payloads

A finite number is a rational number.  Its payload is a whole number exactly
where the rational number is one that is small and the sign of a zero is not
lost, and what is read from a payload is the number that was put there.  So two
finite numbers have equal payloads only if they are one number.
-/

namespace Binary64

open Magnitude

/-- The rational number that a finite number is. -/
def rational? : Binary64 → Option ℚ
  | .finite negative rank =>
      let magnitude : ℚ := (units rank : ℚ) / (unitsPerOne : ℚ)
      some (if negative then -magnitude else magnitude)
  | _ => none

theorem unitsPerOne_ne_zero : (unitsPerOne : ℚ) ≠ 0 := by
  obtain ⟨_, positive, _⟩ := Decimal.overflow_bounds
  exact Nat.cast_ne_zero.2 (Nat.ne_of_gt positive)

/-- Units that make up a whole number are a multiple of those of one. -/
private theorem dvd_of_div_eq
    {count : Nat}
    {whole : Int}
    (exact : (count : ℚ) / (unitsPerOne : ℚ) = whole) :
    unitsPerOne ∣ count := by
  rw [div_eq_iff unitsPerOne_ne_zero] at exact
  have counted : (count : Int) = whole * unitsPerOne := by
    exact_mod_cast exact
  exact Int.natCast_dvd_natCast.1 ⟨whole, counted.trans (Int.mul_comm _ _)⟩

/-- The integer that a number is equal to is the rational number that it is. -/
theorem toInt?_eq_some_iff
    {number : Binary64}
    {whole : Int} :
    number.toInt? = some whole ↔ number.rational? = some (whole : ℚ) := by
  cases number with
  | infinite negative => simp [toInt?, rational?]
  | nan => simp [toInt?, rational?]
  | finite negative rank =>
      simp only [toInt?, rational?]
      split
      · next exact =>
          have quotient :
              (units rank : ℚ) / (unitsPerOne : ℚ) =
                ((units rank / unitsPerOne : Nat) : Int) := by
            rw [Int.cast_natCast,
              Nat.cast_div (Nat.dvd_of_mod_eq_zero exact) unitsPerOne_ne_zero]
          rw [quotient, Option.some.injEq, Option.some.injEq]
          cases negative with
          | false => exact Int.cast_inj.symm
          | true =>
              rw [if_pos rfl, if_pos rfl, ← Int.cast_neg]
              exact Int.cast_inj.symm
      · next broken =>
          constructor
          · intro none
            cases none
          · intro same
            refine absurd (Nat.mod_eq_zero_of_dvd ?_) broken
            have value := Option.some.inj same
            cases negative with
            | false => exact dvd_of_div_eq value
            | true =>
                have opposite := neg_eq_iff_eq_neg.1 value
                rw [← Int.cast_neg] at opposite
                exact dvd_of_div_eq opposite

private theorem units_div_nonneg (rank : Fin finiteRanks) :
    (0 : ℚ) ≤ (units rank : ℚ) / (unitsPerOne : ℚ) :=
  div_nonneg (Nat.cast_nonneg _) (Nat.cast_nonneg _)

/-- A magnitude that is zero has the first rank. -/
private theorem eq_zero_of_units_div
    {rank : Fin finiteRanks}
    (nothing : (units rank : ℚ) / (unitsPerOne : ℚ) = 0) :
    rank.val = 0 := by
  rcases div_eq_zero_iff.1 nothing with none | one
  · by_contra some
    have positive := Shortest.units_pos (Nat.pos_of_ne_zero some)
    exact absurd (Nat.cast_eq_zero.1 none) (Nat.ne_of_gt positive)
  · exact absurd one unitsPerOne_ne_zero

/-- Equal magnitudes have one rank. -/
private theorem eq_of_units_div
    {rank other : Fin finiteRanks}
    (same :
      (units rank : ℚ) / (unitsPerOne : ℚ) =
        (units other : ℚ) / (unitsPerOne : ℚ)) :
    rank = other := by
  have counted : units rank = units other :=
    Nat.cast_inj.1 ((div_left_inj' unitsPerOne_ne_zero).1 same)
  have rounded := nearestRank_units_mul rank Nat.one_pos
  rw [counted, nearestRank_units_mul other Nat.one_pos] at rounded
  exact Fin.ext rounded.symm

/-- Magnitudes of opposite signs are equal only as zeros. -/
theorem zeros_of_opposite
    {rank other : Fin finiteRanks}
    (same :
      -((units rank : ℚ) / (unitsPerOne : ℚ)) =
        (units other : ℚ) / (unitsPerOne : ℚ)) :
    rank.val = 0 ∧ other.val = 0 := by
  have left := units_div_nonneg rank
  have right := units_div_nonneg other
  exact ⟨eq_zero_of_units_div (by linarith), eq_zero_of_units_div (by linarith)⟩

/-- Finite numbers are one if their rational number and the sign of a zero are. -/
theorem eq_of_rational?
    {number other : Binary64}
    (finite : number.isFinite = true)
    (same : number.rational? = other.rational?)
    (signed : number.isNegativeZero = other.isNegativeZero) :
    number = other := by
  cases number with
  | infinite negative => cases finite
  | nan => cases finite
  | finite negative rank =>
      cases other with
      | infinite otherNegative => cases same
      | nan => cases same
      | finite otherNegative otherRank =>
          have value := Option.some.inj same
          cases negative <;> cases otherNegative
          · rw [eq_of_units_div value]
          · obtain ⟨zero, zeroToo⟩ := zeros_of_opposite value.symm
            simp [isNegativeZero, zero] at signed
          · obtain ⟨zero, zeroToo⟩ := zeros_of_opposite value
            simp [isNegativeZero, zero] at signed
          · rw [eq_of_units_div (neg_inj.1 value)]

/-- A payload is a whole number where the number is one that is small. -/
theorem toPayload_eq_integer_iff
    {number : Binary64}
    {whole : Int} :
    number.toPayload = .integer whole ↔
      number.rational? = some (whole : ℚ) ∧ |whole| ≤ 2 ^ 53 - 1 ∧
        number.isNegativeZero = false := by
  have fraction (other : Binary64) : Json.ofBinary other ≠ .integer whole := by
    cases other <;> simp [Json.ofBinary]
  rw [← toInt?_eq_some_iff]
  have small (n : Int) : n.natAbs ≤ greatestExact ↔ |n| ≤ 2 ^ 53 - 1 := by
    rw [show greatestExact = 2 ^ 53 - 1 from rfl, Int.abs_eq_natAbs]
    omega
  unfold toPayload
  cases number.toInt? with
  | none => simp [fraction]
  | some n =>
      simp only [Option.some.injEq]
      split
      · next kept =>
          rw [Json.integer.injEq]
          constructor
          · rintro rfl
            exact ⟨rfl, (small _).1 kept.1, kept.2⟩
          · exact And.left
      · next lost =>
          simp only [fraction, false_iff]
          rintro ⟨rfl, few, signed⟩
          exact lost ⟨(small _).2 few, signed⟩

/-- A payload with a fraction is the number itself, and no positive zero. -/
theorem eq_of_toPayload_eq_float
    {number : Binary64}
    {negative : Bool}
    {rank : Fin finiteRanks}
    (fraction : number.toPayload = .float negative rank) :
    number = .finite negative rank ∧ (rank.val = 0 → negative = true) := by
  have held : number = .finite negative rank := by
    have kept : Json.ofBinary number = .float negative rank := by
      rw [toPayload] at fraction
      split at fraction
      · split at fraction
        · cases fraction
        · exact fraction
      · exact fraction
    cases number with
    | infinite sign => cases kept
    | nan => cases kept
    | finite sign other =>
        cases kept
        rfl
  refine ⟨held, ?_⟩
  intro zero
  obtain ⟨value, inside⟩ := rank
  subst zero
  cases negative with
  | true => rfl
  | false =>
      have nothing :
          (finite false ⟨0, inside⟩).rational? = some ((0 : Int) : ℚ) := by
        simp [rational?, show units 0 = 0 from rfl]
      have whole := toPayload_eq_integer_iff.2 ⟨nothing, by decide, rfl⟩
      rw [← held, fraction] at whole
      cases whole

/-- A finite number has a number in its payload. -/
theorem toPayload_cases
    {number : Binary64}
    (finite : number.isFinite = true) :
    (∃ whole, number.toPayload = .integer whole) ∨
      ∃ negative rank, number.toPayload = .float negative rank := by
  have read := number?_toPayload finite
  cases shape : number.toPayload with
  | integer whole => exact .inl ⟨whole, rfl⟩
  | float negative rank => exact .inr ⟨negative, rank, rfl⟩
  | null | bool value | string content | array items | object fields =>
      rw [shape] at read
      cases read

/-- Finite numbers that have equal payloads are one number. -/
theorem toPayload_agrees_iff
    {number other : Binary64}
    (finite : number.isFinite = true)
    (finiteToo : other.isFinite = true) :
    number.toPayload.agrees other.toPayload = true ↔ number = other := by
  constructor
  · intro agree
    rcases toPayload_cases finite with ⟨whole, shape⟩ | ⟨sign, rank, shape⟩ <;>
      rcases toPayload_cases finiteToo with
        ⟨wholeToo, shapeToo⟩ | ⟨signToo, rankToo, shapeToo⟩ <;>
      rw [shape, shapeToo] at agree
    · have same : number.toPayload = other.toPayload := by
        rw [shape, shapeToo, eq_of_beq agree]
      have read := number?_toPayload finite
      rw [same, number?_toPayload finiteToo] at read
      exact (Option.some.inj read).symm
    · cases agree
    · cases agree
    · obtain ⟨rfl, positive⟩ := eq_of_toPayload_eq_float shape
      obtain ⟨rfl, positiveToo⟩ := eq_of_toPayload_eq_float shapeToo
      rcases eq_or_zero_of_equals agree with ⟨rfl, rfl⟩ | ⟨zero, zeroToo⟩
      · rfl
      · rw [positive zero, positiveToo zeroToo,
          Fin.ext (zero.trans zeroToo.symm)]
  · rintro rfl
    exact Json.agrees_self _

/-- How a number stands in a payload, and what it is told by. -/
structure IsTold (number : Binary64) (payload : Json) : Prop where
  /-- A finite number is read as itself, the sign of a zero included. -/
  reads :
    number.isFinite = true →
      ∀ (action : Action) key,
        (action.put key payload).number? key = some number
  /-- It stands there as a whole number if it is one that is small, but `-0`. -/
  whole :
    ∀ whole : Int,
      payload = .integer whole ↔
        number.rational? = some (whole : ℚ) ∧ |whole| ≤ 2 ^ 53 - 1 ∧
          number.isNegativeZero = false
  /-- What is not finite stands there as nothing. -/
  nothing : number.isFinite = false → payload = .null
  /-- Finite numbers with equal payloads are equal, and so are zeros' signs. -/
  apart :
    number.isFinite = true →
      ∀ other : Binary64, other.isFinite = true →
        (payload.agrees (Value.number other).toPayload = true ↔
          number.rational? = other.rational? ∧
            number.isNegativeZero = other.isNegativeZero)

end Binary64

/-- Every number is told by its payload. -/
theorem Value.payload_tells_number (number : Binary64) :
    number.IsTold (Value.number number).toPayload where
  reads := by
    intro finite action key
    have under :
        (action.put key number.toPayload).get? key = some number.toPayload := by
      rw [Action.get?, Action.put, Table.find?_insert, if_pos rfl]
    show ((action.put key number.toPayload).get? key).bind Json.number? = _
    rw [under]
    exact Binary64.number?_toPayload finite
  whole := fun _ => Binary64.toPayload_eq_integer_iff
  nothing := Binary64.toPayload_of_not_finite
  apart := by
    intro finite other finiteToo
    refine (Binary64.toPayload_agrees_iff finite finiteToo).trans ?_
    constructor
    · rintro rfl
      exact ⟨rfl, rfl⟩
    · rintro ⟨same, signed⟩
      exact Binary64.eq_of_rational? finite same signed

end VerbChain
