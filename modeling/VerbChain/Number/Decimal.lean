import VerbChain.Number.Binary64

namespace VerbChain

/-!
# Decimal numerals

A decimal is a whole number of digits scaled by a power of ten.  Reading one as
a binary number takes its exact quotient and rounds once, so equal decimals
read as equal numbers however they are written.
-/

/-- The number `digits * 10 ^ exponent`. -/
structure Decimal where
  digits : Nat
  exponent : Int
  deriving Repr, DecidableEq

/-- Whether a character is one of the ten ASCII digits. -/
def isDigit (c : Char) : Bool :=
  '0' ≤ c && c ≤ '9'

/-- Take an optional sign off the front; the flag tells whether it is minus. -/
def splitSign : List Char → Bool × List Char
  | '-' :: rest => (true, rest)
  | '+' :: rest => (false, rest)
  | text => (false, text)

/-- What follows a sign is no longer than the text. -/
theorem splitSign_length_le (text : List Char) :
    (splitSign text).2.length ≤ text.length := by
  unfold splitSign
  split <;> simp

namespace Decimal

open Magnitude

/-- The decimal written as whole digits, a point and further digits. -/
def ofParts (whole fraction : List Char) : Decimal where
  digits := Nat.ofDigitChars 10 (whole ++ fraction) 0
  exponent := -(fraction.length : Int)

/--
The rank of the magnitude nearest to a decimal.  A power above `10 ^ 400` is
beyond every finite magnitude, and a quotient below `2 ^ -1099` is nearest to
zero, so neither needs its power of ten to be worked out.
-/
def nearestRank (decimal : Decimal) : Nat :=
  match decimal.exponent with
  | .ofNat power =>
      if decimal.digits = 0 then 0
      else if 400 < power then finiteRanks
      else Magnitude.nearestRank (decimal.digits * Nat.pow 10 power * unitsPerOne) 1
  | .negSucc power =>
      if decimal.digits.log2 + 1100 < 3 * (power + 1) then 0
      else
        Magnitude.nearestRank (decimal.digits * unitsPerOne)
          (Nat.pow 10 (power + 1))

/-- The same number with no factor of ten left in its digits. -/
def trimmed (decimal : Decimal) : Decimal :=
  if _trailing : decimal.digits ≠ 0 ∧ decimal.digits % 10 = 0 then
    trimmed ⟨decimal.digits / 10, decimal.exponent + 1⟩
  else decimal
  termination_by decimal.digits

/-- Exactly `width` digits of a number, the lowest ones, zeros in front. -/
def lowDigits : Nat → Nat → List Char
  | 0, _ => []
  | width + 1, n => lowDigits width (n / 10) ++ [(n % 10).digitChar]

/-- Positional digits, with a point only in front of a fraction. -/
def plain (decimal : Decimal) : List Char :=
  match decimal.exponent with
  | .ofNat power => Nat.toDigits 10 (decimal.digits * Nat.pow 10 power)
  | .negSucc power =>
      let scale := Nat.pow 10 (power + 1)
      Nat.toDigits 10 (decimal.digits / scale) ++
        '.' :: lowDigits (power + 1) (decimal.digits % scale)

/-- The power of ten of the leading digit. -/
def leadingPower (decimal : Decimal) : Int :=
  ((Nat.toDigits 10 decimal.digits).length : Int) - 1 + decimal.exponent

end Decimal

/-- The number nearest to a decimal with a sign. -/
def Binary64.ofDecimal (negative : Bool) (decimal : Decimal) : Binary64 :=
  .ofRank negative decimal.nearestRank

end VerbChain
