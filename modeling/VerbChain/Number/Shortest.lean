import VerbChain.Number.Decimal

namespace VerbChain

/-!
# The shortest decimal of a number

The shortest decimal of a magnitude has the fewest digits among those that read
back as that magnitude, and of those it is the nearest.  For each digit count
only the two grid points around the exact value can be it: when any point of
the grid reads back, so does one of these two.
-/

/-- Which of two equally near decimals is taken. -/
inductive TieRule where
  | upward
  | toEven
  deriving Repr, DecidableEq

namespace Shortest

open Magnitude

/-- The power of ten of the leading digit of a positive quotient. -/
def leadingPower (numerator denominator : Nat) : Int :=
  if denominator ≤ numerator then
    ((Nat.toDigits 10 (numerator / denominator)).length : Int) - 1
  else
    -((Nat.toDigits 10 ((denominator - 1) / numerator)).length : Int)

/--
The multiples of `10 ^ power` just below and just above a quotient, the nearer
one first.
-/
def neighbours (tie : TieRule) (numerator denominator : Nat) (power : Int) :
    List Decimal :=
  let (dividend, divisor) :=
    match power with
    | .ofNat up => (numerator, denominator * Nat.pow 10 up)
    | .negSucc down => (numerator * Nat.pow 10 (down + 1), denominator)
  let low := dividend / divisor
  let twice := 2 * (dividend % divisor)
  let lowFirst :=
    twice < divisor || (twice == divisor && tie == .toEven && low % 2 == 0)
  if lowFirst then [⟨low, power⟩, ⟨low + 1, power⟩]
  else [⟨low + 1, power⟩, ⟨low, power⟩]

/-- The decimal that is exactly the magnitude of a rank. -/
def exact (rank : Nat) : Decimal :=
  ⟨units rank * Nat.pow 5 1074, -1074⟩

/-- The nearest decimal with at most `more + 1` digits that reads back. -/
def withDigits? (tie : TieRule) (rank more : Nat) : Option Decimal :=
  let power := leadingPower (units rank) unitsPerOne - more
  ((neighbours tie (units rank) unitsPerOne power).map Decimal.trimmed).find?
    (fun decimal => decimal.nearestRank == rank)

/-- The shortest decimal that reads back as the magnitude of a rank. -/
def ofRank (tie : TieRule) (rank : Nat) : Decimal :=
  if rank = 0 then ⟨0, 0⟩
  else ((List.range 17).findSome? (withDigits? tie rank)).getD (exact rank)

end Shortest

end VerbChain
