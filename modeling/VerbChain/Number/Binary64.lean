namespace VerbChain

/-!
# Binary floating-point numbers

A number with a 53-bit significand is either finite, infinite or not a number.
A finite one is named by its sign and by its *rank*: its place, counted from
zero, among the nonnegative finite magnitudes in increasing order.  Every
finite magnitude is a whole multiple of the smallest positive one, so exact
arithmetic needs natural numbers only, and every operation is an exact
quotient followed by one rounding to the nearest rank.
-/

/-- How many nonnegative finite magnitudes there are. -/
def finiteRanks : Nat := 2047 <<< 52

/-- A binary floating-point number with a 53-bit significand. -/
inductive Binary64 where
  | finite (negative : Bool) (rank : Fin finiteRanks)
  | infinite (negative : Bool)
  | nan
  deriving Repr, DecidableEq

namespace Magnitude

/-- The smallest positive magnitudes that make up the number one. -/
def unitsPerOne : Nat := 1 <<< 1074

/-- How often the smallest spacing is doubled at a rank. -/
def doublings (rank : Nat) : Nat :=
  rank / (1 <<< 52) - 1

/-- The significand of a rank, below `2 ^ 53`. -/
def significand (rank : Nat) : Nat :=
  rank - (doublings rank <<< 52)

/-- The magnitude of a rank, counted in smallest positive magnitudes. -/
def units (rank : Nat) : Nat :=
  significand rank <<< doublings rank

/--
The rank whose magnitude is nearest to `numerator / denominator` units; a tie
goes to the even rank.  A quotient beyond the finite magnitudes gives a rank
that no finite number has.
-/
def nearestRank (numerator denominator : Nat) : Nat :=
  let scale := (numerator / denominator).log2 - 52
  let spacing := denominator <<< scale
  let below := (scale <<< 52) + numerator / spacing
  let twice := 2 * (numerator % spacing)
  if spacing < twice ∨ (twice = spacing ∧ below % 2 = 1) then below + 1
  else below

end Magnitude

namespace Binary64

open Magnitude

/-- The number of a sign and a rank, infinite when no finite number has it. -/
def ofRank (negative : Bool) (rank : Nat) : Binary64 :=
  if isFinite : rank < finiteRanks then .finite negative ⟨rank, isFinite⟩
  else .infinite negative

/-- The number nearest to a natural number. -/
def ofNat (n : Nat) : Binary64 :=
  ofRank false (nearestRank (n * unitsPerOne) 1)

/-- The number nearest to an integer; zero is positive. -/
def ofInt : Int → Binary64
  | .ofNat n => ofNat n
  | .negSucc n => ofRank true (nearestRank ((n + 1) * unitsPerOne) 1)

/-- The positive zero. -/
def zero : Binary64 := ofNat 0

/-- Whether a number is neither infinite nor not-a-number. -/
def isFinite : Binary64 → Bool
  | .finite _ _ => true
  | _ => false

/-- Whether a number is the zero that carries a minus sign. -/
def isNegativeZero : Binary64 → Bool
  | .finite true rank => rank.val == 0
  | _ => false

/-- The number with the opposite sign. -/
def negate : Binary64 → Binary64
  | .finite negative rank => .finite (!negative) rank
  | .infinite negative => .infinite (!negative)
  | .nan => .nan

/-- The place of a number on the number line, both zeros sharing place zero. -/
def place? : Binary64 → Option Int
  | .finite false rank => some rank.val
  | .finite true rank => some (-(rank.val : Int))
  | .infinite false => some finiteRanks
  | .infinite true => some (-(finiteRanks : Int))
  | .nan => none

/-- Numeric equality: the zeros are equal and nothing equals not-a-number. -/
def equals (x y : Binary64) : Bool :=
  match x.place?, y.place? with
  | some left, some right => left == right
  | _, _ => false

/-- Numeric strict order, false when either side is not-a-number. -/
def less (x y : Binary64) : Bool :=
  match x.place?, y.place? with
  | some left, some right => decide (left < right)
  | _, _ => false

/-- Numeric order, false when either side is not-a-number. -/
def atMost (x y : Binary64) : Bool :=
  match x.place?, y.place? with
  | some left, some right => decide (left ≤ right)
  | _, _ => false

/-- The product of two numbers, rounded once. -/
def times : Binary64 → Binary64 → Binary64
  | .finite left a, .finite right b =>
      ofRank (left != right) (nearestRank (units a * units b) unitsPerOne)
  | .finite left a, .infinite right =>
      if a.val = 0 then .nan else .infinite (left != right)
  | .infinite left, .finite right b =>
      if b.val = 0 then .nan else .infinite (left != right)
  | .infinite left, .infinite right => .infinite (left != right)
  | .nan, _ => .nan
  | _, .nan => .nan

/-- The quotient of two numbers, rounded once. -/
def dividedBy : Binary64 → Binary64 → Binary64
  | .finite left a, .finite right b =>
      if b.val = 0 then
        if a.val = 0 then .nan else .infinite (left != right)
      else
        ofRank (left != right)
          (nearestRank (units a * unitsPerOne) (units b))
  | .finite left _, .infinite right => ofRank (left != right) 0
  | .infinite left, .finite right _ => .infinite (left != right)
  | .infinite _, .infinite _ => .nan
  | .nan, _ => .nan
  | _, .nan => .nan

/-- The integer a number is equal to, when there is one. -/
def toInt? : Binary64 → Option Int
  | .finite negative rank =>
      if units rank % unitsPerOne = 0 then
        let magnitude : Int := (units rank / unitsPerOne : Nat)
        some (if negative then -magnitude else magnitude)
      else none
  | _ => none

/-- Whether a number is an even integer. -/
def isEven (x : Binary64) : Bool :=
  match x.toInt? with
  | some n => n % 2 == 0
  | none => false

end Binary64

end VerbChain
