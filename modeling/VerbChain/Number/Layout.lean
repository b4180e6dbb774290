import VerbChain.Number.Shortest

namespace VerbChain

/-!
# Layouts of a finite number

All layouts write the shortest digits; they differ in how far positional
digits go, in the mark of a whole number and in the sign of a power of ten.
-/

/-- The decisions a format makes about a finite number. -/
structure NumberLayout where
  /-- Which of two equally near decimals is written. -/
  tie : TieRule
  /-- The leading powers of ten written positionally; none bounds nothing. -/
  positional : Option (Int × Int)
  /-- What follows a whole number written positionally. -/
  wholeMark : List Char
  /-- What stands in front of a nonnegative power of ten. -/
  powerMark : List Char

namespace NumberLayout

/-- Program text writes every digit positionally and whole numbers bare. -/
def source : NumberLayout where
  tie := .upward
  positional := none
  wholeMark := []
  powerMark := []

/-- JSON marks whole numbers and signs every power of ten. -/
def json : NumberLayout where
  tie := .toEven
  positional := some (-5, 15)
  wholeMark := ['.', '0']
  powerMark := ['+']

/-- YAML marks whole numbers and leaves nonnegative powers unsigned. -/
def yaml : NumberLayout where
  tie := .toEven
  positional := some (-5, 15)
  wholeMark := ['.', '0']
  powerMark := []

/-- One digit, a point and the other digits if any, and the power of ten. -/
def scientific (layout : NumberLayout) (decimal : Decimal) : List Char :=
  let power := decimal.leadingPower
  let sign := if power < 0 then ['-'] else layout.powerMark
  let powerText := sign ++ Nat.toDigits 10 power.natAbs
  match Nat.toDigits 10 decimal.digits with
  | [] => []
  | [lead] => lead :: 'e' :: powerText
  | lead :: others => lead :: '.' :: (others ++ 'e' :: powerText)

/-- Positional digits with the layout's mark after a whole number. -/
def plain (layout : NumberLayout) (decimal : Decimal) : List Char :=
  if decimal.exponent < 0 then decimal.plain
  else decimal.plain ++ layout.wholeMark

/-- The magnitude of a rank as a layout writes it. -/
def magnitude (layout : NumberLayout) (rank : Nat) : List Char :=
  let decimal := Shortest.ofRank layout.tie rank
  match layout.positional with
  | none => layout.plain decimal
  | some (least, greatest) =>
      let power := decimal.leadingPower
      if least ≤ power ∧ power ≤ greatest then layout.plain decimal
      else layout.scientific decimal

/-- A finite number as a layout writes it, the sign of zero kept. -/
def finite (layout : NumberLayout) (negative : Bool) (rank : Nat) :
    List Char :=
  if negative then '-' :: layout.magnitude rank
  else layout.magnitude rank

end NumberLayout

/-- A number as it stands in program text or in a message. -/
def Binary64.sourceText : Binary64 → List Char
  | .finite negative rank => NumberLayout.source.finite negative rank
  | .infinite false => ['i', 'n', 'f']
  | .infinite true => ['-', 'i', 'n', 'f']
  | .nan => ['N', 'a', 'N']

end VerbChain
