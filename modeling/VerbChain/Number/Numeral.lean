import VerbChain.Number.Decimal

namespace VerbChain

/-!
# Numerals

A numeral is a number as a person may type it: a sign, then digits with an
optional point and an optional power of ten, or a name of an infinity or of
not-a-number in letters of either case.
-/

namespace Numeral

/-- Read the power of ten of a numeral, the empty text being power zero. -/
def power? : List Char → Option Int
  | [] => some 0
  | mark :: rest =>
      if mark = 'e' ∨ mark = 'E' then
        let (negative, digits) := splitSign rest
        if digits ≠ [] ∧ digits.all isDigit then
          let size : Int := (Nat.ofDigitChars 10 digits 0 : Nat)
          some (if negative then -size else size)
        else none
      else none

/-- Split a fraction off the front: a point and the digits after it. -/
def splitFraction : List Char → List Char × List Char
  | '.' :: rest => (rest.takeWhile isDigit, rest.dropWhile isDigit)
  | text => ([], text)

/-- Read digits, an optional fraction and an optional power of ten. -/
def decimal? (text : List Char) : Option Decimal :=
  let whole := text.takeWhile isDigit
  let (fraction, rest) := splitFraction (text.dropWhile isDigit)
  if whole = [] ∧ fraction = [] then none
  else
    (power? rest).map fun power =>
      let decimal := Decimal.ofParts whole fraction
      ⟨decimal.digits, decimal.exponent + power⟩

/-- Read an unsigned numeral. -/
def unsigned? (negative : Bool) (text : List Char) : Option Binary64 :=
  let name := String.ofList (text.map Char.toLower)
  if name = "inf" ∨ name = "infinity" then some (.infinite negative)
  else if name = "nan" then some .nan
  else (decimal? text).map (Binary64.ofDecimal negative)

end Numeral

/-- Read a numeral as a number, rounding once. -/
def Binary64.ofNumeral? (text : List Char) : Option Binary64 :=
  let (negative, magnitude) := splitSign text
  Numeral.unsigned? negative magnitude

end VerbChain
