import VerbChain.Number.Numeral

namespace VerbChain

/-!
# What plain text stands for

A text that is written in YAML without quotes may stand for null, a truth value
or a number; any other stands for itself.  Digits with a zero in front are not
a number, and a whole number may be too wide for 64 bits.
-/

/-- What a text that is written without quotes stands for. -/
inductive PlainMeaning where
  | null
  | bool (value : Bool)
  | integer (value : Int)
  /-- A whole number beyond 64 bits. -/
  | wide
  | float (value : Binary64)
  /-- The text itself. -/
  | verbatim
  deriving Repr, DecidableEq

namespace PlainMeaning

/-- Whether a text is a name of null. -/
def isNull (text : String) : Bool :=
  ["null", "Null", "NULL", "~"].contains text

/-- The truth value a text names. -/
def bool? (text : String) : Option Bool :=
  if ["true", "True", "TRUE"].contains text then some true
  else if ["false", "False", "FALSE"].contains text then some false
  else none

/-- The value of a digit, letters being digits from ten on. -/
def digitValue (c : Char) : Nat :=
  if isDigit c then c.toNat - '0'.toNat
  else if 'a' ≤ c ∧ c ≤ 'z' then c.toNat - 'a'.toNat + 10
  else if 'A' ≤ c ∧ c ≤ 'Z' then c.toNat - 'A'.toNat + 10
  else 36

/-- The natural number that digits of a base stand for. -/
def natural? (base : Nat) (digits : List Char) : Option Nat :=
  if digits = [] then none
  else
    digits.foldlM
      (fun value digit =>
        if digitValue digit < base then some (value * base + digitValue digit)
        else none)
      0

/-- Whether a text starts with a sign. -/
def startsWithSign : List Char → Bool
  | '+' :: _ => true
  | '-' :: _ => true
  | _ => false

/-- A text without one plus sign in front. -/
def withoutPlus : List Char → List Char
  | '+' :: rest => rest
  | text => text

/-- A text without one sign in front. -/
def withoutSign (text : List Char) : List Char :=
  (splitSign text).2

/-- Whether a text is digits that a zero in front keeps from being a number. -/
def isPaddedDigits (text : List Char) : Bool :=
  match withoutSign text with
  | '0' :: digit :: digits => (digit :: digits).all isDigit
  | _ => false

/-- The number that digits behind the mark of a base stand for. -/
def marked? : List Char → Option Nat
  | '0' :: 'x' :: digits => natural? 16 digits
  | '0' :: 'o' :: digits => natural? 8 digits
  | '0' :: 'b' :: digits => natural? 2 digits
  | _ => none

/-- The natural number a text stands for: one plus sign may stand in front. -/
def unsigned? (text : List Char) : Option Nat :=
  let magnitude := withoutPlus text
  match marked? magnitude with
  | some value => some value
  | none =>
      if startsWithSign magnitude ∨ isPaddedDigits text then none
      else natural? 10 magnitude

/-- The size of the number that a text with a minus sign stands for. -/
def negated? : List Char → Option Nat
  | '-' :: magnitude =>
      match marked? magnitude with
      | some value => some value
      | none =>
          if startsWithSign magnitude ∨ isPaddedDigits magnitude then none
          else natural? 10 magnitude
  | _ => none

/-- The whole number a text stands for, when it is not too wide to be one. -/
def integer? (text : List Char) : Option PlainMeaning :=
  match unsigned? text with
  | some value =>
      if value < 1 <<< 64 then some (.integer value)
      else if value < 1 <<< 128 then some .wide
      else none
  | none =>
      match negated? text with
      | some size =>
          if size ≤ 1 <<< 63 then some (.integer (-(size : Int)))
          else if size ≤ 1 <<< 127 then some .wide
          else none
      | none => none

/-- The number a text names or spells that need not be whole. -/
def float? (text : List Char) : Option Binary64 :=
  let magnitude := withoutPlus text
  let spelt := String.ofList magnitude
  if magnitude ≠ text ∧ startsWithSign magnitude then none
  else if [".inf", ".Inf", ".INF"].contains spelt then some (.infinite false)
  else if ["-.inf", "-.Inf", "-.INF"].contains spelt then
    some (.infinite true)
  else if [".nan", ".NaN", ".NAN"].contains (String.ofList text) then some .nan
  else (Binary64.ofNumeral? magnitude).filter Binary64.isFinite

/-- What a text stands for when it is written without quotes. -/
def ofText (text : String) : PlainMeaning :=
  if text = "" ∨ isNull text then .null
  else
    match bool? text with
    | some value => .bool value
    | none =>
        match integer? text.toList with
        | some number => number
        | none =>
            if isPaddedDigits text.toList then .verbatim
            else ((float? text.toList).map float).getD .verbatim

/-- Whether a text without quotes would be read as something else. -/
def isMisread (text : String) : Bool :=
  ofText text != .verbatim || isPaddedDigits text.toList

end PlainMeaning

end VerbChain
