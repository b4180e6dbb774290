import VerbChain.Chain.Value
import VerbChain.Json.Basic

namespace VerbChain

/-!
# Values in a payload

A value enters a payload as the JSON value that says the most: a number that
is whole, and small enough for every whole number around it to be a number
too, becomes a whole number.
-/

/-- The greatest number up to which all whole numbers are exact. -/
def greatestExact : Nat := (1 <<< 53) - 1

/-- A number in a payload; the negative zero keeps its sign. -/
def Binary64.toPayload (value : Binary64) : Json :=
  match value.toInt? with
  | some n =>
      if n.natAbs ≤ greatestExact ∧ value.isNegativeZero = false then
        .integer n
      else .ofBinary value
  | none => .ofBinary value

/-- A value in a payload. -/
def Value.toPayload : Value → Json
  | .number value => value.toPayload
  | .string content => .string content
  | .identifier name => .string name
  | .bool value => .bool value
  | .function name => .string name

end VerbChain
