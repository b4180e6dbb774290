import VerbChain.Number.Layout

namespace VerbChain

/-!
# JSON values

Whole numbers and numbers with a fraction are kept apart, and the fields of an
object keep the order they are given in.
-/

/-- A JSON value; a number with a fraction is always finite. -/
inductive Json where
  | null
  | bool (value : Bool)
  | integer (value : Int)
  | float (negative : Bool) (rank : Fin finiteRanks)
  | string (content : String)
  | array (items : List Json)
  | object (fields : List (String × Json))
  deriving Repr

namespace Json

/-- A number as a JSON value with a fraction, null when it is not finite. -/
def ofBinary : Binary64 → Json
  | .finite negative rank => .float negative rank
  | .infinite _ => .null
  | .nan => .null

/-- The number a JSON value is, whole numbers rounded to the nearest. -/
def number? : Json → Option Binary64
  | .integer value => some (.ofInt value)
  | .float negative rank => some (.finite negative rank)
  | _ => none

/-- The text a JSON value is. -/
def string? : Json → Option String
  | .string content => some content
  | _ => none

mutual

/-- Equality of JSON values that compares fractional numbers numerically. -/
def agrees : Json → Json → Bool
  | .null, .null => true
  | .bool left, .bool right => left == right
  | .integer left, .integer right => left == right
  | .float signLeft left, .float signRight right =>
      (Binary64.finite signLeft left).equals (.finite signRight right)
  | .string left, .string right => left == right
  | .array left, .array right => agreeItems left right
  | .object left, .object right => agreeFields left right
  | _, _ => false

/-- Equality of lists of JSON values, place by place. -/
def agreeItems : List Json → List Json → Bool
  | [], [] => true
  | left :: lefts, right :: rights =>
      agrees left right && agreeItems lefts rights
  | _, _ => false

/-- Equality of lists of fields, place by place. -/
def agreeFields : List (String × Json) → List (String × Json) → Bool
  | [], [] => true
  | (leftKey, left) :: lefts, (rightKey, right) :: rights =>
      leftKey == rightKey && agrees left right && agreeFields lefts rights
  | _, _ => false

end

mutual

/-- How many arrays and objects lie inside each other, this one included. -/
def depth : Json → Nat
  | .array items => itemsDepth items + 1
  | .object fields => fieldsDepth fields + 1
  | _ => 0

/-- The greatest depth among items. -/
def itemsDepth : List Json → Nat
  | [] => 0
  | item :: items => max (depth item) (itemsDepth items)

/-- The greatest depth among the values of fields. -/
def fieldsDepth : List (String × Json) → Nat
  | [] => 0
  | (_, value) :: fields => max (depth value) (fieldsDepth fields)

end

end Json

end VerbChain
