import VerbChain.Json.Basic
import VerbChain.Json.Document
import VerbChain.Table

namespace VerbChain

/-!
# Reading JSON

What the parts of a document stand for.  A document is read only as deep as
there is room: every array and object takes one level.  Whole numbers of 64
bits stay whole; all other numbers take their first digits, as many as fit into
64 bits, and are scaled by powers of ten.
-/

namespace JsonNumber

/-- The greatest whole number that digits are gathered into. -/
def greatest : Nat := (1 <<< 64) - 1

/--
Gather digits as long as the number stays within 64 bits; the digits from the
first one that does not fit are left.
-/
def gather : Nat → List Char → Nat × List Char
  | value, [] => (value, [])
  | value, digit :: digits =>
      let next := value * 10 + (digit.toNat - '0'.toNat)
      if next ≤ greatest then gather next digits
      else (value, digit :: digits)

/-- A power of ten up to `10 ^ 308`, rounded. -/
def tenTo (power : Nat) : Binary64 :=
  .ofDecimal false ⟨1, power⟩

/--
Scale a magnitude by a power of ten, a step of `10 ^ 308` at a time.  Scaling
beyond the finite numbers fails, scaling below them ends at zero.
-/
def scale? (magnitude : Binary64) (power : Int) : Option Binary64 :=
  if power.natAbs ≤ 308 then
    if 0 ≤ power then
      let scaled := magnitude.times (tenTo power.natAbs)
      if scaled.isFinite then some scaled else none
    else some (magnitude.dividedBy (tenTo power.natAbs))
  else if magnitude.equals .zero then some magnitude
  else if 0 ≤ power then none
  else scale? (magnitude.dividedBy (tenTo 308)) (power + 308)
  termination_by power.natAbs

/-- The number that a literal stands for when it is not a whole number. -/
def binary? (literal : JsonNumber) : Option Binary64 :=
  let whole := gather 0 literal.whole
  let both := gather whole.1 literal.fraction
  let taken : Int := literal.fraction.length - both.2.length
  let power := whole.2.length - taken + literal.power
  (scale? (.ofNat both.1) power).map fun magnitude =>
    if literal.negative then magnitude.negate else magnitude

/--
The whole number that a literal stands for: no point, no power, within 64 bits,
and no negative zero.
-/
def integer? (literal : JsonNumber) : Option Int :=
  let whole := gather 0 literal.whole
  if literal.fractional ∨ whole.2 ≠ [] then none
  else if literal.negative then
    if 0 < whole.1 ∧ whole.1 ≤ 1 <<< 63 then some (-(whole.1 : Int)) else none
  else some whole.1

/-- The value that a literal stands for. -/
def toJson? (literal : JsonNumber) : Option Json :=
  match literal.integer? with
  | some value => some (.integer value)
  | none => literal.binary?.map Json.ofBinary

end JsonNumber

namespace JsonPiece

/-- Whether a code unit opens a surrogate pair. -/
def isLead (unit : Nat) : Bool :=
  0xD800 ≤ unit && unit ≤ 0xDBFF

/-- Whether a code unit closes a surrogate pair. -/
def isTrail (unit : Nat) : Bool :=
  0xDC00 ≤ unit && unit ≤ 0xDFFF

/-- The characters that pieces stand for; half a surrogate pair is none. -/
def characters? : List JsonPiece → Option (List Char)
  | [] => some []
  | .char c :: rest => (characters? rest).map (c :: ·)
  | .unit lead :: .unit trail :: rest =>
      if isLead lead then
        if isTrail trail then
          let code := 0x10000 + (lead - 0xD800) * 0x400 + (trail - 0xDC00)
          (characters? rest).map (Char.ofNat code :: ·)
        else none
      else if isTrail lead then none
      else (characters? (.unit trail :: rest)).map (Char.ofNat lead :: ·)
  | .unit alone :: rest =>
      if isLead alone ∨ isTrail alone then none
      else (characters? rest).map (Char.ofNat alone :: ·)

/-- The text that pieces stand for. -/
def text? (pieces : List JsonPiece) : Option String :=
  (characters? pieces).map String.ofList

end JsonPiece

namespace JsonDocument

mutual

/-- The JSON value of a document, when it fits into the levels there are. -/
def toJson? : (room : Nat) → JsonDocument → Option Json
  | _, .null => some .null
  | _, .bool value => some (.bool value)
  | _, .number literal => literal.toJson?
  | _, .string pieces => (JsonPiece.text? pieces).map Json.string
  | 0, .array _ => none
  | 0, .object _ => none
  | room + 1, .array items => (toItems? room items).map Json.array
  | room + 1, .object fields =>
      (toFields? room fields).map fun pairs =>
        .object (Table.ofList pairs).entries

/-- The JSON values of items. -/
def toItems? : (room : Nat) → List JsonDocument → Option (List Json)
  | _, [] => some []
  | room, item :: items =>
      (toJson? room item).bind fun first =>
        (toItems? room items).map (first :: ·)

/-- The keys and JSON values of fields. -/
def toFields? :
    (room : Nat) →
    List (List JsonPiece × JsonDocument) →
    Option (List (String × Json))
  | _, [] => some []
  | room, (key, value) :: fields =>
      (JsonPiece.text? key).bind fun name =>
        (toJson? room value).bind fun first =>
          (toFields? room fields).map ((name, first) :: ·)

end

/-- How many levels of arrays and objects a text may have. -/
def levels : Nat := 127

end JsonDocument

/-- Read a JSON text as a value. -/
def Json.ofText? (text : String) : Option Json :=
  (JsonDocument.ofText? text.toList).bind
    (JsonDocument.toJson? JsonDocument.levels)

end VerbChain
