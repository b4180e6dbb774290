import VerbChain.Chain.Basic
import VerbChain.Chain.Payload
import VerbChain.Table

namespace VerbChain

/-!
# Bags of arguments

A handler sees the arguments of its call as a bag: every value under a key.
A named argument has its name as key; a positional one has a key made of its
number among the positional ones.  Where two arguments have one key, the later
one stays.
-/

/-- The key of the positional argument with a number, counted from zero. -/
def positionalKey (index : Nat) : String :=
  "_positional_" ++ toString index

/-- Why a bag does not have what a handler needs. -/
inductive ArgumentError where
  | missing (key : String)
  | wrongKind (key : String) (expected found : ValueKind)
  deriving Repr, DecidableEq

/-- The message of an argument error. -/
def ArgumentError.message : ArgumentError → String
  | .missing key => "missing argument '" ++ key ++ "'"
  | .wrongKind key expected found =>
      "argument '" ++ key ++ "' must be a " ++ expected.name ++ ", got " ++
        found.name

/-- The arguments of one call by key. -/
structure Bag where
  values : Table Value

namespace Bag

/-- The keys and values of arguments, the next positional one having a number. -/
def keyed : Nat → List Argument → List (String × Value)
  | _, [] => []
  | next, argument :: rest =>
      match argument.name with
      | some name => (name, argument.value) :: keyed next rest
      | none =>
          (positionalKey next, argument.value) :: keyed (next + 1) rest

/-- The bag of pairs of keys and values. -/
def ofPairs (pairs : List (String × Value)) : Bag :=
  ⟨.ofList pairs⟩

/-- The bag of a call's arguments. -/
def ofArguments (arguments : List Argument) : Bag :=
  ofPairs (keyed 0 arguments)

/-- The value under a key. -/
def get? (bag : Bag) (key : String) : Option Value :=
  bag.values.find? key

/-- Whether a key has a value. -/
def contains (bag : Bag) (key : String) : Bool :=
  bag.values.contains key

/-- The number of keys. -/
def size (bag : Bag) : Nat :=
  bag.values.size

/-- The positional value with a number. -/
def positional? (bag : Bag) (index : Nat) : Option Value :=
  bag.get? (positionalKey index)

/-- At most `count` positional values from a number on, up to the first gap. -/
def positionalsFrom (bag : Bag) : (count index : Nat) → List Value
  | 0, _ => []
  | count + 1, index =>
      match bag.positional? index with
      | some value => value :: bag.positionalsFrom count (index + 1)
      | none => []

/-- The positional values up to the first gap; a bag has no more than its size. -/
def positionals (bag : Bag) : List Value :=
  bag.positionalsFrom bag.size 0

/-- The value that must be under a key. -/
def require (bag : Bag) (key : String) : Except ArgumentError Value :=
  match bag.get? key with
  | some value => .ok value
  | none => .error (.missing key)

/-- The value under a key that must have a kind, seen as what that kind holds. -/
def requireAs (bag : Bag) (key : String) (expected : ValueKind)
    (view : Value → Option α) : Except ArgumentError α :=
  match bag.get? key with
  | none => .error (.missing key)
  | some value =>
      match view value with
      | some seen => .ok seen
      | none => .error (.wrongKind key expected value.kind)

/-- The number that must be under a key. -/
def number (bag : Bag) (key : String) : Except ArgumentError Binary64 :=
  bag.requireAs key .number Value.number?

/-- The text that must be under a key. -/
def text (bag : Bag) (key : String) : Except ArgumentError String :=
  bag.requireAs key .string Value.text?

/-- The truth value that must be under a key. -/
def bool (bag : Bag) (key : String) : Except ArgumentError Bool :=
  bag.requireAs key .bool Value.bool?

/-- The reference to a verb that must be under a key. -/
def function (bag : Bag) (key : String) : Except ArgumentError String :=
  bag.requireAs key .function Value.function?

/-- What a reader finds under a key, nothing when the key has no value. -/
def optional (bag : Bag) (key : String)
    (read : Bag → String → Except ArgumentError α) :
    Except ArgumentError (Option α) :=
  if bag.contains key then (read bag key).map some else .ok none

/-- The text under a key, if there is a value. -/
def optionalText (bag : Bag) (key : String) :
    Except ArgumentError (Option String) :=
  bag.optional key text

/-- The number under a key, if there is a value. -/
def optionalNumber (bag : Bag) (key : String) :
    Except ArgumentError (Option Binary64) :=
  bag.optional key number

/-- The bag as a payload. -/
def toPayload (bag : Bag) : Table Json :=
  bag.values.mapValues Value.toPayload

end Bag

end VerbChain
