import VerbChain.Action
import VerbChain.Bag

namespace VerbChain

/-!
# Functional verbs

Five verbs take references to other verbs by position.  `map`, `filter` and
`reduce` take one reference and the data, `reduce` an initial value too;
`compose` takes references only; `pipe` takes the data and then references.
-/

/-- A verb that takes references to verbs. -/
inductive FunctionalVerb where
  | map
  | filter
  | reduce
  | compose
  | pipe
  deriving Repr, DecidableEq

namespace FunctionalVerb

/-- All of them. -/
def all : List FunctionalVerb :=
  [.map, .filter, .reduce, .compose, .pipe]

/-- The name of a functional verb. -/
def name : FunctionalVerb → String
  | .map => "map"
  | .filter => "filter"
  | .reduce => "reduce"
  | .compose => "compose"
  | .pipe => "pipe"

end FunctionalVerb

/-- What a functional verb was given. -/
structure FunctionalCall where
  verb : FunctionalVerb
  functions : List String
  data : Option Value
  initial : Option Value
  deriving Repr, DecidableEq

namespace FunctionalCall

/-- At most `count` references from a number on, up to the first gap. -/
def functionsWithin (bag : Bag) :
    (count index : Nat) → Except ArgumentError (List String)
  | 0, _ => .ok []
  | count + 1, index =>
      match bag.positional? index with
      | none => .ok []
      | some _ => do
          let function ← bag.function (positionalKey index)
          let others ← functionsWithin bag count (index + 1)
          return function :: others

/-- The references from a number on, one of them at least. -/
def functionsFrom (bag : Bag) (index : Nat) :
    Except ArgumentError (List String) :=
  match functionsWithin bag bag.size index with
  | .ok [] => .error (.missing (positionalKey index))
  | answer => answer

/-- Read what a functional verb was given from its bag, references first. -/
def ofBag (verb : FunctionalVerb) (bag : Bag) :
    Except ArgumentError FunctionalCall :=
  match verb with
  | .map | .filter => do
      let function ← bag.function (positionalKey 0)
      let data ← bag.require (positionalKey 1)
      return ⟨verb, [function], some data, none⟩
  | .reduce => do
      let function ← bag.function (positionalKey 0)
      let data ← bag.require (positionalKey 1)
      return ⟨verb, [function], some data, bag.positional? 2⟩
  | .compose => do
      let functions ← functionsFrom bag 0
      return ⟨verb, functions, none, none⟩
  | .pipe => do
      let functions ← functionsFrom bag 1
      let data ← bag.require (positionalKey 0)
      return ⟨verb, functions, some data, none⟩

/-- The action with the references of a functional call. -/
def references (call : FunctionalCall) : Action :=
  let first := Json.string (call.functions.head?.getD "")
  let base := Action.bare call.verb.name
  match call.verb with
  | .map | .reduce => base.put "func" first
  | .filter => base.put "predicate" first
  | .compose | .pipe =>
      base.put "functions" (.array (call.functions.map Json.string))

/-- An action with a value under a key, when there is a value. -/
def withValue (action : Action) (key : String) : Option Value → Action
  | some value => action.put key value.toPayload
  | none => action

/-- The action that describes a functional call. -/
def toAction (call : FunctionalCall) : Action :=
  withValue (withValue call.references "data" call.data) "initial"
    call.initial

end FunctionalCall

end VerbChain
