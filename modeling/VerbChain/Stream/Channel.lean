import VerbChain.Error

namespace VerbChain

/-!
# Event channels

A channel stands between a producer that sends items and a consumer that takes
them.  The producer moves on its own; the consumer either waits for an item or
looks whether one is there.  The consumer learns that the producer has gone
only when every item it sent has been taken, and is told once if the producer
broke down.
-/

/-- How a producer goes. -/
inductive Ending where
  | normal
  | crashed
  deriving Repr, DecidableEq

/-- An event or the error that ended a program. -/
abbrev StreamItem (ε : Type) := Except EngineError ε

/-- A producer, a channel and a consumer. -/
structure Channel (ε : Type) where
  /-- How many sent items may wait; nothing bounds nothing. -/
  capacity : Option Nat
  /-- What the producer has still to send. -/
  unsent : List (StreamItem ε)
  /-- How the producer will go. -/
  ending : Ending
  /-- Whether the producer is still there. -/
  producing : Bool
  /-- What was sent and not yet taken, the item of a blocked send last. -/
  waiting : List (StreamItem ε)
  /-- Whether the consumer has seen the end. -/
  finished : Bool

namespace Channel

/-- A channel whose producer will send the given items and go. -/
def opened (capacity : Option Nat) (items : List (StreamItem ε))
    (ending : Ending) : Channel ε where
  capacity := capacity
  unsent := items
  ending := ending
  producing := true
  waiting := []
  finished := false

/--
Whether the producer can begin another send: a bounded channel holds as many
items as it may and the one whose send is blocked.
-/
def hasRoom (channel : Channel ε) : Bool :=
  match channel.capacity with
  | none => true
  | some capacity => channel.waiting.length ≤ capacity

/-- One move of the producer: send an item if there is room, or go. -/
def produce (channel : Channel ε) : Channel ε :=
  if channel.producing then
    match channel.unsent with
    | [] => { channel with producing := false }
    | item :: rest =>
        if channel.hasRoom then
          { channel with unsent := rest, waiting := channel.waiting ++ [item] }
        else channel
  else channel

/-- The end as the consumer sees it, after the producer has gone. -/
def close (channel : Channel ε) : Option (StreamItem ε) × Channel ε :=
  (match channel.ending with
    | .normal => none
    | .crashed => some (.error .producerStopped),
    { channel with finished := true })

/-- Look whether there is an item, without waiting. -/
def poll (channel : Channel ε) : Option (StreamItem ε) × Channel ε :=
  if channel.finished then (none, channel)
  else
    match channel.waiting with
    | item :: rest => (some item, { channel with waiting := rest })
    | [] => if channel.producing then (none, channel) else channel.close

/-- Wait for an item or the end; the producer moves while nothing waits. -/
def next (channel : Channel ε) : Option (StreamItem ε) × Channel ε :=
  if channel.finished then (none, channel)
  else
    match channel.waiting with
    | item :: rest => (some item, { channel with waiting := rest })
    | [] =>
        if channel.producing then
          match channel.unsent with
          | item :: rest => (some item, { channel with unsent := rest })
          | [] => { channel with producing := false }.close
        else channel.close

/-- Take at most a number of items, waiting for each. -/
def take : Nat → Channel ε → List (StreamItem ε) × Channel ε
  | 0, channel => ([], channel)
  | count + 1, channel =>
      match channel.next with
      | (none, after) => ([], after)
      | (some item, after) =>
          let (items, last) := take count after
          (item :: items, last)

/-- The greatest number of items that can still be taken. -/
def size (channel : Channel ε) : Nat :=
  channel.unsent.length + channel.waiting.length + 1

/-- Take items until there are no more. -/
def drain (channel : Channel ε) : List (StreamItem ε) × Channel ε :=
  channel.take (channel.size + 1)

/-- Look a number of times, the producer moving once before each look. -/
def spin : Nat → Channel ε → List (StreamItem ε) × Channel ε
  | 0, channel => ([], channel)
  | count + 1, channel =>
      match channel.produce.poll with
      | (found, after) =>
          let (items, last) := spin count after
          (found.toList ++ items, last)

/-- Look until the end has been seen. -/
def spinOut (channel : Channel ε) : List (StreamItem ε) × Channel ε :=
  channel.spin (2 * channel.size + 2)

/-- All events, or the first error among the items. -/
def events? : List (StreamItem ε) → Except EngineError (List ε)
  | [] => .ok []
  | .error error :: _ => .error error
  | .ok event :: rest => (events? rest).map (event :: ·)

/-- Take everything: all events, or the first error. -/
def finish (channel : Channel ε) : Except EngineError (List ε) :=
  events? channel.drain.1

end Channel

end VerbChain
