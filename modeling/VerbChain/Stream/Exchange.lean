import VerbChain.Stream.Channel

namespace VerbChain

/-!
# The two threads of a stream

A producer's thread sends items into a queue and a consumer takes them out.  A
send begins, and it returns when the queue has taken its item or the consumer
has taken it directly, which is the only way where the queue holds none.  The
consumer looks or waits.  When the producer has gone and nothing is left, the
consumer joins the producer's thread, which it can do once, and learns how it
ended.

A `Channel` takes larger steps: a send is one step there, and so is a wait.
-/

/-- Where the thread of a producer stands, with what it has still to send. -/
inductive Producer (ε : Type) where
  | between (unsent : List (StreamItem ε))
  | sending (item : StreamItem ε) (unsent : List (StreamItem ε))
  | gone

/-- A producer's thread, a queue and a consumer. -/
structure Exchange (ε : Type) where
  /-- How many items the queue may hold; nothing bounds nothing. -/
  capacity : Option Nat
  /-- How the producer's thread ends. -/
  ending : Ending
  producer : Producer ε
  queue : List (StreamItem ε)
  /-- Whether the consumer has not joined the producer's thread. -/
  unjoined : Bool
  finished : Bool

/-- What stands at the consumer's end of a queue. -/
inductive Receipt (ε : Type) where
  | item (item : StreamItem ε)
  | nothing
  | disconnected

namespace Exchange

/-- An exchange whose producer will send the given items and go. -/
def opened (capacity : Option Nat) (items : List (StreamItem ε))
    (ending : Ending) : Exchange ε where
  capacity := capacity
  ending := ending
  producer := .between items
  queue := []
  unjoined := true
  finished := false

/-- Whether the queue takes one more item. -/
def hasRoom (exchange : Exchange ε) : Bool :=
  match exchange.capacity with
  | none => true
  | some capacity => exchange.queue.length < capacity

/-- One step of the producer's thread: begin a send, return from it, or go. -/
def produce (exchange : Exchange ε) : Exchange ε :=
  match exchange.producer with
  | .between [] => { exchange with producer := .gone }
  | .between (item :: rest) =>
      { exchange with producer := .sending item rest }
  | .sending item rest =>
      if exchange.hasRoom then
        { exchange with
          producer := .between rest
          queue := exchange.queue ++ [item] }
      else exchange
  | .gone => exchange

/-- Try to receive an item, from the queue or from a send that is under way. -/
def receive (exchange : Exchange ε) : Receipt ε × Exchange ε :=
  match exchange.queue, exchange.producer with
  | item :: rest, _ => (.item item, { exchange with queue := rest })
  | [], .sending item rest =>
      if exchange.capacity = some 0 then
        (.item item, { exchange with producer := .between rest })
      else (.nothing, exchange)
  | [], .between _ => (.nothing, exchange)
  | [], .gone => (.disconnected, exchange)

/-- See the end: join the producer's thread if that has not been done. -/
def close (exchange : Exchange ε) : Option (StreamItem ε) × Exchange ε :=
  let closed := { exchange with finished := true, unjoined := false }
  if exchange.unjoined then
    match exchange.ending with
    | .normal => (none, closed)
    | .crashed => (some (.error .producerStopped), closed)
  else (none, closed)

/-- Look whether there is an item, without waiting. -/
def poll (exchange : Exchange ε) : Option (StreamItem ε) × Exchange ε :=
  if exchange.finished then (none, exchange)
  else
    match exchange.receive with
    | (.item item, after) => (some item, after)
    | (.nothing, after) => (none, after)
    | (.disconnected, after) => after.close

/-- What waiting for an item answers, unless the wait goes on. -/
def next? (exchange : Exchange ε) :
    Option (Option (StreamItem ε) × Exchange ε) :=
  if exchange.finished then some (none, exchange)
  else
    match exchange.receive with
    | (.item item, after) => some (some item, after)
    | (.nothing, _) => none
    | (.disconnected, after) => some after.close

/-- Whose turn it is: the producer's, or the consumer's with one of its calls. -/
inductive Turn where
  | produce
  | poll
  | next
  deriving Repr, DecidableEq

/--
One turn, with the answer of the consumer's call.  A wait that goes on answers
nothing and is tried again at a later turn.
-/
def turn (exchange : Exchange ε) :
    Turn → Option (Option (StreamItem ε)) × Exchange ε
  | .produce => (none, exchange.produce)
  | .poll => (some exchange.poll.1, exchange.poll.2)
  | .next =>
      match exchange.next? with
      | some (answer, after) => (some answer, after)
      | none => (none, exchange)

/-- Turns one after the other, with the answers of the consumer's calls. -/
def run : List Turn → Exchange ε → List (Option (StreamItem ε)) × Exchange ε
  | [], exchange => ([], exchange)
  | first :: rest, exchange =>
      match exchange.turn first with
      | (answer, after) =>
          let (answers, last) := run rest after
          (answer.toList ++ answers, last)

/--
What taking everything answers, whenever the producer moves meanwhile: it waits
for one item after the other and ends at the first error.
-/
inductive Collects : Exchange ε → Except EngineError (List ε) → Prop where
  | produce
      {exchange : Exchange ε}
      {answer : Except EngineError (List ε)}
      (later : Collects exchange.produce answer) :
      Collects exchange answer
  | event
      {exchange after : Exchange ε}
      {event : ε}
      {answer : Except EngineError (List ε)}
      (found : exchange.next? = some (some (.ok event), after))
      (later : Collects after answer) :
      Collects exchange (answer.map (event :: ·))
  | error
      {exchange after : Exchange ε}
      {error : EngineError}
      (found : exchange.next? = some (some (.error error), after)) :
      Collects exchange (.error error)
  | ended
      {exchange after : Exchange ε}
      (found : exchange.next? = some (none, after)) :
      Collects exchange (.ok [])

end Exchange

end VerbChain
