import VerbChain.Stream.Script

namespace VerbChain

/-!
# A consumer that may go away

A producer's thread performs its script while a consumer takes items, until the
consumer goes away and what is left in the queue is lost.  A send begins, and
it returns at a later step: taken when the queue has room or the consumer takes
the item directly, refused when the consumer has gone.  A send that waits for
room returns in the same way.

An `Exchange` is about a consumer that stays; there the items are settled
before the first of them is sent.
-/

/-- One thing that happens between a producer and a consumer. -/
inductive Happening (σ κ ε : Type) where
  | invoked (dispatch : Dispatch σ κ)
  | sent (item : StreamItem ε)
  | refused (item : StreamItem ε)
  | left

/-- Where a producer's thread stands in its script. -/
inductive Performer (σ κ ε : Type) where
  | between (script : Script σ κ ε)
  | sending (item : StreamItem ε) (taken refused : Script σ κ ε)

/-- A producer's thread, a queue and a consumer that may be gone. -/
structure Session (σ κ ε : Type) where
  /-- How many items the queue may hold; nothing bounds nothing. -/
  capacity : Option Nat
  performer : Performer σ κ ε
  queue : List (StreamItem ε)
  /-- Whether the consumer is there. -/
  present : Bool

namespace Session

/-- A session at its beginning. -/
def opened (capacity : Option Nat) (script : Script σ κ ε) :
    Session σ κ ε where
  capacity := capacity
  performer := .between script
  queue := []
  present := true

/-- Whether the queue takes one more item. -/
def hasRoom (session : Session σ κ ε) : Bool :=
  match session.capacity with
  | none => true
  | some capacity => session.queue.length < capacity

/--
One step of the producer's thread: invoke a handler, begin a send or return
from it.  A send that waits and a thread that has ended stay as they are.
-/
def produce (session : Session σ κ ε) :
    Option (Happening σ κ ε) × Session σ κ ε :=
  match session.performer with
  | .between (.ended _ _) => (none, session)
  | .between (.invoke dispatch next) =>
      (some (.invoked dispatch), { session with performer := .between next })
  | .between (.send item taken refused) =>
      (none, { session with performer := .sending item taken refused })
  | .sending item taken refused =>
      if session.present then
        if session.hasRoom then
          (some (.sent item),
            { session with
              performer := .between taken
              queue := session.queue ++ [item] })
        else (none, session)
      else
        (some (.refused item), { session with performer := .between refused })

/-- Take an item, from the queue or from a send that is under way. -/
def take (session : Session σ κ ε) :
    Option (Happening σ κ ε) × Session σ κ ε :=
  if session.present then
    match session.queue, session.performer with
    | _ :: rest, _ => (none, { session with queue := rest })
    | [], .sending item taken _ =>
        if session.capacity = some 0 then
          (some (.sent item), { session with performer := .between taken })
        else (none, session)
    | [], .between _ => (none, session)
  else (none, session)

/-- The consumer goes away, with what is in the queue. -/
def leave (session : Session σ κ ε) :
    Option (Happening σ κ ε) × Session σ κ ε :=
  if session.present then
    (some .left, { session with queue := [], present := false })
  else (none, session)

/-- Whose turn it is: the producer's, or the consumer's to take or to leave. -/
inductive Turn where
  | produce
  | take
  | leave
  deriving Repr, DecidableEq

/-- One turn, with what happens in it. -/
def turn (session : Session σ κ ε) :
    Turn → Option (Happening σ κ ε) × Session σ κ ε
  | .produce => session.produce
  | .take => session.take
  | .leave => session.leave

/-- Turns one after the other, with all that happens. -/
def run : List Turn → Session σ κ ε →
    List (Happening σ κ ε) × Session σ κ ε
  | [], session => ([], session)
  | first :: rest, session =>
      match session.turn first with
      | (happening, after) =>
          let (others, last) := run rest after
          (happening.toList ++ others, last)

end Session

end VerbChain
