import VerbChain.Evaluation.Walk
import VerbChain.Stream.Channel

namespace VerbChain

/-!
# The producer of a stream

An outlet is the sending end of a channel.  Its sends succeed until the
consumer goes away, and fail from then on.  The producer of a stream walks a
chain, sends the events of each completed call, and stops at the first send
that fails; it sends the error that ended the walk last.
-/

/-- The sending end of a channel. -/
structure Outlet (ε : Type) where
  /-- How many more sends will succeed; nothing bounds nothing. -/
  open? : Option Nat
  /-- What was sent. -/
  sent : List (StreamItem ε)

namespace Outlet

/-- An outlet whose consumer goes away after a number of sends, or never. -/
def openFor (count : Option Nat) : Outlet ε :=
  ⟨count, []⟩

/-- Send one item; the flag tells whether it was sent. -/
def send (outlet : Outlet ε) (item : StreamItem ε) : Bool × Outlet ε :=
  match outlet.open? with
  | none => (true, { outlet with sent := outlet.sent ++ [item] })
  | some 0 => (false, outlet)
  | some (count + 1) => (true, ⟨some count, outlet.sent ++ [item]⟩)

/-- Send events up to the first that is not sent. -/
def sendEvents : List ε → Outlet ε → Flow × Outlet ε
  | [], outlet => (.proceed, outlet)
  | event :: rest, outlet =>
      match outlet.send (.ok event) with
      | (true, next) => sendEvents rest next
      | (false, next) => (.stop, next)

/-- Try to send every item, whether the ones before were sent or not. -/
def sendAll : List (StreamItem ε) → Outlet ε → List Bool × Outlet ε
  | [], outlet => ([], outlet)
  | item :: rest, outlet =>
      let (sent, next) := outlet.send item
      let (others, last) := sendAll rest next
      (sent :: others, last)

/-- The sink that sends the events of a completed call. -/
def publishing (events : Call → ω → List ε) : Sink (Outlet ε) σ ω :=
  fun call output outlet world =>
    let (flow, next) := sendEvents (events call output) outlet
    (flow, next, world)

end Outlet

/-- What a producer did: its sends and how it went. -/
structure Production (ε : Type) where
  outlet : Outlet ε
  ending : Ending

namespace Production

/-- A parse error is all that is sent. -/
def ofError (error : EngineError) (outlet : Outlet ε) : Production ε :=
  ⟨(outlet.send (.error error)).2, .normal⟩

/-- What a walk leaves to send: an error, unless the handler broke down. -/
def ofWalk : Except EngineError Nat → Outlet ε → Production ε
  | .ok _, outlet => ⟨outlet, .normal⟩
  | .error (.handler _ .crash), outlet => ⟨outlet, .crashed⟩
  | .error error, outlet => ofError error outlet

/-- Produce the events of a chain. -/
def ofChain (convention : Convention κ ω ε) (registry : Registry σ κ ω)
    (chain : Chain) (outlet : Outlet ε) (world : World σ) :
    Production ε × World σ :=
  match Evaluation.walk convention registry
      (Outlet.publishing convention.events) chain outlet world with
  | (answer, sent, next) => (ofWalk answer sent, next)

/-- The channel that a producer feeds. -/
def channel (production : Production ε) (capacity : Option Nat) :
    Channel ε :=
  .opened capacity production.outlet.sent production.ending

end Production

end VerbChain
