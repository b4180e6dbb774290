import VerbChain.Stream.Channel

namespace VerbChain

/-!
# What a consumer gets out of a channel

The producer and the consumer of a channel move in any order, and the channel
may hold any number of items.  What has been taken and what is still to come
are at every moment all the items there are, so a consumer that ends by taking
everything has got all of them, in order, however it went before that.
-/

namespace Channel

/-- What the producer or the consumer of a channel can do next. -/
inductive Move where
  | produce
  | poll
  | next
  deriving Repr, DecidableEq

/-- One move, with the item that the consumer gets by it. -/
def move (channel : Channel ε) :
    Move → Option (StreamItem ε) × Channel ε
  | .produce => (none, channel.produce)
  | .poll => channel.poll
  | .next => channel.next

/-- Moves one after the other, with the items that the consumer gets. -/
def run : List Move → Channel ε → List (StreamItem ε) × Channel ε
  | [], channel => ([], channel)
  | first :: rest, channel =>
      match channel.move first with
      | (item, after) =>
          let (items, last) := run rest after
          (item.toList ++ items, last)

/-- All items that a consumer gets by its moves and by taking the rest. -/
def consumed (moves : List Move) (channel : Channel ε) :
    List (StreamItem ε) :=
  (run moves channel).1 ++ (run moves channel).2.drain.1

/-- What a consumer is told about how the producer went. -/
def notice : Ending → List (StreamItem ε)
  | .normal => []
  | .crashed => [.error .producerStopped]

/-- What a consumer is still to get. -/
def pending (channel : Channel ε) : List (StreamItem ε) :=
  if channel.finished then []
  else channel.waiting ++ (channel.unsent ++ notice channel.ending)

/-- A producer goes only when it has sent everything. -/
def Settled (channel : Channel ε) : Prop :=
  channel.producing = false → channel.unsent = []

/-- When everything was sent and taken, the end is what is still to come. -/
private theorem close_pending
    {channel : Channel ε}
    (unfinished : channel.finished = false)
    (taken : channel.waiting = [])
    (sent : channel.unsent = []) :
    channel.close.1.toList ++ channel.close.2.pending = channel.pending ∧
      (channel.close.1 = none → channel.pending = []) ∧
      channel.close.2.Settled := by
  have told : channel.pending = notice channel.ending := by
    simp [pending, unfinished, taken, sent]
  rw [told]
  refine ⟨?_, ?_, fun _ => sent⟩
  · unfold close
    cases channel.ending <;> rfl
  · unfold close
    cases channel.ending <;> simp [notice]

/-- A producer's move sends what is still to come and loses nothing. -/
theorem produce_pending
    {channel : Channel ε}
    (settled : channel.Settled) :
    channel.produce.pending = channel.pending ∧ channel.produce.Settled := by
  unfold produce
  split
  · next producing =>
      split
      · next nothing =>
          refine ⟨rfl, ?_⟩
          intro _
          exact nothing
      · next item rest sending =>
          split
          · refine ⟨?_, ?_⟩
            · simp [pending, sending]
            · intro gone
              rw [producing] at gone
              cases gone
          · exact ⟨rfl, settled⟩
  · exact ⟨rfl, settled⟩

/-- The first waiting item is the first of the items to come. -/
private theorem pending_of_waiting
    {channel : Channel ε}
    {item : StreamItem ε}
    {rest : List (StreamItem ε)}
    (unfinished : channel.finished = false)
    (ready : channel.waiting = item :: rest) :
    channel.pending = item :: { channel with waiting := rest }.pending := by
  simp [pending, unfinished, ready]

/-- A look takes the next of the items to come, or none. -/
theorem poll_pending
    {channel : Channel ε}
    (settled : channel.Settled) :
    channel.poll.1.toList ++ channel.poll.2.pending = channel.pending ∧
      channel.poll.2.Settled := by
  unfold poll
  split
  · exact ⟨rfl, settled⟩
  · next unfinished =>
      rw [Bool.not_eq_true] at unfinished
      split
      · next item rest ready =>
          exact ⟨(pending_of_waiting unfinished ready).symm, settled⟩
      · next empty =>
          split
          · exact ⟨rfl, settled⟩
          · next gone =>
              rw [Bool.not_eq_true] at gone
              obtain ⟨told, _, after⟩ :=
                close_pending unfinished empty (settled gone)
              exact ⟨told, after⟩

/-- Waiting takes the next of the items to come, unless there are no more. -/
theorem next_pending
    {channel : Channel ε}
    (settled : channel.Settled) :
    channel.next.1.toList ++ channel.next.2.pending = channel.pending ∧
      (channel.next.1 = none → channel.pending = []) ∧
      channel.next.2.Settled := by
  unfold next
  split
  · next finished => exact ⟨rfl, fun _ => if_pos finished, settled⟩
  · next unfinished =>
      rw [Bool.not_eq_true] at unfinished
      split
      · next item rest ready =>
          exact ⟨(pending_of_waiting unfinished ready).symm, by simp, settled⟩
      · next empty =>
          split
          · next producing =>
              split
              · next item rest sending =>
                  refine ⟨?_, by simp, ?_⟩
                  · simp [pending, unfinished, empty, sending]
                  · intro gone
                    rw [producing] at gone
                    cases gone
              · next nothing =>
                  -- The producer goes before the consumer sees the end.
                  exact @close_pending _ { channel with producing := false }
                    unfinished empty nothing
          · next gone =>
              rw [Bool.not_eq_true] at gone
              exact close_pending unfinished empty (settled gone)

/-- A move takes the next of the items to come, or none. -/
theorem move_pending
    {channel : Channel ε}
    (settled : channel.Settled)
    (step : Move) :
    (channel.move step).1.toList ++ (channel.move step).2.pending =
        channel.pending ∧
      (channel.move step).2.Settled := by
  cases step with
  | produce => exact produce_pending settled
  | poll => exact poll_pending settled
  | next => exact ⟨(next_pending settled).1, (next_pending settled).2.2⟩

/-- What was taken by moves and what is still to come were to come before. -/
theorem run_pending
    {channel : Channel ε}
    (settled : channel.Settled)
    (moves : List Move) :
    (run moves channel).1 ++ (run moves channel).2.pending =
        channel.pending ∧
      (run moves channel).2.Settled := by
  induction moves generalizing channel with
  | nil => exact ⟨rfl, settled⟩
  | cons first rest inductionHypothesis =>
      obtain ⟨taken, after⟩ := move_pending settled first
      obtain ⟨others, last⟩ := inductionHypothesis after
      refine ⟨?_, last⟩
      rw [← taken, ← others, ← List.append_assoc]
      rfl

/-- Waiting often enough takes all that is still to come. -/
private theorem take_pending
    {channel : Channel ε}
    {count : Nat}
    (settled : channel.Settled)
    (enough : channel.pending.length ≤ count) :
    (channel.take count).1 = channel.pending := by
  induction count generalizing channel with
  | zero =>
      rw [Nat.le_zero, List.length_eq_zero_iff] at enough
      rw [enough]
      rfl
  | succ count inductionHypothesis =>
      obtain ⟨taken, ended, after⟩ := next_pending settled
      rw [take]
      rcases shape : channel.next with ⟨item, later⟩
      rw [shape] at taken ended after
      cases item with
      | none => exact (ended rfl).symm
      | some item =>
          have fewer : later.pending.length ≤ count := by
            rw [← taken] at enough
            simpa using enough
          show item :: (later.take count).1 = channel.pending
          rw [inductionHypothesis after fewer, ← taken]
          rfl

/-- Draining takes all that is still to come. -/
theorem drain_pending
    {channel : Channel ε}
    (settled : channel.Settled) :
    channel.drain.1 = channel.pending := by
  refine take_pending settled ?_
  have told : (notice channel.ending : List (StreamItem ε)).length ≤ 1 := by
    cases channel.ending <;> simp [notice]
  unfold pending
  split
  · simp
  · rw [List.length_append, List.length_append, size]
    omega

/--
However producer and consumer move and whatever the channel holds, a consumer
that takes the rest gets what the producer sends and then the notice.
-/
theorem consumed_opened
    (moves : List Move)
    (capacity : Option Nat)
    (items : List (StreamItem ε))
    (ending : Ending) :
    consumed moves (.opened capacity items ending) =
      items ++ notice ending := by
  have settled : (opened capacity items ending).Settled := by
    intro gone
    cases gone
  obtain ⟨taken, after⟩ := run_pending settled moves
  rw [consumed, drain_pending after, taken]
  rfl

end Channel

end VerbChain
