import VerbChain.Proofs.Stream.Interleaving
import VerbChain.Stream.Exchange

namespace VerbChain

/-!
# A stream delivers every item once, in order, and ends once

The steps of the two threads are followed on the channel: a turn is a move of
the channel or none, because a send that is under way counts as an item that
waits.  What is taken and what is still to come are therefore all there is, as
for channels.

A wait answers nothing only while the producer can still move, so every wait
comes to an end, and so does taking everything.
-/

namespace Producer

/-- What the producer has still to begin to send. -/
def unsent : Producer ε → List (StreamItem ε)
  | .between unsent => unsent
  | .sending _ unsent => unsent
  | .gone => []

/-- The item of a send that is under way. -/
def offered : Producer ε → List (StreamItem ε)
  | .sending item _ => [item]
  | _ => []

/-- Whether the producer is still there. -/
def present : Producer ε → Bool
  | .gone => false
  | _ => true

end Producer

theorem Channel.produce_of_room
    {channel : Channel ε}
    {item : StreamItem ε}
    {rest : List (StreamItem ε)}
    (producing : channel.producing = true)
    (sending : channel.unsent = item :: rest)
    (room : channel.hasRoom = true) :
    channel.produce =
      { channel with
        unsent := rest
        waiting := channel.waiting ++ [item] } := by
  simp [produce, producing, sending, room]

theorem Channel.run_append
    (first second : List Move)
    (channel : Channel ε) :
    run (first ++ second) channel =
      ((run first channel).1 ++ (run second (run first channel).2).1,
        (run second (run first channel).2).2) := by
  induction first generalizing channel with
  | nil => rfl
  | cons move rest inductionHypothesis =>
      simp only [List.cons_append, run, inductionHypothesis, List.append_assoc]

namespace Exchange

/-- The channel that an exchange is. -/
def channel (exchange : Exchange ε) : Channel ε where
  capacity := exchange.capacity
  unsent := exchange.producer.unsent
  ending := exchange.ending
  producing := exchange.producer.present
  waiting := exchange.queue ++ exchange.producer.offered
  finished := exchange.finished

/-- The items among the answers of the consumer's calls. -/
def returned (answers : List (Option (StreamItem ε))) :
    List (StreamItem ε) :=
  answers.filterMap id

/--
The queue keeps its bound, the producer's thread waits to be joined, and the end
is seen only when the producer has gone and nothing is left.
-/
structure Sound (exchange : Exchange ε) (ending : Ending) : Prop where
  ends : exchange.ending = ending
  bounded :
    ∀ capacity, exchange.capacity = some capacity →
      exchange.queue.length ≤ capacity
  joinable : exchange.finished = false → exchange.unjoined = true
  drained :
    exchange.finished = true → exchange.producer = .gone ∧ exchange.queue = []

theorem sound_opened
    (capacity : Option Nat)
    (items : List (StreamItem ε))
    (ending : Ending) :
    (opened capacity items ending).Sound ending where
  ends := rfl
  bounded _ _ := Nat.zero_le _
  joinable _ := rfl
  drained finished := by cases finished

theorem settled_channel (exchange : Exchange ε) : exchange.channel.Settled := by
  intro gone
  obtain ⟨capacity, ending, producer, queue, unjoined, finished⟩ := exchange
  cases producer with
  | between unsent => cases gone
  | sending item unsent => cases gone
  | gone => rfl

private theorem finished_produce (exchange : Exchange ε) :
    exchange.produce.finished = exchange.finished := by
  unfold produce
  split
  · rfl
  · rfl
  · split <;> rfl
  · rfl

section Step

variable {exchange after : Exchange ε} {ending : Ending}

/-- Behind the end the producer does not move any more. -/
private theorem produce_of_finished
    (sound : exchange.Sound ending)
    (finished : exchange.finished = true) :
    exchange.produce = exchange := by
  rw [produce, (sound.drained finished).1]

theorem Sound.produce (sound : exchange.Sound ending) :
    exchange.produce.Sound ending := by
  obtain ⟨capacity, ending, producer, queue, unjoined, finished⟩ := exchange
  cases finished with
  | true => rwa [produce_of_finished sound rfl]
  | false =>
      obtain ⟨ends, bounded, joinable, _⟩ := sound
      have unfinished {after : Prop} (same : false = true) : after := by
        cases same
      unfold Exchange.produce
      split
      · exact ⟨ends, bounded, joinable, unfinished⟩
      · exact ⟨ends, bounded, joinable, unfinished⟩
      · split
        · next room =>
            refine ⟨ends, ?_, joinable, unfinished⟩
            rintro bound rfl
            rw [hasRoom, decide_eq_true_eq] at room
            rw [List.length_append]
            exact room
        · exact ⟨ends, bounded, joinable, unfinished⟩
      · exact ⟨ends, bounded, joinable, unfinished⟩

/-- A step of the producer is a move of the channel's producer or none. -/
theorem produce_channel (sound : exchange.Sound ending) :
    exchange.produce.channel = exchange.channel.produce ∨
      exchange.produce.channel = exchange.channel := by
  obtain ⟨capacity, ending, producer, queue, unjoined, finished⟩ := exchange
  match producer with
  | .gone => exact .inr rfl
  | .between [] => exact .inl rfl
  | .sending item rest =>
      right
      simp only [produce]
      split
      · simp [channel, Producer.unsent, Producer.offered, Producer.present]
      · rfl
  | .between (item :: rest) =>
      left
      have room :
          (channel ⟨capacity, ending, .between (item :: rest), queue, unjoined,
            finished⟩).hasRoom = true := by
        cases capacity with
        | none => rfl
        | some capacity =>
            have fits := sound.bounded capacity rfl
            simpa [channel, Channel.hasRoom, Producer.offered] using fits
      rw [Channel.produce_of_room rfl rfl room]
      simp [channel, produce, Producer.unsent, Producer.offered,
        Producer.present]

/-- What can be received now is what a look at the channel finds. -/
theorem next?_channel
    {answer : Option (StreamItem ε)}
    (sound : exchange.Sound ending)
    (found : exchange.next? = some (answer, after)) :
    exchange.channel.poll = (answer, after.channel) ∧ after.Sound ending := by
  obtain ⟨capacity, ending, producer, queue, unjoined, finished⟩ := exchange
  obtain ⟨ends, bounded, joinable, drained⟩ := sound
  cases finished with
  | true =>
      cases found
      exact ⟨rfl, ends, bounded, joinable, drained⟩
  | false =>
      have unfinished {after : Prop} (same : false = true) : after := by
        cases same
      match queue, producer with
      | item :: rest, producer =>
          cases found
          refine ⟨rfl, ends, ?_, joinable, unfinished⟩
          intro bound same
          exact Nat.le_of_succ_le (bounded bound same)
      | [], .between unsent => cases found
      | [], .sending item rest =>
          by_cases direct : capacity = some 0
          · subst direct
            cases found
            exact ⟨rfl, ends, bounded, joinable, unfinished⟩
          · simp [next?, receive, direct] at found
      | [], .gone =>
          have unjoinedStill : unjoined = true := joinable rfl
          subst unjoinedStill
          cases ending with
          | normal =>
              cases found
              exact ⟨rfl, ends, bounded, fun same => unfinished same.symm,
                fun _ => ⟨rfl, rfl⟩⟩
          | crashed =>
              cases found
              exact ⟨rfl, ends, bounded, fun same => unfinished same.symm,
                fun _ => ⟨rfl, rfl⟩⟩

/-- A look is a wait that does not go on. -/
theorem poll_eq (exchange : Exchange ε) :
    exchange.poll = exchange.next?.getD (none, exchange) := by
  obtain ⟨capacity, ending, producer, queue, unjoined, finished⟩ := exchange
  cases finished with
  | true => rfl
  | false =>
      match queue, producer with
      | item :: rest, producer => rfl
      | [], .between unsent => rfl
      | [], .gone => rfl
      | [], .sending item rest =>
          by_cases direct : capacity = some 0
          · subst direct
            rfl
          · simp [poll, next?, receive, direct]

/-- The end has not been seen while there is something to receive. -/
private theorem unfinished_of_left
    (sound : exchange.Sound ending)
    (left : exchange.producer = .gone → exchange.queue ≠ []) :
    ¬exchange.finished = true := by
  intro finished
  obtain ⟨gone, empty⟩ := sound.drained finished
  exact left gone empty

/-- A look answers the first item that waits in the queue. -/
theorem poll_of_waiting
    {item : StreamItem ε}
    {rest : List (StreamItem ε)}
    (sound : exchange.Sound ending)
    (waiting : exchange.queue = item :: rest) :
    exchange.poll = (some item, { exchange with queue := rest }) := by
  have unfinished : ¬exchange.finished = true := by
    apply unfinished_of_left sound
    intro _
    rw [waiting]
    exact List.cons_ne_nil item rest
  rw [poll, if_neg unfinished, receive, waiting]

/-- Where the queue holds none, a look answers the item that is being sent. -/
theorem poll_of_sending
    {item : StreamItem ε}
    {unsent : List (StreamItem ε)}
    (sound : exchange.Sound ending)
    (direct : exchange.capacity = some 0)
    (sending : exchange.producer = .sending item unsent) :
    exchange.poll =
      (some item, { exchange with producer := .between unsent }) := by
  have unfinished : ¬exchange.finished = true := by
    apply unfinished_of_left sound
    intro gone
    rw [sending] at gone
    cases gone
  have empty : exchange.queue = [] :=
    List.length_eq_zero_iff.1 (Nat.le_zero.1 (sound.bounded 0 direct))
  rw [poll, if_neg unfinished, receive, empty, sending]
  simp only [direct, if_true]

/-- A turn is a move of the channel, with the item that it answers, or none. -/
theorem turn_channel (sound : exchange.Sound ending) (turn : Turn) :
    (exchange.turn turn).2.Sound ending ∧
      ∃ moves,
        Channel.run moves exchange.channel =
          (returned (exchange.turn turn).1.toList,
            (exchange.turn turn).2.channel) := by
  have called
      {after : Exchange ε}
      {answer : Option (StreamItem ε)}
      (found : exchange.next? = some (answer, after)) :
      after.Sound ending ∧
        Channel.run [.poll] exchange.channel =
          (returned [answer], after.channel) := by
    obtain ⟨looked, soundAfter⟩ := next?_channel sound found
    refine ⟨soundAfter, ?_⟩
    rw [Channel.run, Channel.move, looked]
    cases answer <;> rfl
  cases turn with
  | produce =>
      refine ⟨sound.produce, ?_⟩
      rcases produce_channel sound with moved | same
      · exact ⟨[.produce], by rw [turn, moved]; rfl⟩
      · exact ⟨[], by rw [turn, same]; rfl⟩
  | poll =>
      rw [turn, poll_eq]
      cases found : exchange.next? with
      | none => exact ⟨sound, [], rfl⟩
      | some result => exact ⟨(called found).1, _, (called found).2⟩
  | next =>
      rw [turn]
      cases found : exchange.next? with
      | none => exact ⟨sound, [], rfl⟩
      | some result => exact ⟨(called found).1, _, (called found).2⟩

end Step

variable {ending : Ending}

/-- Turns are moves of the channel, with the items that they answer. -/
theorem run_channel
    {exchange : Exchange ε}
    (sound : exchange.Sound ending)
    (turns : List Turn) :
    (run turns exchange).2.Sound ending ∧
      ∃ moves,
        Channel.run moves exchange.channel =
          (returned (run turns exchange).1,
            (run turns exchange).2.channel) := by
  induction turns generalizing exchange with
  | nil => exact ⟨sound, [], rfl⟩
  | cons first rest inductionHypothesis =>
      obtain ⟨soundAfter, moves, moved⟩ := turn_channel sound first
      obtain ⟨soundLast, others, later⟩ := inductionHypothesis soundAfter
      refine ⟨soundLast, moves ++ others, ?_⟩
      rw [Channel.run_append, moved, later]
      simp [run, returned]

/-- What is still to come, as the channel tells it. -/
theorem run_pending
    {exchange : Exchange ε}
    (sound : exchange.Sound ending)
    (turns : List Turn) :
    returned (run turns exchange).1 ++ (run turns exchange).2.channel.pending =
      exchange.channel.pending := by
  obtain ⟨_, moves, moved⟩ := run_channel sound turns
  have taken := (Channel.run_pending exchange.settled_channel moves).1
  rwa [moved] at taken

theorem next?_pending
    {exchange after : Exchange ε}
    {answer : Option (StreamItem ε)}
    (sound : exchange.Sound ending)
    (found : exchange.next? = some (answer, after)) :
    answer.toList ++ after.channel.pending = exchange.channel.pending := by
  have taken := (Channel.poll_pending exchange.settled_channel).1
  rwa [(next?_channel sound found).1] at taken

theorem produce_pending
    {exchange : Exchange ε}
    (sound : exchange.Sound ending) :
    exchange.produce.channel.pending = exchange.channel.pending := by
  rcases produce_channel sound with moved | same
  · rw [moved]
    exact (Channel.produce_pending exchange.settled_channel).1
  · rw [same]

private theorem finished_close (exchange : Exchange ε) :
    exchange.close.2.finished = true := by
  unfold close
  cases exchange.unjoined with
  | false => rfl
  | true => cases exchange.ending <;> rfl

/-- A wait answers nothing only at the end, with nothing left to come. -/
theorem next?_none
    {exchange after : Exchange ε}
    (sound : exchange.Sound ending)
    (found : exchange.next? = some (none, after)) :
    after.finished = true ∧ exchange.channel.pending = [] := by
  have finished : after.finished = true := by
    unfold next? at found
    split at found
    · next finished =>
        cases found
        exact finished
    · split at found
      · cases found
      · cases found
      · next behind _ =>
          have closed := finished_close behind
          rw [Option.some.inj found] at closed
          exact closed
  refine ⟨finished, ?_⟩
  rw [← next?_pending sound found]
  exact if_pos finished

/-- Steps of the producer, one after the other. -/
def producing : Nat → Exchange ε → Exchange ε
  | 0, exchange => exchange
  | count + 1, exchange => producing count exchange.produce

theorem producing_pending
    {exchange : Exchange ε}
    (sound : exchange.Sound ending)
    (count : Nat) :
    (exchange.producing count).Sound ending ∧
      (exchange.producing count).channel.pending =
        exchange.channel.pending := by
  induction count generalizing exchange with
  | zero => exact ⟨sound, rfl⟩
  | succ count inductionHypothesis =>
      obtain ⟨soundLast, same⟩ := inductionHypothesis sound.produce
      exact ⟨soundLast, same.trans (produce_pending sound)⟩

/-- A wait comes to an end as soon as the producer has moved a few times. -/
theorem exists_next? (exchange : Exchange ε) :
    ∃ count result, (exchange.producing count).next? = some result := by
  obtain ⟨capacity, ending, producer, queue, unjoined, finished⟩ := exchange
  cases finished with
  | true => exact ⟨0, _, rfl⟩
  | false =>
      match queue, producer with
      | item :: rest, producer => exact ⟨0, _, rfl⟩
      | [], .gone => exact ⟨0, _, rfl⟩
      | [], .between [] => exact ⟨1, _, rfl⟩
      | [], .sending item rest =>
          match capacity with
          | none => exact ⟨1, _, rfl⟩
          | some 0 => exact ⟨0, _, rfl⟩
          | some (_ + 1) => exact ⟨1, _, rfl⟩
      | [], .between (item :: rest) =>
          match capacity with
          | none => exact ⟨2, _, rfl⟩
          | some 0 => exact ⟨1, _, rfl⟩
          | some (_ + 1) => exact ⟨2, _, rfl⟩

private theorem collects_of_producing
    {exchange : Exchange ε}
    {answer : Except EngineError (List ε)}
    (count : Nat)
    (later : Collects (exchange.producing count) answer) :
    Collects exchange answer := by
  induction count generalizing exchange with
  | zero => exact later
  | succ count inductionHypothesis =>
      exact .produce (inductionHypothesis later)

/-- Taking everything comes to an end, with what is still to come. -/
theorem collects_pending
    {exchange : Exchange ε}
    (sound : exchange.Sound ending) :
    Collects exchange (Channel.events? exchange.channel.pending) := by
  generalize left : exchange.channel.pending.length = count
  induction count using Nat.strongRecOn generalizing exchange with
  | ind count inductionHypothesis =>
      obtain ⟨moves, ⟨answer, after⟩, found⟩ := exchange.exists_next?
      obtain ⟨soundThen, same⟩ := producing_pending sound moves
      have taken := next?_pending soundThen found
      apply collects_of_producing moves
      rw [← same] at left ⊢
      match answer, found with
      | none, found =>
          rw [(next?_none soundThen found).2]
          exact .ended found
      | some (.error error), found =>
          rw [← taken]
          exact .error found
      | some (.ok event), found =>
          rw [← taken] at left ⊢
          have fewer : after.channel.pending.length < count := by
            rw [← left]
            exact Nat.lt_succ_self _
          exact .event found
            (inductionHypothesis _ fewer (next?_channel soundThen found).2 rfl)

/-- However the producer moves, taking everything answers the same. -/
theorem eq_of_collects
    {exchange : Exchange ε}
    {answer : Except EngineError (List ε)}
    (sound : exchange.Sound ending)
    (collects : Collects exchange answer) :
    answer = Channel.events? exchange.channel.pending := by
  induction collects with
  | produce later inductionHypothesis =>
      rw [inductionHypothesis sound.produce, produce_pending sound]
  | event found later inductionHypothesis =>
      rw [← next?_pending sound found,
        inductionHypothesis (next?_channel sound found).2]
      rfl
  | error found =>
      rw [← next?_pending sound found]
      rfl
  | ended found =>
      rw [(next?_none sound found).2]
      rfl

/-- What items come to: all their events, or the first error among them. -/
inductive Collected : List (StreamItem ε) → Except EngineError (List ε) → Prop
    where
  | all (events : List ε) : Collected (events.map .ok) (.ok events)
  | error (events : List ε) (error : EngineError) (rest : List (StreamItem ε)) :
      Collected (events.map .ok ++ .error error :: rest) (.error error)

theorem collected_events? (items : List (StreamItem ε)) :
    Collected items (Channel.events? items) := by
  induction items with
  | nil => exact .all []
  | cons item rest inductionHypothesis =>
      cases item with
      | error error => exact .error [] error rest
      | ok event =>
          rw [Channel.events?]
          generalize Channel.events? rest = answer at inductionHypothesis ⊢
          cases inductionHypothesis with
          | all events => exact .all (event :: events)
          | error events error rest => exact .error (event :: events) error rest

/--
What the consumer of a stream has got by its calls, when the producer has items
to send and then ends.
-/
structure Delivers (items : List (StreamItem ε)) (ending : Ending)
    (answers : List (Option (StreamItem ε))) (last : Exchange ε) : Prop where
  /-- What was returned and what waits was sent, in order; the rest is unsent. -/
  inOrder :
    last.finished = false →
      returned answers ++ (last.queue ++ last.producer.offered) ++
          last.producer.unsent =
        items
  /-- At the end every item was returned, and then that the producer crashed. -/
  whole :
    last.finished = true → returned answers = items ++ Channel.notice ending
  /-- A wait that answers nothing is a wait behind all of this. -/
  ended :
    ∀ after, last.next? = some (none, after) →
      after.finished = true ∧
        returned answers = items ++ Channel.notice ending
  /-- A look answers the item that waits first in the queue, -/
  looks :
    ∀ item rest, last.queue = item :: rest →
      last.poll = (some item, { last with queue := rest })
  /-- or, where the queue holds none, the item that is being sent. -/
  handsOver :
    last.capacity = some 0 →
      ∀ item unsent, last.producer = .sending item unsent →
        last.poll = (some item, { last with producer := .between unsent })
  /-- It answers what a wait does that ends at once, and else nothing. -/
  agrees : last.poll = last.next?.getD (none, last)
  /-- Behind the end every call answers nothing. -/
  silent :
    last.finished = true →
      ∀ more, ∀ answer ∈ (run more last).1, answer = none
  /-- A wait comes to an end. -/
  returns : ∃ count result, (last.producing count).next? = some result
  /-- Taking everything answers in one way, whenever the producer moves. -/
  collects : ∀ answer, last.Collects answer ↔ answer = last.channel.finish
  /-- It answers what the items come to that were not returned before. -/
  finish :
    ∀ rest, returned answers ++ rest = items ++ Channel.notice ending →
      Collected rest last.channel.finish

private theorem turn_of_finished
    {exchange : Exchange ε}
    (finished : exchange.finished = true)
    (turn : Turn) :
    (exchange.turn turn).2.finished = true ∧
      ∀ answer ∈ (exchange.turn turn).1, answer = none := by
  have waited : exchange.next? = some (none, exchange) := by
    rw [next?, if_pos finished]
  cases turn with
  | produce =>
      refine ⟨(finished_produce exchange).trans finished, ?_⟩
      intro answer given
      cases given
  | poll =>
      rw [Exchange.turn, poll_eq, waited]
      refine ⟨finished, ?_⟩
      intro answer given
      exact (Option.some.inj given).symm
  | next =>
      rw [Exchange.turn, waited]
      refine ⟨finished, ?_⟩
      intro answer given
      exact (Option.some.inj given).symm

theorem run_of_finished
    {exchange : Exchange ε}
    (finished : exchange.finished = true)
    (turns : List Turn) :
    ∀ answer ∈ (run turns exchange).1, answer = none := by
  induction turns generalizing exchange with
  | nil =>
      intro answer member
      cases member
  | cons first rest inductionHypothesis =>
      obtain ⟨finishedAfter, silent⟩ := turn_of_finished finished first
      intro answer member
      rcases List.mem_append.1 member with now | later
      · exact silent answer (Option.mem_toList.1 now)
      · exact inductionHypothesis finishedAfter answer later

/-- What is still to come before the end: what waits, then what is unsent. -/
private theorem pending_of_unfinished
    {exchange : Exchange ε}
    (sound : exchange.Sound ending)
    (unfinished : exchange.finished = false) :
    exchange.channel.pending =
      exchange.queue ++ exchange.producer.offered ++
          exchange.producer.unsent ++ Channel.notice ending := by
  have notFinished : ¬exchange.channel.finished = true := by
    rw [show exchange.channel.finished = false from unfinished]
    exact Bool.false_ne_true
  rw [← sound.ends, List.append_assoc]
  exact if_neg notFinished

/--
When what was returned and what is still to come are the items and the notice of
the end, the consumer has got what it should.
-/
theorem delivers_of_accounted
    {items : List (StreamItem ε)}
    {answers : List (Option (StreamItem ε))}
    {last : Exchange ε}
    (sound : last.Sound ending)
    (accounted :
      returned answers ++ last.channel.pending =
        items ++ Channel.notice ending) :
    Delivers items ending answers last := by
  have finishing :
      last.channel.finish = Channel.events? last.channel.pending :=
    congrArg Channel.events? (Channel.drain_pending last.settled_channel)
  exact {
    inOrder := by
      intro unfinished
      rw [pending_of_unfinished sound unfinished, ← List.append_assoc,
        ← List.append_assoc] at accounted
      exact List.append_cancel_right accounted
    whole := by
      intro finished
      have nothing : last.channel.pending = [] := if_pos finished
      rwa [nothing, List.append_nil] at accounted
    ended := by
      intro after found
      obtain ⟨finished, nothing⟩ := next?_none sound found
      rw [nothing, List.append_nil] at accounted
      exact ⟨finished, accounted⟩
    looks := fun item rest waiting => poll_of_waiting sound waiting
    handsOver := fun direct item unsent sending =>
      poll_of_sending sound direct sending
    agrees := last.poll_eq
    silent := run_of_finished
    returns := last.exists_next?
    collects := by
      intro answer
      rw [finishing]
      constructor
      · exact eq_of_collects sound
      · rintro rfl
        exact collects_pending sound
    finish := by
      intro rest whole
      rw [← whole] at accounted
      rw [finishing, List.append_cancel_left accounted]
      exact collected_events? rest }

/--
Whatever the capacity of a channel, the items a producer sends, how it ends and
whose turn it is when: the consumer gets every item once, in order, then that
the producer crashed if it did, and then nothing any more, and a look finds what
waits.  The channel gets the same by moves of its own.
-/
theorem delivers_every_item
    (capacity : Option Nat)
    (items : List (StreamItem ε))
    (ending : Ending)
    (turns : List Turn) :
    Delivers items ending (run turns (opened capacity items ending)).1
        (run turns (opened capacity items ending)).2 ∧
      ∃ moves,
        Channel.run moves (.opened capacity items ending) =
          (returned (run turns (opened capacity items ending)).1,
            (run turns (opened capacity items ending)).2.channel) := by
  have start := sound_opened capacity items ending
  have accounted :
      returned (run turns (opened capacity items ending)).1 ++
          (run turns (opened capacity items ending)).2.channel.pending =
        items ++ Channel.notice ending :=
    run_pending start turns
  obtain ⟨sound, moves, moved⟩ := run_channel start turns
  exact ⟨delivers_of_accounted sound accounted, moves, moved⟩

/-- Without a queue an item is handed over when its send is under way. -/
example :
    (run [.next, .produce, .poll, .produce, .next, .poll]
        (opened (some 0) [.ok true] .crashed)).1 =
      [some (.ok true), some (.error .producerStopped), none] :=
  rfl

end Exchange

end VerbChain
