import VerbChain.Evaluation.Walk

namespace VerbChain

/-!
# What a walk did

A walk is accounted for by the deeds it did, in order: each handler it invoked
and each output it delivered.  `Account` says which deeds, which answer and
which world a walk may have.  Calls in front complete one after the other, and
the walk ends behind the last one or at the first call that halts it: because
the token is cancelled, because no handler has the verb, because the handler
fails, or because the sink wants no more.

A walk keeps no record of its own.  Its handlers and its sink are therefore
made to record themselves in a log beside the state, which none of them sees.
-/

/-- One thing a walk did. -/
inductive Deed (κ ω : Type) where
  | invoked (verb : String) (bag : Bag) (context : κ)
  | delivered (call : Call) (output : ω)

/-- The same world with a log beside its state. -/
def World.logging (world : World σ) (log : List δ) : World (σ × List δ) :=
  ⟨world.token, (world.state, log)⟩

theorem World.logging_injective
    {left right : World σ}
    {leftLog rightLog : List δ}
    (same : left.logging leftLog = right.logging rightLog) :
    left = right ∧ leftLog = rightLog := by
  cases left
  cases right
  simp only [logging, World.mk.injEq, Prod.mk.injEq] at same
  obtain ⟨rfl, rfl, rfl⟩ := same
  exact ⟨rfl, rfl⟩

/-- Every value of a table replaced by what its key and it give. -/
def Table.mapEntries (view : String → α → β) (table : Table α) : Table β where
  entries := table.entries.map fun entry => (entry.1, view entry.1 entry.2)
  ordered := List.pairwise_map.2 table.ordered

/-- Looking up a replaced value finds what the key and the old value give. -/
theorem Table.find?_mapEntries
    (view : String → α → β)
    (table : Table α)
    (key : String) :
    (table.mapEntries view).find? key = (table.find? key).map (view key) := by
  show (table.entries.map _).lookup key = _
  unfold find?
  induction table.entries with
  | nil => rfl
  | cons entry rest inductionHypothesis =>
      obtain ⟨other, value⟩ := entry
      simp only [List.map_cons, lookup_cons_eq_ite, inductionHypothesis]
      split
      · next same =>
          rw [same]
          rfl
      · rfl

/-- A handler that records that it was invoked under a verb. -/
def Handler.recording (verb : String) (handler : Handler σ κ ω) :
    Handler (σ × List (Deed κ ω)) κ ω :=
  fun bag context world =>
    match handler bag context ⟨world.token, world.state.1⟩ with
    | (answer, next) =>
        (answer, next.logging (world.state.2 ++ [.invoked verb bag context]))

/-- A sink that records every output that it was given. -/
def Sink.recording (sink : Sink τ σ ω) : Sink τ (σ × List (Deed κ ω)) ω :=
  fun call output received world =>
    match sink call output received ⟨world.token, world.state.1⟩ with
    | (flow, taken, next) =>
        (flow, taken, next.logging (world.state.2 ++ [.delivered call output]))

/-- Handlers that all record that they were invoked. -/
def Registry.recording (registry : Registry σ κ ω) :
    Registry (σ × List (Deed κ ω)) κ ω :=
  registry.mapEntries Handler.recording

/-- A verb has a handler that records itself when it has a handler. -/
theorem Registry.find?_recording
    (registry : Registry σ κ ω)
    (verb : String) :
    registry.recording.find? verb =
      (registry.find? verb).map (Handler.recording verb) :=
  Table.find?_mapEntries Handler.recording registry verb

theorem Registry.find?_recording_of_eq
    {registry : Registry σ κ ω}
    {verb : String}
    {handler : Handler σ κ ω}
    (found : registry.find? verb = some handler) :
    registry.recording.find? verb = some (handler.recording verb) := by
  rw [find?_recording, found]
  rfl

/-- A handler that records itself acts as before. -/
theorem Handler.recording_of_eq
    {handler : Handler σ κ ω}
    {bag : Bag}
    {context : κ}
    {world next : World σ}
    {answer : Except HandlerError (Outcome κ ω)}
    (ran : handler bag context world = (answer, next))
    (verb : String)
    (log : List (Deed κ ω)) :
    handler.recording verb bag context (world.logging log) =
      (answer, next.logging (log ++ [.invoked verb bag context])) := by
  unfold recording World.logging
  rw [ran]

/-- A sink that records what it is given takes it as before. -/
theorem Sink.recording_of_eq
    {sink : Sink τ σ ω}
    {call : Call}
    {output : ω}
    {received taken : τ}
    {world next : World σ}
    {flow : Flow}
    (delivered : sink call output received world = (flow, taken, next))
    (log : List (Deed κ ω)) :
    sink.recording call output received (world.logging log) =
      (flow, taken, next.logging (log ++ [.delivered call output])) := by
  unfold recording World.logging
  rw [delivered]

/-- Where a walk stands between two calls. -/
structure Moment (κ τ σ : Type) where
  context : κ
  received : τ
  world : World σ

/-- The same moment with a log beside the state. -/
def Moment.logging (moment : Moment κ τ σ) (log : List δ) :
    Moment κ τ (σ × List δ) :=
  ⟨moment.context, moment.received, moment.world.logging log⟩

/--
A call completes: the token is not cancelled, the verb's handler succeeds and
the sink takes the output and wants more.
-/
inductive Completes (registry : Registry σ κ ω) (sink : Sink τ σ ω)
    (call : Call) :
    Moment κ τ σ → List (Deed κ ω) → Moment κ τ σ → Prop where
  | proceed
      {context : κ}
      {received taken : τ}
      {world acted last : World σ}
      {handler : Handler σ κ ω}
      {outcome : Outcome κ ω}
      (live : world.token.isCancelled = false)
      (found : registry.find? call.name = some handler)
      (ran :
        handler (.ofArguments call.arguments) context world =
          (.ok outcome, acted))
      (delivered :
        sink call outcome.output received acted = (.proceed, taken, last)) :
      Completes registry sink call ⟨context, received, world⟩
        [.invoked call.name (.ofArguments call.arguments) context,
          .delivered call outcome.output]
        ⟨outcome.context.getD context, taken, last⟩

/-- Calls complete one after the other. -/
inductive CompletesAll (registry : Registry σ κ ω) (sink : Sink τ σ ω) :
    Moment κ τ σ → List Call → List (Deed κ ω) → Moment κ τ σ → Prop where
  | nil (moment : Moment κ τ σ) :
      CompletesAll registry sink moment [] [] moment
  | cons
      {start middle final : Moment κ τ σ}
      {call : Call}
      {rest : List Call}
      {deeds later : List (Deed κ ω)}
      (first : Completes registry sink call start deeds middle)
      (others : CompletesAll registry sink middle rest later final) :
      CompletesAll registry sink start (call :: rest) (deeds ++ later) final

/--
The call behind a number of completed ones halts the walk, with an answer,
some last deeds, and what they leave in the sink and in the world.  The ways to
halt are in the order in which they are looked for.
-/
inductive Halts (registry : Registry σ κ ω) (sink : Sink τ σ ω)
    (completed : Nat) (call : Call) :
    Moment κ τ σ → Except EngineError Nat → List (Deed κ ω) → τ → World σ →
      Prop where
  | cancelled
      {context : κ}
      {received : τ}
      {world : World σ}
      (cancelled : world.token.isCancelled = true) :
      Halts registry sink completed call ⟨context, received, world⟩
        (.error (.cancelled completed)) [] received world
  | unknown
      {context : κ}
      {received : τ}
      {world : World σ}
      (live : world.token.isCancelled = false)
      (missing : registry.find? call.name = none) :
      Halts registry sink completed call ⟨context, received, world⟩
        (.error (.unknownCall call.name)) [] received world
  | failed
      {context : κ}
      {received : τ}
      {world acted : World σ}
      {handler : Handler σ κ ω}
      {cause : HandlerError}
      (live : world.token.isCancelled = false)
      (found : registry.find? call.name = some handler)
      (ran :
        handler (.ofArguments call.arguments) context world =
          (.error cause, acted)) :
      Halts registry sink completed call ⟨context, received, world⟩
        (.error (.handler call.name cause))
        [.invoked call.name (.ofArguments call.arguments) context]
        received acted
  | stopped
      {context : κ}
      {received taken : τ}
      {world acted last : World σ}
      {handler : Handler σ κ ω}
      {outcome : Outcome κ ω}
      (live : world.token.isCancelled = false)
      (found : registry.find? call.name = some handler)
      (ran :
        handler (.ofArguments call.arguments) context world =
          (.ok outcome, acted))
      (delivered :
        sink call outcome.output received acted = (.stop, taken, last)) :
      Halts registry sink completed call ⟨context, received, world⟩
        (.ok (completed + 1))
        [.invoked call.name (.ofArguments call.arguments) context,
          .delivered call outcome.output]
        taken last

/-- What a walk of calls answers, does and leaves. -/
inductive Account (registry : Registry σ κ ω) (sink : Sink τ σ ω)
    (calls : List Call) (start : Moment κ τ σ) :
    Except EngineError Nat → List (Deed κ ω) → τ → World σ → Prop where
  | finished
      {deeds : List (Deed κ ω)}
      {final : Moment κ τ σ}
      (all : CompletesAll registry sink start calls deeds final) :
      Account registry sink calls start (.ok calls.length) deeds
        final.received final.world
  | halted
      {done rest : List Call}
      {call : Call}
      {moment : Moment κ τ σ}
      {answer : Except EngineError Nat}
      {deeds last : List (Deed κ ω)}
      {received : τ}
      {world : World σ}
      (shape : calls = done ++ call :: rest)
      (before : CompletesAll registry sink start done deeds moment)
      (halts :
        Halts registry sink done.length call moment answer last received
          world) :
      Account registry sink calls start answer (deeds ++ last) received world

section Step

variable {registry : Registry σ κ ω} {sink : Sink τ σ ω} {call : Call}

/-- A call at a moment either completes or halts the walk. -/
theorem completes_or_halts
    (registry : Registry σ κ ω)
    (sink : Sink τ σ ω)
    (completed : Nat)
    (call : Call)
    (moment : Moment κ τ σ) :
    (∃ deeds after, Completes registry sink call moment deeds after) ∨
      ∃ answer deeds received world,
        Halts registry sink completed call moment answer deeds received
          world := by
  obtain ⟨context, received, world⟩ := moment
  cases cancelled : world.token.isCancelled with
  | true => exact .inr ⟨_, _, _, _, .cancelled cancelled⟩
  | false =>
      cases found : registry.find? call.name with
      | none => exact .inr ⟨_, _, _, _, .unknown cancelled found⟩
      | some handler =>
          rcases ran : handler (.ofArguments call.arguments) context world
            with ⟨answer, acted⟩
          cases answer with
          | error cause => exact .inr ⟨_, _, _, _, .failed cancelled found ran⟩
          | ok outcome =>
              rcases delivered : sink call outcome.output received acted
                with ⟨flow, taken, last⟩
              cases flow with
              | proceed =>
                  exact .inl ⟨_, _, .proceed cancelled found ran delivered⟩
              | stop =>
                  exact .inr
                    ⟨_, _, _, _, .stopped cancelled found ran delivered⟩

/-- A walk goes on behind a call that completes. -/
theorem walkFrom_of_completes
    {start after : Moment κ τ σ}
    {deeds : List (Deed κ ω)}
    (completed : Nat)
    (rest : List Call)
    (completes : Completes registry sink call start deeds after) :
    Evaluation.walkFrom registry sink completed start.context (call :: rest)
        start.received start.world =
      Evaluation.walkFrom registry sink (completed + 1) after.context rest
        after.received after.world := by
  cases completes with
  | proceed live found ran delivered =>
      simp [Evaluation.walkFrom, Evaluation.dispatch, live, found, ran,
        delivered]

/-- A walk ends at a call that halts it. -/
theorem walkFrom_of_halts
    {moment : Moment κ τ σ}
    {answer : Except EngineError Nat}
    {deeds : List (Deed κ ω)}
    {received : τ}
    {world : World σ}
    {completed : Nat}
    (rest : List Call)
    (halts :
      Halts registry sink completed call moment answer deeds received world) :
    Evaluation.walkFrom registry sink completed moment.context (call :: rest)
        moment.received moment.world =
      (answer, received, world) := by
  cases halts with
  | cancelled cancelled => simp [Evaluation.walkFrom, cancelled]
  | unknown live missing =>
      simp [Evaluation.walkFrom, Evaluation.dispatch, live, missing]
  | failed live found ran =>
      simp [Evaluation.walkFrom, Evaluation.dispatch, live, found, ran]
  | stopped live found ran delivered =>
      simp [Evaluation.walkFrom, Evaluation.dispatch, live, found, ran,
        delivered]

/-- Recording itself, a call completes as before and leaves its deeds. -/
theorem Completes.recording
    {start after : Moment κ τ σ}
    {deeds : List (Deed κ ω)}
    (completes : Completes registry sink call start deeds after)
    (log : List (Deed κ ω)) :
    Completes registry.recording sink.recording call (start.logging log) deeds
      (after.logging (log ++ deeds)) := by
  cases completes with
  | @proceed context received taken world acted last handler outcome live found
      ran delivered =>
      have recorded := Registry.find?_recording_of_eq found
      have acts := Handler.recording_of_eq ran call.name log
      have takes :=
        Sink.recording_of_eq delivered
          (log ++ [.invoked call.name (.ofArguments call.arguments) context])
      rw [List.append_assoc] at takes
      exact .proceed live recorded acts takes

/-- Recording itself, a call halts a walk as before and leaves its deeds. -/
theorem Halts.recording
    {moment : Moment κ τ σ}
    {answer : Except EngineError Nat}
    {deeds : List (Deed κ ω)}
    {received : τ}
    {world : World σ}
    {completed : Nat}
    (halts :
      Halts registry sink completed call moment answer deeds received world)
    (log : List (Deed κ ω)) :
    Halts registry.recording sink.recording completed call
      (moment.logging log) answer deeds received
      (world.logging (log ++ deeds)) := by
  cases halts with
  | cancelled cancelled =>
      rw [List.append_nil]
      exact .cancelled cancelled
  | unknown live missing =>
      rw [List.append_nil]
      refine .unknown live ?_
      rw [Registry.find?_recording, missing]
      rfl
  | failed live found ran =>
      exact .failed live (Registry.find?_recording_of_eq found)
        (Handler.recording_of_eq ran call.name log)
  | @stopped context received taken world acted last handler outcome live found
      ran delivered =>
      have recorded := Registry.find?_recording_of_eq found
      have acts := Handler.recording_of_eq ran call.name log
      have takes :=
        Sink.recording_of_eq delivered
          (log ++ [.invoked call.name (.ofArguments call.arguments) context])
      rw [List.append_assoc] at takes
      exact .stopped live recorded acts takes

end Step

section Run

variable {registry : Registry σ κ ω} {sink : Sink τ σ ω}

/-- A walk goes on behind calls that all complete. -/
theorem walkFrom_of_completesAll
    {start final : Moment κ τ σ}
    {done : List Call}
    {deeds : List (Deed κ ω)}
    (completed : Nat)
    (rest : List Call)
    (all : CompletesAll registry sink start done deeds final) :
    Evaluation.walkFrom registry sink completed start.context (done ++ rest)
        start.received start.world =
      Evaluation.walkFrom registry sink (completed + done.length)
        final.context rest final.received final.world := by
  induction all generalizing completed with
  | nil moment => rfl
  | cons first others inductionHypothesis =>
      rw [List.cons_append, walkFrom_of_completes completed _ first,
        inductionHypothesis, List.length_cons, Nat.add_assoc, Nat.add_comm 1]

/-- Recording themselves, calls complete as before and leave their deeds. -/
theorem CompletesAll.recording
    {start final : Moment κ τ σ}
    {done : List Call}
    {deeds : List (Deed κ ω)}
    (all : CompletesAll registry sink start done deeds final)
    (log : List (Deed κ ω)) :
    CompletesAll registry.recording sink.recording (start.logging log) done
      deeds (final.logging (log ++ deeds)) := by
  induction all generalizing log with
  | nil moment =>
      rw [List.append_nil]
      exact .nil _
  | cons first others inductionHypothesis =>
      rw [← List.append_assoc]
      exact .cons (first.recording log) (inductionHypothesis _)

/-- A walk answers and leaves what it is accounted for. -/
theorem walkFrom_of_account
    {calls : List Call}
    {start : Moment κ τ σ}
    {answer : Except EngineError Nat}
    {deeds : List (Deed κ ω)}
    {received : τ}
    {world : World σ}
    (account : Account registry sink calls start answer deeds received world) :
    Evaluation.walkFrom registry sink 0 start.context calls start.received
        start.world =
      (answer, received, world) := by
  cases account with
  | finished all =>
      have walked := walkFrom_of_completesAll 0 [] all
      rw [List.append_nil, Nat.zero_add] at walked
      exact walked
  | halted shape before halts =>
      rw [shape, walkFrom_of_completesAll 0 _ before, Nat.zero_add]
      exact walkFrom_of_halts _ halts

/-- A walk that records itself leaves the deeds it is accounted for. -/
theorem Account.recording
    {calls : List Call}
    {start : Moment κ τ σ}
    {answer : Except EngineError Nat}
    {deeds : List (Deed κ ω)}
    {received : τ}
    {world : World σ}
    (account : Account registry sink calls start answer deeds received world)
    (log : List (Deed κ ω)) :
    Account registry.recording sink.recording calls (start.logging log) answer
      deeds received (world.logging (log ++ deeds)) := by
  cases account with
  | finished all => exact .finished (all.recording log)
  | halted shape before halts =>
      rw [← List.append_assoc]
      exact .halted shape (before.recording log) (halts.recording _)

/-- Calls all complete, or one of them halts behind those that do. -/
theorem completesAll_or_halts
    (registry : Registry σ κ ω)
    (sink : Sink τ σ ω)
    (completed : Nat)
    (calls : List Call)
    (start : Moment κ τ σ) :
    (∃ deeds final, CompletesAll registry sink start calls deeds final) ∨
      ∃ done call rest deeds moment answer last received world,
        calls = done ++ call :: rest ∧
          CompletesAll registry sink start done deeds moment ∧
          Halts registry sink (completed + done.length) call moment answer
            last received world := by
  induction calls generalizing completed start with
  | nil => exact .inl ⟨[], start, .nil start⟩
  | cons call calls inductionHypothesis =>
      rcases completes_or_halts registry sink completed call start with
        ⟨deeds, middle, first⟩ | ⟨answer, last, received, world, halts⟩
      · rcases inductionHypothesis (completed + 1) middle with
          ⟨later, final, others⟩ | ⟨done, halting, rest, later, moment, answer,
            last, received, world, shape, before, halts⟩
        · exact .inl ⟨deeds ++ later, final, .cons first others⟩
        · rw [Nat.add_assoc, Nat.add_comm 1] at halts
          exact .inr ⟨call :: done, halting, rest, deeds ++ later, moment,
            answer, last, received, world, by rw [shape, List.cons_append],
            .cons first before, halts⟩
      · exact .inr ⟨[], call, calls, [], start, answer, last, received, world,
          rfl, .nil start, halts⟩

/-- Every walk is accounted for. -/
theorem exists_account
    (registry : Registry σ κ ω)
    (sink : Sink τ σ ω)
    (calls : List Call)
    (start : Moment κ τ σ) :
    ∃ answer deeds received world,
      Account registry sink calls start answer deeds received world := by
  rcases completesAll_or_halts registry sink 0 calls start with
    ⟨deeds, final, all⟩ | ⟨done, call, rest, deeds, moment, answer, last,
      received, world, shape, before, halts⟩
  · exact ⟨_, _, _, _, .finished all⟩
  · rw [Nat.zero_add] at halts
    exact ⟨_, _, _, _, .halted shape before halts⟩

end Run

namespace Evaluation

/--
A walk whose handlers and sink record themselves gives an answer, leaves a sink
and a world, and leaves a log of deeds, exactly when these account for it: the
calls in front completed, and the walk ended behind the last call or at the
first that halted it.  Without the records it gives and leaves the same.
-/
theorem walk_iff_account
    (convention : Convention κ ω ε)
    (registry : Registry σ κ ω)
    (sink : Sink τ σ ω)
    (chain : Chain)
    (received after : τ)
    (world next : World σ)
    (answer : Except EngineError Nat)
    (log : List (Deed κ ω)) :
    (walk convention registry.recording sink.recording chain received
          (world.logging []) =
        (answer, after, next.logging log) ↔
      Account registry sink chain.calls ⟨convention.start, received, world⟩
        answer log after next) ∧
      (walk convention registry sink chain received world =
          (answer, after, next) ↔
        ∃ deeds, Account registry sink chain.calls
          ⟨convention.start, received, world⟩ answer deeds after next) := by
  obtain ⟨answered, deeds, taken, last, account⟩ :=
    exists_account registry sink chain.calls
      ⟨convention.start, received, world⟩
  have recorded := walkFrom_of_account (account.recording [])
  have walked := walkFrom_of_account account
  constructor
  · constructor
    · intro found
      -- A walk is a function, so the account it has is the one asked for.
      have same := recorded.symm.trans found
      simp only [Prod.mk.injEq] at same
      obtain ⟨rfl, rfl, worlds⟩ := same
      obtain ⟨rfl, rfl⟩ := World.logging_injective worlds
      exact account
    · intro given
      exact walkFrom_of_account (given.recording [])
  · constructor
    · intro found
      have same := walked.symm.trans found
      simp only [Prod.mk.injEq] at same
      obtain ⟨rfl, rfl, rfl⟩ := same
      exact ⟨deeds, account⟩
    · rintro ⟨others, given⟩
      exact walkFrom_of_account given

end Evaluation

end VerbChain
