import VerbChain.Proofs.Evaluation.Account

namespace VerbChain

/-!
# How far an evaluation gets

An evaluation keeps the output of every call it completes and drops them all
when a call fails.  How many calls completed, and with which outputs, is told
by the chain cut in front of the call that failed: cut there it is evaluated,
cut behind that call it fails, and calls further on do not matter.
-/

/-- The chain in front of the call with a number, counted from zero. -/
def Chain.cut (chain : Chain) (completed : Nat) : Chain :=
  ⟨chain.calls.take completed⟩

theorem Chain.cut_length (chain : Chain) :
    chain.cut chain.length = chain := by
  simp [cut, length]

theorem Chain.cut_append
    (done : List Call)
    (call : Call)
    (rest : List Call) :
    (Chain.mk (done ++ call :: rest)).cut done.length = ⟨done⟩ := by
  simp [cut]

private theorem Chain.cut_append_succ
    (done : List Call)
    (call : Call)
    (rest : List Call) :
    (Chain.mk (done ++ call :: rest)).cut (done.length + 1) =
      ⟨done ++ [call]⟩ := by
  simp [cut, List.take_append, List.take_of_length_le]

/--
How far the evaluation of a chain gets: how many calls complete, with which
outputs, and the error of the call behind them, unless there is none.
-/
inductive Evaluation.Reaches (convention : Convention κ ω ε)
    (registry : Registry σ κ ω) (chain : Chain) (world : World σ) :
    Nat → List ω → Option EngineError → World σ → Prop where
  | whole
      {outputs : List ω}
      {next : World σ}
      (evaluated :
        interpret convention registry chain world = (.ok outputs, next)) :
      Reaches convention registry chain world chain.length outputs none next
  | failing
      {completed : Nat}
      {outputs : List ω}
      {error : EngineError}
      {last next : World σ}
      (inside : completed < chain.length)
      (before :
        interpret convention registry (chain.cut completed) world =
          (.ok outputs, last))
      (behind :
        interpret convention registry (chain.cut (completed + 1)) world =
          (.error error, next))
      (evaluated :
        interpret convention registry chain world = (.error error, next)) :
      Reaches convention registry chain world completed outputs (some error)
        next

section Keeping

variable {registry : Registry σ κ ω}

/-- An evaluation keeps one output for each call that completes. -/
private theorem CompletesAll.length_received
    {done : List Call}
    {start final : Moment κ (List ω) σ}
    {deeds : List (Deed κ ω)}
    (all : CompletesAll registry Evaluation.keeping start done deeds final) :
    final.received.length = start.received.length + done.length := by
  induction all with
  | nil moment => rfl
  | cons first others inductionHypothesis =>
      cases first with
      | proceed live found ran delivered =>
          cases delivered
          rw [inductionHypothesis]
          simp
          omega

/-- An evaluation wants every output, so only an error halts it. -/
private theorem Halts.exists_error
    {call : Call}
    {moment : Moment κ (List ω) σ}
    {answer : Except EngineError Nat}
    {last : List (Deed κ ω)}
    {received : List ω}
    {next : World σ}
    {completed : Nat}
    (halts :
      Halts registry Evaluation.keeping completed call moment answer last
        received next) :
    ∃ error, answer = .error error := by
  cases halts with
  | cancelled cancelled => exact ⟨_, rfl⟩
  | unknown live missing => exact ⟨_, rfl⟩
  | failed live found ran => exact ⟨_, rfl⟩
  | stopped live found ran delivered => cases delivered

end Keeping

namespace Evaluation

variable {registry : Registry σ κ ω}

/-- Calls all complete for an evaluation, or one of them fails it. -/
theorem completesAll_or_fails
    (convention : Convention κ ω ε)
    (registry : Registry σ κ ω)
    (calls : List Call)
    (world : World σ) :
    (∃ deeds final,
      CompletesAll registry keeping ⟨convention.start, [], world⟩ calls deeds
        final) ∨
      ∃ done call rest deeds moment error last received next,
        calls = done ++ call :: rest ∧
          CompletesAll registry keeping ⟨convention.start, [], world⟩ done
            deeds moment ∧
          Halts registry keeping done.length call moment (.error error) last
            received next := by
  rcases completesAll_or_halts registry keeping 0 calls
      ⟨convention.start, [], world⟩ with
    all | ⟨done, call, rest, deeds, moment, answer, last, received, next,
      shape, before, halts⟩
  · exact .inl all
  · obtain ⟨error, rfl⟩ := halts.exists_error
    rw [Nat.zero_add] at halts
    exact .inr ⟨done, call, rest, deeds, moment, error, last, received, next,
      shape, before, halts⟩

/-- Calls that all complete are evaluated to the outputs that were kept. -/
theorem interpret_of_completesAll
    {convention : Convention κ ω ε}
    {calls : List Call}
    {world : World σ}
    {deeds : List (Deed κ ω)}
    {final : Moment κ (List ω) σ}
    (all :
      CompletesAll registry keeping ⟨convention.start, [], world⟩ calls deeds
        final) :
    interpret convention registry ⟨calls⟩ world =
      (.ok final.received, final.world) := by
  have walked := walkFrom_of_account (.finished all)
  rw [interpret, walk, walked]

/-- A call that halts behind completed ones fails the evaluation. -/
theorem interpret_of_halts
    {convention : Convention κ ω ε}
    {done : List Call}
    {call : Call}
    {world next : World σ}
    {deeds last : List (Deed κ ω)}
    {moment : Moment κ (List ω) σ}
    {error : EngineError}
    {received : List ω}
    (before :
      CompletesAll registry keeping ⟨convention.start, [], world⟩ done deeds
        moment)
    (halts :
      Halts registry keeping done.length call moment (.error error) last
        received next)
    (rest : List Call) :
    interpret convention registry ⟨done ++ call :: rest⟩ world =
      (.error error, next) := by
  have account :
      Account registry keeping (done ++ call :: rest)
        ⟨convention.start, [], world⟩ (.error error) (deeds ++ last) received
        next :=
    .halted rfl before halts
  have walked := walkFrom_of_account account
  rw [interpret, walk, walked]

/-- An evaluation gets behind calls that all complete. -/
theorem reaches_of_completesAll
    {convention : Convention κ ω ε}
    {calls : List Call}
    {world : World σ}
    {deeds : List (Deed κ ω)}
    {final : Moment κ (List ω) σ}
    (all :
      CompletesAll registry keeping ⟨convention.start, [], world⟩ calls deeds
        final) :
    Reaches convention registry ⟨calls⟩ world calls.length final.received none
      final.world :=
  .whole (interpret_of_completesAll all)

/-- An evaluation gets to the call that halts it. -/
theorem reaches_of_halts
    {convention : Convention κ ω ε}
    {done : List Call}
    {call : Call}
    {world next : World σ}
    {deeds last : List (Deed κ ω)}
    {moment : Moment κ (List ω) σ}
    {error : EngineError}
    {received : List ω}
    (before :
      CompletesAll registry keeping ⟨convention.start, [], world⟩ done deeds
        moment)
    (halts :
      Halts registry keeping done.length call moment (.error error) last
        received next)
    (rest : List Call) :
    Reaches convention registry ⟨done ++ call :: rest⟩ world done.length
      moment.received (some error) next := by
  have inside : done.length < (Chain.mk (done ++ call :: rest)).length := by
    simp [Chain.length]
  have front := interpret_of_completesAll before
  have behind := interpret_of_halts before halts []
  rw [← Chain.cut_append done call rest] at front
  rw [← Chain.cut_append_succ done call rest] at behind
  exact .failing inside front behind (interpret_of_halts before halts rest)

/-- An evaluation keeps one output for each call. -/
theorem length_of_interpret
    {convention : Convention κ ω ε}
    {chain : Chain}
    {world next : World σ}
    {outputs : List ω}
    (evaluated :
      interpret convention registry chain world = (.ok outputs, next)) :
    outputs.length = chain.length := by
  obtain ⟨calls⟩ := chain
  rcases completesAll_or_fails convention registry calls world with
    ⟨deeds, final, all⟩ | ⟨done, call, rest, deeds, moment, error, last,
      received, after, rfl, before, halts⟩
  · rw [interpret_of_completesAll all] at evaluated
    cases evaluated
    exact all.length_received.trans (Nat.zero_add _)
  · rw [interpret_of_halts before halts rest] at evaluated
    cases evaluated

/-- Calls behind the one that fails an evaluation do not matter to it. -/
theorem interpret_append_of_error
    {convention : Convention κ ω ε}
    {calls : List Call}
    {world next : World σ}
    {error : EngineError}
    (failed :
      interpret convention registry ⟨calls⟩ world = (.error error, next))
    (more : List Call) :
    interpret convention registry ⟨calls ++ more⟩ world =
      (.error error, next) := by
  rcases completesAll_or_fails convention registry calls world with
    ⟨deeds, final, all⟩ | ⟨done, call, rest, deeds, moment, cause, last,
      received, after, rfl, before, halts⟩
  · rw [interpret_of_completesAll all] at failed
    cases failed
  · rw [interpret_of_halts before halts rest] at failed
    rw [List.append_assoc, List.cons_append,
      interpret_of_halts before halts (rest ++ more), failed]

/-- A chain that fails when it is cut early fails alike when cut later. -/
theorem interpret_cut_of_error
    {convention : Convention κ ω ε}
    {chain : Chain}
    {world next : World σ}
    {error : EngineError}
    {early late : Nat}
    (failed :
      interpret convention registry (chain.cut early) world =
        (.error error, next))
    (inOrder : early ≤ late) :
    interpret convention registry (chain.cut late) world =
      (.error error, next) := by
  have shape :
      chain.cut late =
        ⟨(chain.cut early).calls ++ (chain.calls.take late).drop early⟩ := by
    have whole := List.take_append_drop early (chain.calls.take late)
    rw [List.take_take, Nat.min_eq_left inOrder] at whole
    exact congrArg Chain.mk whole.symm
  rw [shape]
  exact interpret_append_of_error failed _

/-- An evaluation gets to one place only. -/
theorem Reaches.unique
    {convention : Convention κ ω ε}
    {chain : Chain}
    {world next after : World σ}
    {completed number : Nat}
    {outputs others : List ω}
    {failure cause : Option EngineError}
    (left :
      Reaches convention registry chain world completed outputs failure next)
    (right :
      Reaches convention registry chain world number others cause after) :
    completed = number ∧ outputs = others ∧ failure = cause ∧
      next = after := by
  cases left with
  | whole evaluated =>
      cases right with
      | whole same =>
          rw [evaluated] at same
          cases same
          exact ⟨rfl, rfl, rfl, rfl⟩
      | failing inside before behind failed =>
          rw [evaluated] at failed
          cases failed
  | failing inside before behind failed =>
      cases right with
      | whole evaluated =>
          rw [evaluated] at failed
          cases failed
      | failing insideToo beforeToo behindToo failedToo =>
          rw [failed] at failedToo
          cases failedToo
          have sameNumber : completed = number := by
            -- The earlier of two different places fails the later one.
            rcases Nat.lt_trichotomy completed number with early | same | late
            · have fails := interpret_cut_of_error behind early
              rw [beforeToo] at fails
              cases fails
            · exact same
            · have fails := interpret_cut_of_error behindToo late
              rw [before] at fails
              cases fails
          subst sameNumber
          rw [before] at beforeToo
          cases beforeToo
          exact ⟨rfl, rfl, rfl, rfl⟩

/-- An evaluation keeps one output for each call it completes. -/
theorem Reaches.length_outputs
    {convention : Convention κ ω ε}
    {chain : Chain}
    {world next : World σ}
    {completed : Nat}
    {outputs : List ω}
    {failure : Option EngineError}
    (reaches :
      Reaches convention registry chain world completed outputs failure next) :
    outputs.length = (chain.cut completed).length := by
  cases reaches with
  | whole evaluated =>
      rw [Chain.cut_length]
      exact length_of_interpret evaluated
  | failing inside before behind failed => exact length_of_interpret before

end Evaluation

/--
Handlers act alike under all tokens that are not cancelled, and cancel none.
-/
def Registry.Steady (registry : Registry σ κ ω) : Prop :=
  ∀ verb handler, registry.find? verb = some handler →
    ∀ bag context state (first second : CancelToken),
      first.isCancelled = false → second.isCancelled = false →
        ∃ answer next firstAfter secondAfter,
          handler bag context ⟨first, state⟩ = (answer, ⟨firstAfter, next⟩) ∧
            handler bag context ⟨second, state⟩ =
              (answer, ⟨secondAfter, next⟩) ∧
            firstAfter.isCancelled = false ∧
            secondAfter.isCancelled = false

namespace Evaluation

/-- Where handlers are steady, walks under live tokens go alike. -/
theorem walkFrom_of_steady
    {registry : Registry σ κ ω}
    (steady : registry.Steady)
    (completed : Nat)
    (context : κ)
    (calls : List Call)
    (outputs : List ω)
    (state : σ)
    {first second : CancelToken}
    (firstLive : first.isCancelled = false)
    (secondLive : second.isCancelled = false) :
    ∃ answer received last firstAfter secondAfter,
      walkFrom registry keeping completed context calls outputs
            ⟨first, state⟩ =
          (answer, received, ⟨firstAfter, last⟩) ∧
        walkFrom registry keeping completed context calls outputs
            ⟨second, state⟩ =
          (answer, received, ⟨secondAfter, last⟩) := by
  induction calls generalizing completed context outputs state first second
    with
  | nil => exact ⟨_, _, _, _, _, rfl, rfl⟩
  | cons call rest inductionHypothesis =>
      cases found : registry.find? call.name with
      | none =>
          refine ⟨.error (.unknownCall call.name), outputs, state, first,
            second, ?_, ?_⟩
          · simp [walkFrom, dispatch, firstLive, found]
          · simp [walkFrom, dispatch, secondLive, found]
      | some handler =>
          obtain ⟨answer, next, firstAfter, secondAfter, ran, ranToo, live,
            liveToo⟩ :=
            steady call.name handler found (.ofArguments call.arguments)
              context state first second firstLive secondLive
          cases answer with
          | error cause =>
              refine ⟨.error (.handler call.name cause), outputs, next,
                firstAfter, secondAfter, ?_, ?_⟩
              · simp [walkFrom, dispatch, firstLive, found, ran]
              · simp [walkFrom, dispatch, secondLive, found, ranToo]
          | ok outcome =>
              obtain ⟨answer, received, last, firstLast, secondLast, walked,
                walkedToo⟩ :=
                inductionHypothesis (completed + 1)
                  (outcome.context.getD context)
                  (outputs ++ [outcome.output]) next live liveToo
              refine ⟨answer, received, last, firstLast, secondLast, ?_, ?_⟩
              · simp [walkFrom, dispatch, firstLive, found, ran, keeping,
                  walked]
              · simp [walkFrom, dispatch, secondLive, found, ranToo, keeping,
                  walkedToo]

/-- Where handlers are steady, evaluations under live tokens go alike. -/
theorem interpret_of_steady
    {registry : Registry σ κ ω}
    (steady : registry.Steady)
    (convention : Convention κ ω ε)
    (chain : Chain)
    (state : σ)
    {first second : CancelToken}
    (firstLive : first.isCancelled = false)
    (secondLive : second.isCancelled = false) :
    (interpret convention registry chain ⟨first, state⟩).1 =
      (interpret convention registry chain ⟨second, state⟩).1 := by
  obtain ⟨answer, received, last, firstAfter, secondAfter, walked,
    walkedToo⟩ :=
    walkFrom_of_steady steady 0 convention.start chain.calls [] state
      firstLive secondLive
  unfold interpret walk
  rw [walked, walkedToo]
  cases answer <;> rfl

end Evaluation

end VerbChain
