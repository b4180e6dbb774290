import VerbChain.Proofs.Evaluation.Account

namespace VerbChain

/-!
# The same calls in another world

The calls of a program may be evaluated twice, in different worlds and under
different tokens.  As long as handlers answer by their arguments and context,
both evaluations complete the same calls with the same outputs until one of
them finds its token cancelled, and they fail at the same call.
-/

/--
Handlers answer by their arguments and the context.  What they do to the world,
the token included, is left open.
-/
def Registry.AnswersAlike (registry : Registry σ κ ω) : Prop :=
  ∀ verb handler, registry.find? verb = some handler →
    ∀ bag context (world other : World σ),
      (handler bag context world).1 = (handler bag context other).1

/--
No moment that an evaluation of calls gets to finds the token cancelled.  Where
the token is the evaluation's own, only its handlers could have cancelled it,
and nothing but this leaves out handlers that do.
-/
def Registry.NeverCancelled (registry : Registry σ κ ω)
    (start : Moment κ (List ω) σ) (calls : List Call) : Prop :=
  ∀ done deeds moment,
    done <+: calls →
      CompletesAll registry Evaluation.keeping start done deeds moment →
        moment.world.token.isCancelled = false

section Transfer

variable {registry : Registry σ κ ω}

theorem Registry.NeverCancelled.live
    {start : Moment κ (List ω) σ}
    {calls : List Call}
    (never : registry.NeverCancelled start calls) :
    start.world.token.isCancelled = false :=
  never [] [] start List.nil_prefix (.nil start)

theorem Registry.NeverCancelled.behind
    {start middle : Moment κ (List ω) σ}
    {call : Call}
    {calls : List Call}
    {deeds : List (Deed κ ω)}
    (never : registry.NeverCancelled start (call :: calls))
    (first : Completes registry Evaluation.keeping call start deeds middle) :
    registry.NeverCancelled middle calls := by
  intro done later moment inFront all
  exact never (call :: done) _ moment
    (List.cons_prefix_cons.2 ⟨rfl, inFront⟩) (.cons first all)

theorem Completes.transfer
    {call : Call}
    {start middle : Moment κ (List ω) σ}
    {deeds : List (Deed κ ω)}
    {world : World σ}
    (alike : registry.AnswersAlike)
    (first : Completes registry Evaluation.keeping call start deeds middle)
    (live : world.token.isCancelled = false) :
    ∃ next,
      Completes registry Evaluation.keeping call
        ⟨start.context, start.received, world⟩ deeds
        ⟨middle.context, middle.received, next⟩ := by
  cases first with
  | @proceed context received taken before acted last handler outcome _ found
      ran delivered =>
      cases delivered
      rcases again : handler (.ofArguments call.arguments) context world
        with ⟨answer, next⟩
      have same :=
        alike call.name handler found (.ofArguments call.arguments) context
          before world
      rw [ran, again] at same
      cases same
      exact ⟨next, .proceed live found again rfl⟩

/-- Calls complete alike in another world whose token is never cancelled. -/
theorem CompletesAll.transfer
    {calls : List Call}
    {start final : Moment κ (List ω) σ}
    {deeds : List (Deed κ ω)}
    {world : World σ}
    (alike : registry.AnswersAlike)
    (all : CompletesAll registry Evaluation.keeping start calls deeds final)
    (never :
      registry.NeverCancelled ⟨start.context, start.received, world⟩ calls) :
    ∃ last,
      CompletesAll registry Evaluation.keeping
        ⟨start.context, start.received, world⟩ calls deeds
        ⟨final.context, final.received, last⟩ := by
  induction all generalizing world with
  | nil moment => exact ⟨world, .nil _⟩
  | cons first others inductionHypothesis =>
      obtain ⟨next, again⟩ := first.transfer alike never.live
      obtain ⟨last, more⟩ := inductionHypothesis (never.behind again)
      exact ⟨last, .cons again more⟩

/-- A call fails alike in another world with a live token. -/
theorem Halts.transfer
    {call : Call}
    {moment : Moment κ (List ω) σ}
    {error : EngineError}
    {last : List (Deed κ ω)}
    {received : List ω}
    {after world : World σ}
    {completed : Nat}
    (alike : registry.AnswersAlike)
    (halts :
      Halts registry Evaluation.keeping completed call moment (.error error)
        last received after)
    (wasLive : moment.world.token.isCancelled = false)
    (live : world.token.isCancelled = false) :
    ∃ next,
      Halts registry Evaluation.keeping completed call
        ⟨moment.context, moment.received, world⟩ (.error error) last
        received next := by
  cases halts with
  -- the one way to halt that is up to the world
  | cancelled cancelled =>
      have wasCancelled := cancelled
      rw [wasLive] at wasCancelled
      cases wasCancelled
  | unknown _ missing => exact ⟨world, .unknown live missing⟩
  | @failed context _ before acted handler cause _ found ran =>
      rcases again : handler (.ofArguments call.arguments) context world
        with ⟨answer, next⟩
      have same :=
        alike call.name handler found (.ofArguments call.arguments) context
          before world
      rw [ran, again] at same
      cases same
      exact ⟨next, .failed live found again⟩

theorem CompletesAll.exists_handler
    {calls : List Call}
    {start final : Moment κ τ σ}
    {sink : Sink τ σ ω}
    {deeds : List (Deed κ ω)}
    {call : Call}
    (all : CompletesAll registry sink start calls deeds final)
    (given : call ∈ calls) :
    ∃ handler, registry.find? call.name = some handler := by
  induction all with
  | nil => cases given
  | cons first others inductionHypothesis =>
      rcases List.mem_cons.1 given with rfl | later
      · cases first with
        | proceed live found ran delivered => exact ⟨_, found⟩
      · exact inductionHypothesis later

end Transfer

end VerbChain
