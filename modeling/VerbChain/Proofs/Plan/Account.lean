import VerbChain.Plan.Execution
import VerbChain.Proofs.Evaluation.Account

namespace VerbChain

/-!
# What carrying out a plan did

Carrying out a plan is accounted for by the actions that its executor was
handed.  Actions in front are carried out one after the other, and it ends
behind the last one or at the first action that balks: because the token is
cancelled in front of it, or because the executor fails at it.

The executor is made to record what it is handed in a log beside its state, as
handlers and sinks are for a walk.
-/

/-- An executor that records every action it is handed. -/
def Executor.logged (executor : Executor ρ) : Executor (ρ × List Action) :=
  fun action world =>
    match executor action ⟨world.token, world.state.1⟩ with
    | (answer, next) => (answer, next.logging (world.state.2 ++ [action]))

/-- An executor that records what it is handed acts as before. -/
theorem Executor.logged_of_eq
    {executor : Executor ρ}
    {action : Action}
    {device next : World ρ}
    {answer : Except ExecutorError Unit}
    (ran : executor action device = (answer, next))
    (log : List Action) :
    executor.logged action (device.logging log) =
      (answer, next.logging (log ++ [action])) := by
  unfold logged World.logging
  rw [ran]

/-- Actions are carried out in order, each under a token not cancelled. -/
inductive CarriesOut (executor : Executor ρ) :
    World ρ → Plan → World ρ → Prop where
  | nil (device : World ρ) :
      CarriesOut executor device [] device
  | cons
      {device middle final : World ρ}
      {action : Action}
      {rest : Plan}
      (live : device.token.isCancelled = false)
      (ran : executor action device = (.ok (), middle))
      (others : CarriesOut executor middle rest final) :
      CarriesOut executor device (action :: rest) final

/--
The action behind a number of completed ones balks, with an error, the action
if it was handed over at all, and what is left.
-/
inductive Balks (executor : Executor ρ) (completed : Nat) (action : Action) :
    World ρ → EngineError → List Action → World ρ → Prop where
  | cancelled
      {device : World ρ}
      (cancelled : device.token.isCancelled = true) :
      Balks executor completed action device (.cancelled completed) [] device
  | failed
      {device next : World ρ}
      {cause : ExecutorError}
      (live : device.token.isCancelled = false)
      (ran : executor action device = (.error cause, next)) :
      Balks executor completed action device (.executor action.kind cause)
        [action] next

/-- What carrying out a plan answers, hands over and leaves. -/
inductive Plan.Account (executor : Executor ρ) (plan : Plan)
    (device : World ρ) :
    Except EngineError Nat → List Action → World ρ → Prop where
  | finished
      {final : World ρ}
      (all : CarriesOut executor device plan final) :
      Account executor plan device (.ok plan.length) plan final
  | balked
      {done rest : Plan}
      {action : Action}
      {middle final : World ρ}
      {error : EngineError}
      {last : List Action}
      (shape : plan = done ++ action :: rest)
      (before : CarriesOut executor device done middle)
      (balks : Balks executor done.length action middle error last final) :
      Account executor plan device (.error error) (done ++ last) final

section Step

variable {executor : Executor ρ} {action : Action}
  {device middle final : World ρ} {plan done : Plan}

private theorem carried_or_balks
    (executor : Executor ρ)
    (completed : Nat)
    (action : Action)
    (device : World ρ) :
    (∃ next,
      device.token.isCancelled = false ∧
        executor action device = (.ok (), next)) ∨
      ∃ error last next,
        Balks executor completed action device error last next := by
  cases cancelled : device.token.isCancelled with
  | true => exact .inr ⟨_, _, _, .cancelled cancelled⟩
  | false =>
      rcases ran : executor action device with ⟨answer, next⟩
      cases answer with
      | ok => exact .inl ⟨next, rfl, rfl⟩
      | error cause => exact .inr ⟨_, _, _, .failed cancelled ran⟩

/-- Behind actions that are carried out a plan goes on. -/
theorem executeFrom_of_carriesOut
    (completed : Nat)
    (rest : Plan)
    (carried : CarriesOut executor device done middle) :
    Plan.executeFrom executor completed (done ++ rest) device =
      Plan.executeFrom executor (completed + done.length) rest middle := by
  induction carried generalizing completed with
  | nil device => rfl
  | cons live ran others inductionHypothesis =>
      simp only [List.cons_append, Plan.executeFrom, live, ran,
        Bool.false_eq_true, if_false]
      rw [inductionHypothesis, List.length_cons, Nat.add_right_comm,
        Nat.add_assoc]

theorem executeFrom_of_balks
    {completed : Nat}
    {error : EngineError}
    {last : List Action}
    (rest : Plan)
    (balks : Balks executor completed action device error last final) :
    Plan.executeFrom executor completed (action :: rest) device =
      (.error error, final) := by
  cases balks with
  | cancelled cancelled => simp [Plan.executeFrom, cancelled]
  | failed live ran => simp [Plan.executeFrom, live, ran]

theorem CarriesOut.logged
    (carried : CarriesOut executor device plan final)
    (log : List Action) :
    CarriesOut executor.logged (device.logging log) plan
      (final.logging (log ++ plan)) := by
  induction carried generalizing log with
  | nil device =>
      rw [List.append_nil]
      exact .nil _
  | @cons device middle final action rest live ran others
      inductionHypothesis =>
      have behind := inductionHypothesis (log ++ [action])
      rw [List.append_assoc] at behind
      exact .cons live (Executor.logged_of_eq ran log) behind

theorem Balks.logged
    {completed : Nat}
    {error : EngineError}
    {last : List Action}
    (balks : Balks executor completed action device error last final)
    (log : List Action) :
    Balks executor.logged completed action (device.logging log) error last
      (final.logging (log ++ last)) := by
  cases balks with
  | cancelled cancelled =>
      rw [List.append_nil]
      exact .cancelled cancelled
  | failed live ran => exact .failed live (Executor.logged_of_eq ran log)

end Step

namespace Plan

variable {executor : Executor ρ} {plan : Plan} {device final : World ρ}
  {answer : Except EngineError Nat} {handed : List Action}

/-- A plan is carried out, or one of its actions balks behind others. -/
theorem carriesOut_or_balks
    (executor : Executor ρ)
    (completed : Nat)
    (plan : Plan)
    (device : World ρ) :
    (∃ final, CarriesOut executor device plan final) ∨
      ∃ done action rest middle error last final,
        plan = done ++ action :: rest ∧
          CarriesOut executor device done middle ∧
          Balks executor (completed + done.length) action middle error last
            final := by
  induction plan generalizing completed device with
  | nil => exact .inl ⟨device, .nil device⟩
  | cons action rest inductionHypothesis =>
      rcases carried_or_balks executor completed action device
        with ⟨next, live, ran⟩ | ⟨error, last, next, balks⟩
      · rcases inductionHypothesis (completed + 1) next with
          ⟨final, others⟩ | ⟨done, other, behind, middle, error, last, final,
            rfl, before, balks⟩
        · exact .inl ⟨final, .cons live ran others⟩
        · rw [Nat.add_assoc, Nat.add_comm 1] at balks
          exact .inr ⟨action :: done, other, behind, middle, error, last,
            final, rfl, .cons live ran before, balks⟩
      · exact .inr ⟨[], action, rest, device, error, last, next, rfl,
          .nil device, balks⟩

theorem exists_account
    (executor : Executor ρ)
    (plan : Plan)
    (device : World ρ) :
    ∃ answer handed final,
      Account executor plan device answer handed final := by
  rcases carriesOut_or_balks executor 0 plan device with
    ⟨final, all⟩ | ⟨done, action, rest, middle, error, last, final, shape,
      before, balks⟩
  · exact ⟨_, _, _, .finished all⟩
  · rw [Nat.zero_add] at balks
    exact ⟨_, _, _, .balked shape before balks⟩

/-- The account tells the answer and what is left. -/
theorem execute_of_account
    (account : Account executor plan device answer handed final) :
    plan.execute executor device = (answer, final) := by
  cases account with
  | finished all =>
      have carried := executeFrom_of_carriesOut 0 [] all
      rw [List.append_nil, Nat.zero_add] at carried
      exact carried
  | balked shape before balks =>
      rw [execute, shape, executeFrom_of_carriesOut 0 _ before, Nat.zero_add]
      exact executeFrom_of_balks _ balks

/-- The account tells what a recording executor has recorded. -/
theorem Account.logged
    (account : Account executor plan device answer handed final)
    (log : List Action) :
    Account executor.logged plan (device.logging log) answer handed
      (final.logging (log ++ handed)) := by
  cases account with
  | finished all => exact .finished (all.logged log)
  | @balked done rest action middle final error last shape before balks =>
      have behind := balks.logged (log ++ done)
      rw [List.append_assoc] at behind
      exact .balked shape (before.logged log) behind

theorem Account.handed_prefix
    (account : Account executor plan device answer handed final) :
    handed <+: plan := by
  cases account with
  | finished all => exact List.prefix_refl plan
  | @balked done rest action _ _ _ _ shape before balks =>
      subst shape
      rw [List.prefix_append_right_inj]
      cases balks with
      | cancelled cancelled => exact List.nil_prefix
      | failed live ran => exact ⟨rest, rfl⟩

/-- All is well exactly when every action is carried out. -/
theorem Account.ok_iff
    (account : Account executor plan device answer handed final) :
    (∃ number, answer = .ok number) ↔
      ∃ last, CarriesOut executor device plan last := by
  constructor
  · rintro ⟨number, rfl⟩
    cases account with
    | finished all => exact ⟨final, all⟩
  · rintro ⟨last, all⟩
    have executed := execute_of_account account
    rw [execute_of_account (.finished all)] at executed
    cases executed
    exact ⟨_, rfl⟩

theorem Account.handed_of_cancelled
    (account : Account executor plan device answer handed final)
    (cancelled : device.token.isCancelled = true) :
    handed = [] := by
  have stopped (live : device.token.isCancelled = false) : False := by
    rw [cancelled] at live
    cases live
  cases account with
  | finished all =>
      cases all with
      | nil => rfl
      | cons live ran others => exact (stopped live).elim
  | balked shape before balks =>
      cases before with
      | nil =>
          cases balks with
          | cancelled cancelled => rfl
          | failed live ran => exact (stopped live).elim
      | cons live ran others => exact (stopped live).elim

end Plan

end VerbChain
