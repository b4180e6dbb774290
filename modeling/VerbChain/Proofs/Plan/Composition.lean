import VerbChain.Proofs.Evaluation.Concatenation
import VerbChain.Proofs.Plan.Account

namespace VerbChain

/-!
# Carrying out plans one behind the other

What a plan answers, which actions its executor is handed and what is left are
told by the account, and there is one account only.  So each answer says how
far the plan got: to its end, to an action in front of which the token was
found cancelled, or to one that the executor failed at.

Carrying out two plans as one is carrying out the first and, if it got to its
end, the second from what is left.  An answer of the second counts its actions
only, and is counted on by those of the first.
-/

/-- What balks tells an error that counts all actions in front of it. -/
theorem Balks.behind
    {executor : Executor ρ}
    {count : Nat}
    {action : Action}
    {device final : World ρ}
    {error : EngineError}
    {last : List Action}
    (completed : Nat)
    (balks : Balks executor count action device error last final) :
    Balks executor (completed + count) action device (error.behind completed)
      last final := by
  cases balks with
  | cancelled cancelled => exact .cancelled cancelled
  | failed live ran => exact .failed live ran

namespace Plan

/-- An answer as it is behind a number of completed actions. -/
def answerBehind (completed : Nat) :
    Except EngineError Nat → Except EngineError Nat
  | .ok count => .ok (completed + count)
  | .error error => .error (error.behind completed)

variable {executor : Executor ρ} {plan : Plan} {device final : World ρ}
  {answer : Except EngineError Nat} {handed : List Action}

/-- A recording executor's run is what the account tells, and the other way. -/
theorem execute_logged_iff :
    plan.execute executor.logged (device.logging []) =
        (answer, final.logging handed) ↔
      Account executor plan device answer handed final := by
  constructor
  · intro ran
    obtain ⟨told, actions, last, account⟩ := exists_account executor plan device
    have recorded := execute_of_account (account.logged [])
    rw [ran, Prod.mk.injEq] at recorded
    obtain ⟨rfl, same⟩ := recorded
    obtain ⟨rfl, rfl⟩ := World.logging_injective same
    exact account
  · intro account
    exact execute_of_account (account.logged [])

/-- All is well when every action is handed over and carried out. -/
theorem account_ok_iff
    {number : Nat} :
    Account executor plan device (.ok number) handed final ↔
      number = plan.length ∧ handed = plan ∧
        CarriesOut executor device plan final := by
  constructor
  · intro account
    cases account with
    | finished all => exact ⟨rfl, rfl, all⟩
  · rintro ⟨rfl, rfl, all⟩
    exact .finished all

/-- A cancellation is told behind the actions that were carried out. -/
theorem account_cancelled_iff
    {completed : Nat} :
    Account executor plan device (.error (.cancelled completed)) handed
        final ↔
      completed < plan.length ∧ handed = plan.take completed ∧
        CarriesOut executor device (plan.take completed) final ∧
        final.token.isCancelled = true := by
  constructor
  · intro account
    cases account with
    | @balked done rest action _ _ _ _ shape before balks =>
        cases balks with
        | cancelled cancelled =>
            subst shape
            rw [List.take_left, List.append_nil]
            exact ⟨by simp, rfl, before, cancelled⟩
  · rintro ⟨inside, rfl, before, cancelled⟩
    have shape := List.take_append_drop completed plan
    rw [List.drop_eq_getElem_cons inside] at shape
    have count : (plan.take completed).length = completed :=
      List.length_take_of_le (Nat.le_of_lt inside)
    have balks :
        Balks executor (plan.take completed).length plan[completed] final
          (.cancelled completed) [] final := by
      rw [count]
      exact .cancelled cancelled
    have account := Account.balked shape.symm before balks
    rwa [List.append_nil] at account

/-- A failure is told of the action behind those that were carried out. -/
theorem account_executor_iff
    {kind : String}
    {cause : ExecutorError} :
    Account executor plan device (.error (.executor kind cause)) handed
        final ↔
      ∃ completed action middle,
        plan[completed]? = some action ∧ action.kind = kind ∧
          handed = plan.take (completed + 1) ∧
          CarriesOut executor device (plan.take completed) middle ∧
          middle.token.isCancelled = false ∧
          executor action middle = (.error cause, final) := by
  constructor
  · intro account
    cases account with
    | @balked done rest action middle _ _ _ shape before balks =>
        cases balks with
        | failed live ran =>
            subst shape
            refine ⟨done.length, action, middle, by simp, rfl, ?_, ?_, live,
              ran⟩
            · rw [List.take_length_add_append, List.take_succ_cons,
                List.take_zero]
            · rwa [List.take_left]
  · rintro ⟨completed, action, middle, found, rfl, rfl, before, live, ran⟩
    obtain ⟨inside, rfl⟩ := List.getElem?_eq_some_iff.1 found
    have shape := List.take_append_drop completed plan
    rw [List.drop_eq_getElem_cons inside] at shape
    rw [List.take_succ_eq_append_getElem inside]
    exact .balked shape.symm before (.failed live ran)

/-- No other error comes from carrying out a plan. -/
theorem Account.error_cases
    {error : EngineError}
    (account : Account executor plan device (.error error) handed final) :
    (∃ completed, error = .cancelled completed) ∨
      ∃ kind cause, error = .executor kind cause := by
  cases account with
  | balked shape before balks =>
      cases balks with
      | cancelled cancelled => exact .inl ⟨_, rfl⟩
      | failed live ran => exact .inr ⟨_, _, rfl⟩

/-- Behind completed actions a plan is carried out as from the start. -/
theorem executeFrom_eq
    (executor : Executor ρ)
    (completed : Nat)
    (plan : Plan)
    (device : World ρ) :
    executeFrom executor completed plan device =
      match plan.execute executor device with
      | (answer, final) => (answerBehind completed answer, final) := by
  obtain ⟨answer, handed, final, account⟩ := exists_account executor plan device
  rw [execute_of_account account]
  cases account with
  | finished all =>
      have carried := executeFrom_of_carriesOut completed [] all
      rw [List.append_nil] at carried
      exact carried
  | @balked done rest action middle final error last shape before balks =>
      rw [shape, executeFrom_of_carriesOut completed _ before]
      exact executeFrom_of_balks rest (balks.behind completed)

/-- A plan with another behind it is carried out first. -/
theorem execute_append
    (executor : Executor ρ)
    (plan other : Plan)
    (device : World ρ) :
    Plan.execute executor (plan ++ other) device =
      match plan.execute executor device with
      | (.error error, next) => (.error error, next)
      | (.ok _, next) =>
          match other.execute executor next with
          | (answer, final) => (answerBehind plan.length answer, final) := by
  obtain ⟨answer, handed, final, account⟩ := exists_account executor plan device
  rw [execute_of_account account]
  cases account with
  | finished all =>
      rw [execute, executeFrom_of_carriesOut 0 other all, Nat.zero_add]
      exact executeFrom_eq executor plan.length other final
  | @balked done rest action middle final error last shape before balks =>
      have whole : plan ++ other = done ++ action :: (rest ++ other) := by
        rw [shape, List.append_assoc, List.cons_append]
      exact execute_of_account (.balked whole before balks)

/--
An executor is handed actions of a plan in order, each once.  The plan answers
with their number exactly when all were carried out; with a cancellation behind
some exactly when those were carried out and the token was then found cancelled
in front of the next; and with a failure of a kind exactly when the action
behind those carried out is of that kind and failed so.  There is no other
answer.  Two plans in one are carried out one behind the other, the answer of
the second counted on by the actions of the first.
-/
theorem execute_in_order
    (executor : Executor ρ)
    (plan : Plan)
    (device : World ρ) :
    (∃ answer handed final,
        plan.execute executor device = (answer, final) ∧
          plan.execute executor.logged (device.logging []) =
            (answer, final.logging handed) ∧
          handed <+: plan ∧
          ((∃ number, answer = .ok number) ∨
            (∃ completed, answer = .error (.cancelled completed)) ∨
            ∃ kind cause, answer = .error (.executor kind cause))) ∧
      (∀ number handed final,
        plan.execute executor.logged (device.logging []) =
            (.ok number, final.logging handed) ↔
          number = plan.length ∧ handed = plan ∧
            CarriesOut executor device plan final) ∧
      (∀ completed handed final,
        plan.execute executor.logged (device.logging []) =
            (.error (.cancelled completed), final.logging handed) ↔
          completed < plan.length ∧ handed = plan.take completed ∧
            CarriesOut executor device (plan.take completed) final ∧
            final.token.isCancelled = true) ∧
      (∀ kind cause handed final,
        plan.execute executor.logged (device.logging []) =
            (.error (.executor kind cause), final.logging handed) ↔
          ∃ completed action middle,
            plan[completed]? = some action ∧ action.kind = kind ∧
              handed = plan.take (completed + 1) ∧
              CarriesOut executor device (plan.take completed) middle ∧
              middle.token.isCancelled = false ∧
              executor action middle = (.error cause, final)) ∧
      ∀ other : Plan,
        Plan.execute executor (plan ++ other) device =
          match plan.execute executor device with
          | (.error error, next) => (.error error, next)
          | (.ok _, next) =>
              match other.execute executor next with
              | (answer, final) => (answerBehind plan.length answer, final) := by
  refine ⟨?_, ?_, ?_, ?_, fun other => execute_append executor plan other device⟩
  · obtain ⟨answer, handed, final, account⟩ :=
      exists_account executor plan device
    refine ⟨answer, handed, final, execute_of_account account,
      execute_logged_iff.2 account, account.handed_prefix, ?_⟩
    cases answer with
    | ok number => exact .inl ⟨number, rfl⟩
    | error error =>
        rcases account.error_cases with ⟨completed, rfl⟩ | ⟨kind, cause, rfl⟩
        · exact .inr (.inl ⟨completed, rfl⟩)
        · exact .inr (.inr ⟨kind, cause, rfl⟩)
  · intro number handed final
    exact execute_logged_iff.trans account_ok_iff
  · intro completed handed final
    exact execute_logged_iff.trans account_cancelled_iff
  · intro kind cause handed final
    exact execute_logged_iff.trans account_executor_iff

end Plan

end VerbChain
