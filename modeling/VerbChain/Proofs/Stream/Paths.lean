import VerbChain.Proofs.Stream.Scripts

namespace VerbChain

/-!
# Paths through a script

A script is walked along a path, one happening after the other.  The scripts of
programs are lawful: behind an invoked handler stands what its answer leaves to
send, and behind a refused send stands the end.  What is invoked and sent along
a path is therefore the first of what a play does that refuses nothing, and a
path to the end is the play whose outlet takes as many items.
-/

namespace Happening

/-- The dispatch whose handler is invoked. -/
def dispatch? : Happening σ κ ε → Option (Dispatch σ κ)
  | .invoked dispatch => some dispatch
  | _ => none

/-- The item whose send succeeds. -/
def item? : Happening σ κ ε → Option (StreamItem ε)
  | .sent item => some item
  | _ => none

end Happening

/-- The dispatches whose handlers are invoked, in order. -/
def dispatchesIn (happenings : List (Happening σ κ ε)) :
    List (Dispatch σ κ) :=
  happenings.filterMap Happening.dispatch?

/-- The items that are sent, in order. -/
def itemsIn (happenings : List (Happening σ κ ε)) : List (StreamItem ε) :=
  happenings.filterMap Happening.item?

theorem dispatchesIn_append (first second : List (Happening σ κ ε)) :
    dispatchesIn (first ++ second) =
      dispatchesIn first ++ dispatchesIn second :=
  List.filterMap_append

theorem itemsIn_append (first second : List (Happening σ κ ε)) :
    itemsIn (first ++ second) = itemsIn first ++ itemsIn second :=
  List.filterMap_append

namespace Script

/-- A path through a script, to what is then left of it. -/
inductive Leads {σ κ ε : Type} :
    Script σ κ ε → List (Happening σ κ ε) → Script σ κ ε → Prop where
  | stay (script : Script σ κ ε) : Leads script [] script
  | invoke
      {dispatch : Dispatch σ κ}
      {next last : Script σ κ ε}
      {later : List (Happening σ κ ε)}
      (others : Leads next later last) :
      Leads (.invoke dispatch next) (.invoked dispatch :: later) last
  | take
      {item : StreamItem ε}
      {taken refused last : Script σ κ ε}
      {later : List (Happening σ κ ε)}
      (others : Leads taken later last) :
      Leads (.send item taken refused) (.sent item :: later) last
  | refuse
      {item : StreamItem ε}
      {taken refused last : Script σ κ ε}
      {later : List (Happening σ κ ε)}
      (others : Leads refused later last) :
      Leads (.send item taken refused) (.refused item :: later) last

/-- What a handler's answer leaves to send. -/
inductive Answers (convention : Convention κ ω ε) (registry : Registry σ κ ω)
    (dispatch : Dispatch σ κ) : Script σ κ ε → Prop where
  | failed
      {error : EngineError}
      {next : World σ}
      (answered : dispatch.answer registry = (.error error, next)) :
      Answers convention registry dispatch (ofFailure error next)
  | completed
      {outcome : Outcome κ ω}
      {next : World σ}
      (answered : dispatch.answer registry = (.ok outcome, next))
      (proceed : Script σ κ ε) :
      Answers convention registry dispatch
        (ofEvents proceed (.ended .normal next)
          (convention.events dispatch.call outcome.output))

/-- Handlers' answers are sent, and behind a refused send is the end. -/
inductive Lawful (convention : Convention κ ω ε) (registry : Registry σ κ ω) :
    Script σ κ ε → Prop where
  | ended (ending : Ending) (world : World σ) :
      Lawful convention registry (.ended ending world)
  | invoke
      {dispatch : Dispatch σ κ}
      {next : Script σ κ ε}
      (answers : Answers convention registry dispatch next)
      (later : Lawful convention registry next) :
      Lawful convention registry (.invoke dispatch next)
  | send
      {item : StreamItem ε}
      {taken : Script σ κ ε}
      {world : World σ}
      (later : Lawful convention registry taken) :
      Lawful convention registry (.send item taken (.ended .normal world))

section Laws

variable {convention : Convention κ ω ε} {registry : Registry σ κ ω}

theorem lawful_ofFailure (error : EngineError) (world : World σ) :
    Lawful convention registry (ofFailure error world) := by
  unfold ofFailure
  split
  · exact .ended _ _
  · exact .send (.ended _ _)

theorem Lawful.ofEvents
    {proceed : Script σ κ ε}
    (later : Lawful convention registry proceed)
    (world : World σ)
    (events : List ε) :
    Lawful convention registry
      (Script.ofEvents proceed (.ended .normal world) events) := by
  induction events with
  | nil => exact later
  | cons event rest inductionHypothesis => exact .send inductionHypothesis

theorem lawful_ofCalls
    (convention : Convention κ ω ε)
    (registry : Registry σ κ ω)
    (completed : Nat)
    (context : κ)
    (calls : List Call)
    (world : World σ) :
    Lawful convention registry
      (ofCalls convention registry completed context calls world) := by
  induction calls generalizing completed context world with
  | nil => exact .ended _ _
  | cons call rest inductionHypothesis =>
      rw [ofCalls]
      split
      · exact lawful_ofFailure _ _
      · split
        · exact lawful_ofFailure _ _
        · split
          · next error next answered =>
              exact .invoke (.failed answered) (lawful_ofFailure _ _)
          · next outcome next answered =>
              have gives :
                  Dispatch.answer registry ⟨call, context, world⟩ =
                    (.ok outcome, next) :=
                answered
              exact .invoke (.completed gives _)
                ((inductionHypothesis ..).ofEvents _ _)

end Laws

namespace Leads

variable {script middle last : Script σ κ ε}
variable {path first second : List (Happening σ κ ε)}

theorem append
    (front : script.Leads first middle)
    (behind : middle.Leads second last) :
    script.Leads (first ++ second) last := by
  induction front with
  | stay => exact behind
  | invoke others inductionHypothesis =>
      exact .invoke (inductionHypothesis behind)
  | take others inductionHypothesis => exact .take (inductionHypothesis behind)
  | refuse others inductionHypothesis =>
      exact .refuse (inductionHypothesis behind)

/-- A path can be cut anywhere. -/
theorem exists_cut
    (leads : script.Leads (first ++ second) last) :
    ∃ middle, script.Leads first middle ∧ middle.Leads second last := by
  induction first generalizing script with
  | nil => exact ⟨script, .stay script, leads⟩
  | cons happening rest inductionHypothesis =>
      cases leads with
      | invoke others =>
          obtain ⟨middle, front, behind⟩ := inductionHypothesis others
          exact ⟨middle, .invoke front, behind⟩
      | take others =>
          obtain ⟨middle, front, behind⟩ := inductionHypothesis others
          exact ⟨middle, .take front, behind⟩
      | refuse others =>
          obtain ⟨middle, front, behind⟩ := inductionHypothesis others
          exact ⟨middle, .refuse front, behind⟩

/-- Nobody leaves along a path: it is the producer's. -/
theorem left_notMem (leads : script.Leads path last) : .left ∉ path := by
  induction leads with
  | stay => exact List.not_mem_nil
  | invoke others inductionHypothesis => simpa using inductionHypothesis
  | take others inductionHypothesis => simpa using inductionHypothesis
  | refuse others inductionHypothesis => simpa using inductionHypothesis

/-- Nothing happens behind the end. -/
private theorem eq_of_ended
    {ending : Ending}
    {world : World σ}
    (leads : Leads (.ended ending world) path last) :
    path = [] ∧ last = .ended ending world := by
  cases leads
  exact ⟨rfl, rfl⟩

/-- A send that does not succeed is refused or has not returned. -/
theorem refuse_or_stay
    {item : StreamItem ε}
    {taken refused : Script σ κ ε}
    (leads : Leads (.send item taken refused) path last)
    (nothing : itemsIn path = []) :
    (path = [] ∧ last = .send item taken refused) ∨
      ∃ later, path = .refused item :: later ∧ refused.Leads later last := by
  cases leads with
  | stay => exact .inl ⟨rfl, rfl⟩
  | take others => cases nothing
  | refuse others => exact .inr ⟨_, rfl, others⟩

section Laws

variable {convention : Convention κ ω ε} {registry : Registry σ κ ω}

theorem lawful
    (leads : script.Leads path last)
    (lawful : Lawful convention registry script) :
    Lawful convention registry last := by
  induction leads with
  | stay => exact lawful
  | invoke others inductionHypothesis =>
      cases lawful with
      | invoke answers later => exact inductionHypothesis later
  | take others inductionHypothesis =>
      cases lawful with
      | send later => exact inductionHypothesis later
  | refuse others inductionHypothesis =>
      cases lawful with
      | send later => exact inductionHypothesis (.ended _ _)

/-- Behind a refused send nothing happens: the thread has ended. -/
theorem ended_of_refused
    {item : StreamItem ε}
    (leads : script.Leads (first ++ .refused item :: second) last)
    (lawful : Lawful convention registry script) :
    second = [] ∧ ∃ world, last = .ended .normal world := by
  obtain ⟨middle, front, behind⟩ := leads.exists_cut
  cases behind with
  | refuse others =>
      cases front.lawful lawful with
      | send later =>
          obtain ⟨nothing, ended⟩ := others.eq_of_ended
          exact ⟨nothing, _, ended⟩

end Laws

end Leads

/-- What was sent stays sent. -/
theorem sent_prefix_play (script : Script σ κ ε) (outlet : Outlet ε) :
    outlet.sent <+: (script.play outlet).2.1.outlet.sent := by
  induction script generalizing outlet with
  | ended ending world => exact List.prefix_rfl
  | invoke dispatch next inductionHypothesis => exact inductionHypothesis outlet
  | send item taken refused whenTaken whenRefused =>
      have grows : outlet.sent <+: (outlet.send item).2.sent := by
        unfold Outlet.send
        split
        · exact List.prefix_append _ _
        · exact List.prefix_rfl
        · exact List.prefix_append _ _
      rw [play]
      split
      · next next shape =>
          rw [shape] at grows
          exact grows.trans (whenTaken next)
      · next next shape =>
          rw [shape] at grows
          exact grows.trans (whenRefused next)

private theorem sent_prefix_of_nothing
    (script : Script σ κ ε)
    (sent : List (StreamItem ε))
    {path : List (Happening σ κ ε)}
    (nothing : itemsIn path = []) :
    sent ++ itemsIn path <+: (script.play ⟨none, sent⟩).2.1.outlet.sent := by
  rw [nothing, List.append_nil]
  exact script.sent_prefix_play ⟨none, sent⟩

namespace Leads

variable {script last : Script σ κ ε} {path : List (Happening σ κ ε)}
variable {convention : Convention κ ω ε} {registry : Registry σ κ ω}

/-- A path has the first dispatches and sends of a play nothing refuses. -/
theorem prefix_play
    (leads : script.Leads path last)
    (lawful : Lawful convention registry script)
    (sent : List (StreamItem ε)) :
    dispatchesIn path <+: (script.play ⟨none, sent⟩).1 ∧
      sent ++ itemsIn path <+: (script.play ⟨none, sent⟩).2.1.outlet.sent := by
  induction leads generalizing sent with
  | stay script =>
      exact ⟨List.nil_prefix, script.sent_prefix_of_nothing sent rfl⟩
  | invoke others inductionHypothesis =>
      cases lawful with
      | invoke answers later =>
          obtain ⟨invoked, sends⟩ := inductionHypothesis later sent
          exact ⟨List.cons_prefix_cons.2 ⟨rfl, invoked⟩, sends⟩
  | @take item taken refused last path others inductionHypothesis =>
      cases lawful with
      | send later =>
          obtain ⟨invoked, sends⟩ := inductionHypothesis later (sent ++ [item])
          rw [List.append_assoc] at sends
          exact ⟨invoked, sends⟩
  | @refuse item taken refused last path others inductionHypothesis =>
      cases lawful with
      | send later =>
          -- The thread ends here; the play goes on behind the taken item.
          obtain ⟨rfl, rfl⟩ := others.eq_of_ended
          exact ⟨List.nil_prefix, sent_prefix_of_nothing _ sent rfl⟩

/-- A path to the end is the play whose outlet takes as many items. -/
theorem play_eq
    {ending : Ending}
    {world : World σ}
    (leads : script.Leads path (.ended ending world))
    (lawful : Lawful convention registry script)
    (sent : List (StreamItem ε)) :
    script.play ⟨some (itemsIn path).length, sent⟩ =
      (dispatchesIn path, ⟨⟨some 0, sent ++ itemsIn path⟩, ending⟩, world) := by
  generalize ended : Script.ended ending world = last at leads
  induction leads generalizing sent with
  | stay script =>
      subst ended
      simp [play, itemsIn, dispatchesIn]
  | @invoke dispatch next last later others inductionHypothesis =>
      cases lawful with
      | invoke answers lawful =>
          have same := inductionHypothesis lawful sent ended
          show (dispatch :: (next.play _).1, (next.play _).2) = _
          have fewer :
              itemsIn (.invoked dispatch :: later) = itemsIn later :=
            rfl
          rw [fewer, same]
          rfl
  | @take item taken refused last path others inductionHypothesis =>
      cases lawful with
      | send lawful =>
          have same := inductionHypothesis lawful (sent ++ [item]) ended
          rw [List.append_assoc] at same
          exact same
  | @refuse item taken refused last path others inductionHypothesis =>
      cases lawful with
      | send lawful =>
          obtain ⟨rfl, rfl⟩ := others.eq_of_ended
          cases ended
          have nothing : itemsIn [(.refused item : Happening σ κ ε)] = [] := rfl
          rw [nothing, List.append_nil]
          rfl

end Leads

/--
What is so of a handler that no successful send follows: it fails, or its call
publishes nothing, or the send of the first event is refused and is the last
thing that happens.  In a script with something left that send may be to come.
-/
inductive Late (convention : Convention κ ω ε) (registry : Registry σ κ ω)
    (last : Script σ κ ε) (dispatch : Dispatch σ κ) :
    List (Happening σ κ ε) → Prop where
  | failed
      {error : EngineError}
      {next : World σ}
      {behind : List (Happening σ κ ε)}
      (answered : dispatch.answer registry = (.error error, next))
      (others : behind <+: [.refused (.error error)]) :
      Late convention registry last dispatch behind
  | silent
      {outcome : Outcome κ ω}
      {next : World σ}
      {behind : List (Happening σ κ ε)}
      (answered : dispatch.answer registry = (.ok outcome, next))
      (nothing : convention.events dispatch.call outcome.output = []) :
      Late convention registry last dispatch behind
  | refused
      {outcome : Outcome κ ω}
      {next : World σ}
      {event : ε}
      {events : List ε}
      {behind : List (Happening σ κ ε)}
      (answered : dispatch.answer registry = (.ok outcome, next))
      (publishes :
        convention.events dispatch.call outcome.output = event :: events)
      (others : behind <+: [.refused (.ok event)])
      (whole :
        ∀ ending world, last = .ended ending world →
          behind = [.refused (.ok event)]) :
      Late convention registry last dispatch behind

namespace Leads

variable {script last : Script σ κ ε} {path : List (Happening σ κ ε)}
variable {convention : Convention κ ω ε} {registry : Registry σ κ ω}

/-- Behind an error nothing is left but its send. -/
private theorem prefix_of_failure
    {error : EngineError}
    {world : World σ}
    (leads : (ofFailure error world).Leads path last)
    (nothing : itemsIn path = []) :
    path <+: [.refused (.error error)] := by
  unfold ofFailure at leads
  split at leads
  · obtain ⟨rfl, _⟩ := leads.eq_of_ended
    exact List.nil_prefix
  · rcases leads.refuse_or_stay nothing with ⟨rfl, _⟩ | ⟨later, rfl, ended⟩
    · exact List.nil_prefix
    · obtain ⟨rfl, _⟩ := ended.eq_of_ended
      exact List.prefix_rfl

/-- On a path without successful sends every handler is a late one. -/
theorem late
    {early behind : List (Happening σ κ ε)}
    {dispatch : Dispatch σ κ}
    (leads : script.Leads (early ++ .invoked dispatch :: behind) last)
    (lawful : Lawful convention registry script)
    (nothing : itemsIn (early ++ .invoked dispatch :: behind) = []) :
    Late convention registry last dispatch behind := by
  rw [itemsIn_append, List.append_eq_nil_iff] at nothing
  have nothingBehind : itemsIn behind = [] := nothing.2
  obtain ⟨middle, front, rest⟩ := leads.exists_cut
  have lawfulThere := front.lawful lawful
  cases rest with
  | invoke others =>
      cases lawfulThere with
      | invoke answers later =>
          cases answers with
          | failed answered =>
              exact .failed answered (others.prefix_of_failure nothingBehind)
          | @completed outcome next answered proceed =>
              cases publishes :
                  convention.events dispatch.call outcome.output with
              | nil => exact .silent answered publishes
              | cons event events =>
                  rw [publishes] at others
                  rcases others.refuse_or_stay nothingBehind with
                    ⟨rfl, rfl⟩ | ⟨later, rfl, ended⟩
                  · refine .refused answered publishes List.nil_prefix ?_
                    intro ending world same
                    cases same
                  · obtain ⟨rfl, rfl⟩ := ended.eq_of_ended
                    exact .refused answered publishes List.prefix_rfl
                      fun _ _ _ => rfl

end Leads

end Script

namespace Engine

/-- The script of a program is lawful. -/
theorem lawful_script
    (engine : Engine σ κ ω ε ρ)
    (source : String)
    (world : World σ) :
    Script.Lawful engine.convention engine.registry
      (engine.script source world) := by
  unfold script
  split
  · exact .send (.ended _ _)
  · exact Script.lawful_ofCalls ..

end Engine

end VerbChain
