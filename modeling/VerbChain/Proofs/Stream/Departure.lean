import Mathlib.Data.List.Basic
import VerbChain.Proofs.Stream.Paths

namespace VerbChain

/-!
# A consumer that goes away stops the producer

Whoever's turn it is, the producer's thread walks a path through its script.
While the consumer is there no send of the path is refused; when it has gone no
send succeeds.  The path of a session is therefore one in front of the
departure and one behind it, and what scripts of programs keep along paths
settles the rest: the first refused send is the end, and a handler invoked
behind the departure publishes nothing, fails, or comes right before that send.
-/

/-- What a producer's thread has still to do. -/
def Performer.script : Performer σ κ ε → Script σ κ ε
  | .between script => script
  | .sending item taken refused => .send item taken refused

/-- How many steps a script is from its end when every send is refused. -/
def Script.parting : Script σ κ ε → Nat
  | .ended _ _ => 0
  | .invoke _ next => next.parting + 1
  | .send _ _ refused => refused.parting + 2

/-- How many steps a thread is from its end when every send is refused. -/
def Performer.parting : Performer σ κ ε → Nat
  | .between script => script.parting
  | .sending _ _ refused => refused.parting + 1

namespace Session

/-- What the producer of a session has still to do. -/
def script (session : Session σ κ ε) : Script σ κ ε :=
  session.performer.script

/-- The ways in which a turn can move a session. -/
inductive Moves (session : Session σ κ ε) :
    Option (Happening σ κ ε) × Session σ κ ε → Prop where
  | quiet
      {after : Session σ κ ε}
      (presence : after.present = session.present)
      (same : after.script = session.script) :
      Moves session (none, after)
  | invoked
      {after : Session σ κ ε}
      {dispatch : Dispatch σ κ}
      (presence : after.present = session.present)
      (stood : session.script = .invoke dispatch after.script) :
      Moves session (some (.invoked dispatch), after)
  | sent
      {after : Session σ κ ε}
      {item : StreamItem ε}
      {refused : Script σ κ ε}
      (present : session.present = true)
      (stays : after.present = true)
      (stood : session.script = .send item after.script refused) :
      Moves session (some (.sent item), after)
  | refused
      {after : Session σ κ ε}
      {item : StreamItem ε}
      {taken : Script σ κ ε}
      (gone : session.present = false)
      (stays : after.present = false)
      (stood : session.script = .send item taken after.script) :
      Moves session (some (.refused item), after)
  | left
      {after : Session σ κ ε}
      (present : session.present = true)
      (gone : after.present = false)
      (same : after.script = session.script) :
      Moves session (some .left, after)

private theorem moves_produce (session : Session σ κ ε) :
    session.Moves session.produce := by
  obtain ⟨capacity, performer, queue, present⟩ := session
  match performer with
  | .between (.ended ending world) => exact .quiet rfl rfl
  | .between (.invoke dispatch next) => exact .invoked rfl rfl
  | .between (.send item taken refused) => exact .quiet rfl rfl
  | .sending item taken refused =>
      cases present with
      | false => exact .refused rfl rfl rfl
      | true =>
          simp only [produce, ↓reduceIte]
          split
          · exact .sent rfl rfl rfl
          · exact .quiet rfl rfl

private theorem moves_take (session : Session σ κ ε) :
    session.Moves session.take := by
  obtain ⟨capacity, performer, queue, present⟩ := session
  cases present with
  | false => exact .quiet rfl rfl
  | true =>
      match queue, performer with
      | _ :: rest, performer => exact .quiet rfl rfl
      | [], .between script => exact .quiet rfl rfl
      | [], .sending item taken refused =>
          simp only [take, ↓reduceIte]
          split
          · exact .sent rfl rfl rfl
          · exact .quiet rfl rfl

private theorem moves_leave (session : Session σ κ ε) :
    session.Moves session.leave := by
  unfold leave
  split
  · next present => exact .left present rfl rfl
  · exact .quiet rfl rfl

theorem moves_turn (session : Session σ κ ε) (turn : Turn) :
    session.Moves (session.turn turn) := by
  cases turn with
  | produce => exact session.moves_produce
  | take => exact session.moves_take
  | leave => exact session.moves_leave

/-- Turns after the consumer has gone: no send succeeds. -/
theorem run_of_gone
    {session : Session σ κ ε}
    (gone : session.present = false)
    (turns : List Turn) :
    (run turns session).2.present = false ∧
      session.script.Leads (run turns session).1 (run turns session).2.script ∧
        itemsIn (run turns session).1 = [] := by
  induction turns generalizing session with
  | nil => exact ⟨gone, .stay _, rfl⟩
  | cons first rest inductionHypothesis =>
      have moves := session.moves_turn first
      rw [run]
      generalize session.turn first = moved at moves
      cases moves with
      | quiet presence same =>
          have others := inductionHypothesis (presence.trans gone)
          rwa [same] at others
      | @invoked after dispatch presence stood =>
          obtain ⟨stillGone, others, nothing⟩ :=
            inductionHypothesis (presence.trans gone)
          rw [stood]
          exact ⟨stillGone, .invoke others, nothing⟩
      | refused _ stays stood =>
          obtain ⟨stillGone, others, nothing⟩ := inductionHypothesis stays
          rw [stood]
          exact ⟨stillGone, .refuse others, nothing⟩
      | sent present _ _ =>
          rw [gone] at present
          cases present
      | left present _ _ =>
          rw [gone] at present
          cases present

/-- How a session went that began with its consumer there. -/
inductive Course (session : Session σ κ ε) :
    List (Happening σ κ ε) × Session σ κ ε → Prop where
  | stayed
      {path : List (Happening σ κ ε)}
      {last : Session σ κ ε}
      (present : last.present = true)
      (leads : session.script.Leads path last.script)
      (taken : ∀ item, .refused item ∉ path) :
      Course session (path, last)
  | left
      {before behind : List (Happening σ κ ε)}
      {middle : Script σ κ ε}
      {last : Session σ κ ε}
      (gone : last.present = false)
      (leads : session.script.Leads before middle)
      (taken : ∀ item, .refused item ∉ before)
      (parts : middle.Leads behind last.script)
      (nothing : itemsIn behind = []) :
      Course session (before ++ .left :: behind, last)

private theorem Course.of_same
    {session after : Session σ κ ε}
    {ran : List (Happening σ κ ε) × Session σ κ ε}
    (course : after.Course ran)
    (same : after.script = session.script) :
    session.Course ran := by
  cases course with
  | stayed present leads taken =>
      rw [same] at leads
      exact .stayed present leads taken
  | left gone leads taken parts nothing =>
      rw [same] at leads
      exact .left gone leads taken parts nothing

/-- A course with a step of the producer in front of it. -/
theorem Course.cons
    {session after last : Session σ κ ε}
    {happening : Happening σ κ ε}
    {others : List (Happening σ κ ε)}
    (course : after.Course (others, last))
    (step :
      ∀ path script, after.script.Leads path script →
        session.script.Leads (happening :: path) script)
    (taken : ∀ item, happening ≠ .refused item) :
    session.Course (happening :: others, last) := by
  have stillTaken
      {path : List (Happening σ κ ε)}
      (takenLater : ∀ item, .refused item ∉ path) :
      ∀ item, .refused item ∉ happening :: path := by
    intro item member
    rcases List.mem_cons.1 member with same | later
    · exact taken item same.symm
    · exact takenLater item later
  cases course with
  | stayed present leads takenLater =>
      exact .stayed present (step _ _ leads) (stillTaken takenLater)
  | left gone leads takenLater parts nothing =>
      exact .left gone (step _ _ leads) (stillTaken takenLater) parts nothing

/-- Every session has such a course. -/
theorem course_run
    {session : Session σ κ ε}
    (present : session.present = true)
    (turns : List Turn) :
    session.Course (run turns session) := by
  induction turns generalizing session with
  | nil => exact .stayed present (.stay _) fun _ => List.not_mem_nil
  | cons first rest inductionHypothesis =>
      have moves := session.moves_turn first
      rw [run]
      generalize session.turn first = moved at moves
      cases moves with
      | quiet presence same =>
          exact (inductionHypothesis (presence.trans present)).of_same same
      | invoked presence stood =>
          refine (inductionHypothesis (presence.trans present)).cons ?_ ?_
          · intro path script leads
            rw [stood]
            exact .invoke leads
          · intro item same
            cases same
      | sent _ stays stood =>
          refine (inductionHypothesis stays).cons ?_ ?_
          · intro path script leads
            rw [stood]
            exact .take leads
          · intro item same
            cases same
      | refused gone _ _ =>
          rw [present] at gone
          cases gone
      | left _ gone same =>
          obtain ⟨stillGone, parts, nothing⟩ := run_of_gone gone rest
          exact .left stillGone (.stay _) (fun _ => List.not_mem_nil)
            (same ▸ parts) nothing

/-- What happens to the producer is a path through its script. -/
theorem Course.exists_leads
    {session : Session σ κ ε}
    {ran : List (Happening σ κ ε) × Session σ κ ε}
    (course : session.Course ran) :
    ∃ path,
      session.script.Leads path ran.2.script ∧
        dispatchesIn path = dispatchesIn ran.1 ∧
          itemsIn path = itemsIn ran.1 := by
  cases course with
  | stayed present leads taken => exact ⟨_, leads, rfl, rfl⟩
  | left gone leads taken parts nothing =>
      refine ⟨_, leads.append parts, ?_, ?_⟩
      · rw [dispatchesIn_append, dispatchesIn_append]
        rfl
      · rw [itemsIn_append, itemsIn_append]
        rfl

/-- The consumer is there as long as its departure has not happened. -/
theorem Course.present_iff
    {session : Session σ κ ε}
    {ran : List (Happening σ κ ε) × Session σ κ ε}
    (course : session.Course ran) :
    ran.2.present = true ↔ .left ∉ ran.1 := by
  cases course with
  | stayed present leads taken => exact iff_of_true present leads.left_notMem
  | left gone leads taken parts nothing =>
      refine iff_of_false ?_ ?_
      · rw [gone]
        exact Bool.false_ne_true
      · simp

/-- The consumer leaves at one place, with a path in front and one behind. -/
theorem Course.of_left
    {session last : Session σ κ ε}
    {before behind : List (Happening σ κ ε)}
    (course : session.Course (before ++ .left :: behind, last)) :
    last.present = false ∧
      ∃ middle,
        session.script.Leads before middle ∧
          middle.Leads behind last.script ∧ itemsIn behind = [] := by
  generalize shape : before ++ .left :: behind = happenings at course
  cases course with
  | stayed present leads taken =>
      have absent := leads.left_notMem
      rw [← shape] at absent
      simp at absent
  | left gone leads taken parts nothing =>
      obtain ⟨rfl, -, rfl⟩ :=
        (List.append_cons_inj_of_notMem leads.left_notMem
          parts.left_notMem).1 shape.symm
      exact ⟨gone, _, leads, parts, nothing⟩

/-- A send is refused only behind the departure. -/
theorem Course.of_refused
    {session last : Session σ κ ε}
    {before behind : List (Happening σ κ ε)}
    {item : StreamItem ε}
    (course : session.Course (before ++ .refused item :: behind, last)) :
    ∃ front early middle,
      before = front ++ .left :: early ∧ session.script.Leads front middle ∧
        middle.Leads (early ++ .refused item :: behind) last.script := by
  generalize shape : before ++ .refused item :: behind = happenings at course
  cases course with
  | stayed present leads taken =>
      refine absurd ?_ (taken item)
      rw [← shape]
      simp
  | @left front rest middle _ gone leads taken parts nothing =>
      rcases List.append_eq_append_iff.1 shape with
        ⟨more, same, tail⟩ | ⟨more, same, tail⟩
      · refine absurd ?_ (taken item)
        rw [same]
        cases more with
        | nil => cases tail
        | cons first others =>
            cases tail
            simp
      · cases more with
        | nil => cases tail
        | cons first early =>
            cases tail
            exact ⟨front, early, middle, same, leads, parts⟩

private theorem produce_of_gone
    {session : Session σ κ ε}
    (gone : session.present = false) :
    session.produce.2.present = false ∧
      session.produce.2.performer.parting = session.performer.parting - 1 := by
  obtain ⟨capacity, performer, queue, present⟩ := session
  subst gone
  match performer with
  | .between (.ended ending world) => exact ⟨rfl, rfl⟩
  | .between (.invoke dispatch next) => exact ⟨rfl, rfl⟩
  | .between (.send item taken refused) => exact ⟨rfl, rfl⟩
  | .sending item taken refused => exact ⟨rfl, rfl⟩

/-- A producer without a consumer ends as soon as it has had its steps. -/
theorem ended_of_gone
    {session : Session σ κ ε}
    (gone : session.present = false)
    (turns : List Turn)
    (enough : session.performer.parting ≤ turns.count .produce) :
    ∃ ending next, (run turns session).2.script = .ended ending next := by
  induction turns generalizing session with
  | nil =>
      obtain ⟨capacity, performer, queue, present⟩ := session
      match performer with
      | .between (.ended ending world) => exact ⟨ending, world, rfl⟩
      | .between (.invoke dispatch next) => cases enough
      | .between (.send item taken refused) => cases enough
      | .sending item taken refused => cases enough
  | cons first rest inductionHypothesis =>
      cases first with
      | produce =>
          obtain ⟨stillGone, fewer⟩ := produce_of_gone gone
          rw [List.count_cons_self] at enough
          have stillEnough :
              session.produce.2.performer.parting ≤ rest.count .produce := by
            rw [fewer]
            exact Nat.sub_le_of_le_add enough
          exact inductionHypothesis stillGone stillEnough
      | take =>
          have idle : session.take = (none, session) := by simp [take, gone]
          rw [run, turn, idle]
          exact inductionHypothesis gone enough
      | leave =>
          have idle : session.leave = (none, session) := by simp [leave, gone]
          rw [run, turn, idle]
          exact inductionHypothesis gone enough

end Session

/-- What is so at every moment of the stream of a program. -/
structure Engine.StopsWhenLeft (engine : Engine σ κ ω ε ρ) (source : String)
    (world : World σ)
    (ran : List (Happening σ κ ε) × Session σ κ ε) : Prop where
  /-- Without a program to evaluate no handler is invoked. -/
  unread :
    ∀ cause, engine.parser source = .error cause → dispatchesIn ran.1 = []
  /-- The handlers are those of the first calls, one for each. -/
  handlers :
    ∀ chain, engine.parser source = .ok chain →
      (dispatchesIn ran.1).map Dispatch.call <+: chain.calls
  /-- They are invoked as in an undisturbed stream. -/
  deeds :
    (dispatchesIn ran.1).map Dispatch.deed <+:
      (engine.recording.produce source (.openFor none)
        (world.logging [])).2.state.2
  /-- The items sent are the first ones of an undisturbed stream. -/
  items :
    itemsIn ran.1 <+:
      (engine.produce source (.openFor none) world).1.outlet.sent
  /-- The consumer is there until its departure happens. -/
  stays : ran.2.present = true ↔ .left ∉ ran.1
  /-- Its turn to leave is the departure, and what is in the queue is lost. -/
  leaves :
    ran.2.present = true →
      ran.2.turn .leave =
        (some .left, { ran.2 with queue := [], present := false })
  /-- Only who has gone is refused, and the first refused send is the end. -/
  stops :
    ∀ before item behind, ran.1 = before ++ .refused item :: behind →
      .left ∈ before ∧ behind = [] ∧
        ∃ next, ran.2.script = .ended .normal next
  /-- Behind the departure nothing is sent, and all handlers are late ones. -/
  late :
    ∀ before behind, ran.1 = before ++ .left :: behind →
      itemsIn behind = [] ∧
        ∀ early dispatch rest,
          behind = early ++ .invoked dispatch :: rest →
            Script.Late engine.convention engine.registry ran.2.script
              dispatch rest
  /-- The producer does come to its end then. -/
  ends :
    .left ∈ ran.1 →
      ∃ count, ∀ turns, count ≤ turns.count .produce →
        ∃ ending next,
          (Session.run turns ran.2).2.script = .ended ending next
  /-- At its end it has gone as into an outlet that takes what was sent. -/
  whole :
    ∀ ending next, ran.2.script = .ended ending next →
      let outlet : Outlet ε := .openFor (some (itemsIn ran.1).length)
      let production : Production ε := ⟨⟨some 0, itemsIn ran.1⟩, ending⟩
      engine.produce source outlet world = (production, next) ∧
        engine.recording.produce source outlet (world.logging []) =
          (production,
            next.logging ((dispatchesIn ran.1).map Dispatch.deed))

namespace Engine

/-- The handlers of a program that is read are those of first calls. -/
theorem calls_play_script
    {engine : Engine σ κ ω ε ρ}
    {source : String}
    {chain : Chain}
    (parsed : engine.parser source = .ok chain)
    (world : World σ)
    (outlet : Outlet ε) :
    ((engine.script source world).play outlet).1.map Dispatch.call <+:
      chain.calls := by
  rw [script, parse, parsed]
  exact Script.calls_play_ofCalls ..

/-- A program that is not read invokes no handler. -/
theorem play_script_of_rejected
    {engine : Engine σ κ ω ε ρ}
    {source : String}
    {cause : ParseError}
    (rejected : engine.parser source = .error cause)
    (world : World σ)
    (outlet : Outlet ε) :
    ((engine.script source world).play outlet).1 = [] := by
  rw [script, parse, rejected]
  exact congrArg Prod.fst (Script.play_ofError _ world outlet)

/--
Whatever an engine, a program, a world, a channel's capacity and the turns that
the producer and a consumer take, with the consumer leaving at any of them: the
producer stops at the next send.
-/
theorem stops_when_left
    (engine : Engine σ κ ω ε ρ)
    (source : String)
    (world : World σ)
    (capacity : Option Nat)
    (turns : List Session.Turn) :
    engine.StopsWhenLeft source world
      (Session.run turns (.opened capacity (engine.script source world))) := by
  have lawful := engine.lawful_script source world
  have course :
      (Session.opened capacity (engine.script source world)).Course
        (Session.run turns (.opened capacity (engine.script source world))) :=
    Session.course_run rfl turns
  generalize
    Session.run turns (.opened capacity (engine.script source world)) = ran
    at course
  obtain ⟨happenings, last⟩ := ran
  obtain ⟨path, along, sameDispatches, sameItems⟩ := course.exists_leads
  have leads : (engine.script source world).Leads path last.script := along
  obtain ⟨invoked, sent⟩ := leads.prefix_play lawful []
  rw [sameDispatches] at invoked
  rw [sameItems] at sent
  refine
    { unread := ?unread
      handlers := ?handlers
      deeds := ?deeds
      items := ?items
      stays := course.present_iff
      leaves := ?leaves
      stops := ?stops
      late := ?late
      ends := ?ends
      whole := ?whole }
  case unread =>
    intro cause rejected
    have none := play_script_of_rejected rejected world (.openFor none)
    exact List.prefix_nil.1 (none ▸ invoked)
  case handlers =>
    intro chain parsed
    exact (invoked.map _).trans (calls_play_script parsed world _)
  case deeds =>
    rw [produce_recording_eq_play]
    exact invoked.map _
  case items =>
    rw [produce_eq_play]
    exact sent
  case leaves =>
    intro present
    exact if_pos present
  case stops =>
    rintro before item behind rfl
    obtain ⟨first, early, middle, rfl, front, parts⟩ := course.of_refused
    exact ⟨by simp, parts.ended_of_refused (front.lawful lawful)⟩
  case late =>
    rintro before behind rfl
    obtain ⟨_, middle, front, parts, nothing⟩ := course.of_left
    refine ⟨nothing, ?_⟩
    rintro early dispatch rest rfl
    exact parts.late (front.lawful lawful) nothing
  case ends =>
    intro left
    obtain ⟨before, behind, rfl⟩ := List.append_of_mem left
    exact ⟨_, Session.ended_of_gone course.of_left.1⟩
  case whole =>
    intro ending next ended
    rw [ended] at leads
    have played := leads.play_eq lawful []
    rw [sameDispatches, sameItems, List.nil_append] at played
    constructor
    · rw [produce_eq_play]
      exact congrArg Prod.snd played
    · rw [produce_recording_eq_play, Outlet.openFor, played]

-- The second of three calls is invoked; its event finds nobody there.
example :
    let switching : PlanningHandler Unit :=
      .computing fun _ _ => .ok (Registry.oneAction (.bare "light_on"))
    let thrice : Chain := ⟨[⟨"on", []⟩, ⟨"on", []⟩, ⟨"on", []⟩]⟩
    let engine : PlanningEngine Unit Unit :=
      { convention := .planning
        grammar := ""
        parser := fun _ => .ok thrice
        registry := Table.empty.insert "on" switching
        executor := fun _ device => (.ok (), device)
        settings := .standard }
    let ran :=
      Session.run
        [.produce, .produce, .take, .leave, .produce, .produce, .produce]
        (.opened (some 0) (engine.script "" ⟨.fresh, ()⟩))
    itemsIn ran.1 = [.ok (.bare "light_on")] ∧
      (dispatchesIn ran.1).map Dispatch.call = thrice.calls.take 2 ∧
        ran.2.script = .ended .normal ⟨.fresh, ()⟩ :=
  ⟨rfl, rfl, rfl⟩

end Engine

end VerbChain
