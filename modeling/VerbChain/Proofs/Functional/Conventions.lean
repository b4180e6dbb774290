import VerbChain.Proofs.Functional.Positionals

namespace VerbChain

/-!
# Functional verbs in both conventions

A planning registry and a direct registry take the functional verbs from the
same reader of bags.  What is taken becomes one action that leaves the context,
or is handed on once; what is refused becomes an error of the call, and there is
no action and nothing is handed on.  An act is made to note what it is handed in
a log beside the state.
-/

namespace Registry

/-- A functional verb is found in front of what was there under its name. -/
theorem find?_withFunctional
    (registry : Registry σ κ ω)
    (handler : FunctionalVerb → Handler σ κ ω)
    (name : String) :
    (registry.withFunctional handler).find? name =
      ((FunctionalVerb.all.find? fun verb => verb.name = name).map
        handler).or (registry.find? name) := by
  simp only [withFunctional, Table.insertMany, FunctionalVerb.all,
    List.map_cons, List.map_nil, List.foldl_cons, List.foldl_nil,
    Table.find?_insert, FunctionalVerb.name, List.find?_cons]
  grind

theorem find?_withFunctional_name
    (registry : Registry σ κ ω)
    (handler : FunctionalVerb → Handler σ κ ω)
    (verb : FunctionalVerb) :
    (registry.withFunctional handler).find? verb.name =
      some (handler verb) := by
  rw [find?_withFunctional]
  cases verb <;> rfl

end Registry

/-- An act that notes every call it is handed in a log beside the state. -/
def FunctionalCall.noting
    (act : FunctionalCall → World σ → Except HandlerError Unit × World σ) :
    FunctionalCall → World (σ × List FunctionalCall) →
      Except HandlerError Unit × World (σ × List FunctionalCall) :=
  fun call world =>
    match act call ⟨world.token, world.state.1⟩ with
    | (answer, next) => (answer, next.logging (world.state.2 ++ [call]))

section Dispatching

variable {verb : FunctionalVerb} {arguments : List Argument}
  {call : FunctionalCall} {error : ArgumentError}

/-- What a planning registry makes of a functional verb. -/
theorem Evaluation.dispatch_functionalVerb
    (registry : Registry σ Context (List Action))
    (context : Context)
    (world : World σ) :
    dispatch (registry.withFunctional Registry.functionalVerb)
        ⟨verb.name, arguments⟩ context world =
      match FunctionalCall.ofBag verb (.ofArguments arguments) with
      | .ok call => (.ok ⟨[call.toAction], none⟩, world)
      | .error error => (.error (.handler verb.name (.argument error)), world)
      := by
  rw [dispatch, Registry.find?_withFunctional_name]
  simp only [Registry.functionalVerb, Handler.computing]
  cases FunctionalCall.ofBag verb (.ofArguments arguments) <;> rfl

/-- What a direct registry makes of a functional verb. -/
theorem Evaluation.dispatch_functionalMethod
    (registry : Registry (σ × List FunctionalCall) Unit Unit)
    (act : FunctionalCall → World σ → Except HandlerError Unit × World σ)
    (world : World σ)
    (log : List FunctionalCall) :
    dispatch
        (registry.withFunctional
          (Registry.functionalMethod (FunctionalCall.noting act)))
        ⟨verb.name, arguments⟩ () (world.logging log) =
      match FunctionalCall.ofBag verb (.ofArguments arguments) with
      | .ok call =>
          match act call world with
          | (.ok (), next) => (.ok ⟨(), none⟩, next.logging (log ++ [call]))
          | (.error error, next) =>
              (.error (.handler verb.name error), next.logging (log ++ [call]))
      | .error error =>
          (.error (.handler verb.name (.argument error)), world.logging log)
      := by
  rw [dispatch, Registry.find?_withFunctional_name]
  simp only [Registry.functionalMethod]
  cases FunctionalCall.ofBag verb (.ofArguments arguments) with
  | error error => rfl
  | ok call =>
      simp only [FunctionalCall.noting, World.logging]
      rcases act call world with ⟨answer, next⟩
      cases answer <;> rfl

end Dispatching

/--
What arguments of a functional verb come to: what is in its layout is taken, and
else the first fault is the reason why it is refused, in both conventions.
-/
structure FunctionalVerb.Extracts (verb : FunctionalVerb)
    (arguments : List Argument) : Prop where
  taken :
    ∀ call,
      FunctionalCall.ofBag verb (.ofArguments arguments) = .ok call ↔
        verb.Takes (Argument.positionals arguments) call
  refused :
    ∀ error,
      FunctionalCall.ofBag verb (.ofArguments arguments) = .error error ↔
        verb.firstFault? (Argument.positionals arguments) = some error
  planned :
    ∀ call, verb.Takes (Argument.positionals arguments) call →
      ∀ (σ : Type) (registry : Registry σ Context (List Action))
          (context : Context) (world : World σ),
        Evaluation.dispatch
            (registry.withFunctional Registry.functionalVerb)
            ⟨verb.name, arguments⟩ context world =
          (.ok ⟨[call.toAction], none⟩, world)
  handedOn :
    ∀ call, verb.Takes (Argument.positionals arguments) call →
      ∀ (σ : Type) (registry : Registry (σ × List FunctionalCall) Unit Unit)
          (act : FunctionalCall → World σ → Except HandlerError Unit × World σ)
          (world : World σ) (log : List FunctionalCall),
        Evaluation.dispatch
            (registry.withFunctional
              (Registry.functionalMethod (FunctionalCall.noting act)))
            ⟨verb.name, arguments⟩ () (world.logging log) =
          match act call world with
          | (.ok (), next) => (.ok ⟨(), none⟩, next.logging (log ++ [call]))
          | (.error error, next) =>
              (.error (.handler verb.name error),
                next.logging (log ++ [call]))
  unplanned :
    ∀ error,
      verb.firstFault? (Argument.positionals arguments) = some error →
      ∀ (σ : Type) (registry : Registry σ Context (List Action))
          (context : Context) (world : World σ),
        Evaluation.dispatch
            (registry.withFunctional Registry.functionalVerb)
            ⟨verb.name, arguments⟩ context world =
          (.error (.handler verb.name (.argument error)), world)
  withheld :
    ∀ error,
      verb.firstFault? (Argument.positionals arguments) = some error →
      ∀ (σ : Type) (registry : Registry (σ × List FunctionalCall) Unit Unit)
          (act : FunctionalCall → World σ → Except HandlerError Unit × World σ)
          (world : World σ) (log : List FunctionalCall),
        Evaluation.dispatch
            (registry.withFunctional
              (Registry.functionalMethod (FunctionalCall.noting act)))
            ⟨verb.name, arguments⟩ () (world.logging log) =
          (.error (.handler verb.name (.argument error)), world.logging log)

namespace FunctionalVerb

variable {arguments : List Argument}

/-- A functional verb takes exactly the arguments in its layout. -/
theorem ofBag_eq_ok_iff
    (unnumbered : Argument.Unnumbered arguments)
    (verb : FunctionalVerb)
    (call : FunctionalCall) :
    FunctionalCall.ofBag verb (.ofArguments arguments) = .ok call ↔
      verb.Takes (Argument.positionals arguments) call := by
  rw [FunctionalCall.ofBag_eq_ok_iff_takes,
    Bag.positionals_ofArguments unnumbered]

/-- It refuses others because of the first fault. -/
theorem ofBag_eq_error_iff
    (unnumbered : Argument.Unnumbered arguments)
    (verb : FunctionalVerb)
    (error : ArgumentError) :
    FunctionalCall.ofBag verb (.ofArguments arguments) = .error error ↔
      verb.firstFault? (Argument.positionals arguments) = some error := by
  rcases FunctionalCall.takes_or_fault unnumbered verb with
    ⟨call, takes⟩ | ⟨other, fault, failed⟩
  · rw [(ofBag_eq_ok_iff unnumbered verb call).2 takes,
      FunctionalCall.firstFault?_of_takes takes]
    exact ⟨nofun, nofun⟩
  · rw [failed, fault, Except.error.injEq, Option.some_inj]

/--
Where no name is spelled like the key of a number, a functional verb takes
exactly the positional values in its layout, and refuses all others because of
the first fault among its slots.  As a planning verb it emits one action for
what it takes and leaves the context; as a direct verb it hands on the same call
once.  Both fail with the same error where it refuses, and then there is no
action and nothing is handed on.
-/
theorem extracts_layout
    (unnumbered : Argument.Unnumbered arguments)
    (verb : FunctionalVerb) :
    verb.Extracts arguments where
  taken := ofBag_eq_ok_iff unnumbered verb
  refused := ofBag_eq_error_iff unnumbered verb
  planned call takes σ registry context world := by
    rw [Evaluation.dispatch_functionalVerb,
      (ofBag_eq_ok_iff unnumbered verb call).2 takes]
  handedOn call takes σ registry act world log := by
    rw [Evaluation.dispatch_functionalMethod,
      (ofBag_eq_ok_iff unnumbered verb call).2 takes]
  unplanned error fault σ registry context world := by
    rw [Evaluation.dispatch_functionalVerb,
      (ofBag_eq_error_iff unnumbered verb error).2 fault]
  withheld error fault σ registry act world log := by
    rw [Evaluation.dispatch_functionalMethod,
      (ofBag_eq_error_iff unnumbered verb error).2 fault]

/-- Eleven references are taken in order, whatever is given under a name. -/
theorem extracts_layout_eleven :
    let names := ["a", "b", "c", "d", "e", "f", "g", "h", "i", "j", "k"]
    let arguments :=
      .named "then" (.bool true) ::
        names.map fun name => .positional (.function name)
    Argument.Unnumbered arguments ∧
      FunctionalCall.ofBag .compose (.ofArguments arguments) =
        .ok ⟨.compose, names, none, none⟩ ∧
      FunctionalCall.ofBag .pipe (.ofArguments (arguments.take 2)) =
        .error (.missing "_positional_1") := by
  intro names arguments
  have unnumbered : Argument.Unnumbered arguments := by
    refine List.forall_mem_cons.2 ⟨fun index same => ?_, ?_⟩
    · exact ne_positionalKey (by decide) index (Option.some.inj same)
    · rintro _ member index
      obtain ⟨name, _, rfl⟩ := List.mem_map.1 member
      exact nofun
  have front : Argument.Unnumbered (arguments.take 2) :=
    fun argument member => unnumbered argument (List.mem_of_mem_take member)
  exact
    ⟨unnumbered, ((extracts_layout unnumbered .compose).taken _).2
      (.compose "a" names.tail), ((extracts_layout front .pipe).refused _).2 rfl⟩

end FunctionalVerb

end VerbChain
