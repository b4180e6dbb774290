import Mathlib.Data.List.Sort
import VerbChain.Evaluation.Walk
import VerbChain.Language.Tasks
import VerbChain.Proofs.Functional.Conventions

namespace VerbChain

/-!
# Registering handlers

A registry is made by registrations, one after the other.  Each registers one
handler under a name, or all the functional verbs under theirs.  A name belongs
to the last registration that has it, whatever the earlier ones were, so a
functional verb goes over a handler of its name and the other way, depending on
which comes later.  Names are the same only if they are spelled the same.

Whatever a registry is asked, the answers agree with this: which handler a name
has, whether it has one, which names there are and how many, and what a call of
a name comes to.
-/

/-- What is registered at once: a handler under a name, or the functional verbs. -/
inductive Registration (σ κ ω : Type) where
  | verb (name : String) (handler : Handler σ κ ω)
  | functional (handler : FunctionalVerb → Handler σ κ ω)

/-- The names and handlers of a registration. -/
inductive Registration.Gives :
    Registration σ κ ω → String → Handler σ κ ω → Prop where
  | verb (name : String) (handler : Handler σ κ ω) :
      Gives (.verb name handler) name handler
  | functional
      (handler : FunctionalVerb → Handler σ κ ω)
      (verb : FunctionalVerb) :
      Gives (.functional handler) verb.name (handler verb)

/-- A registration has a name. -/
def Registration.Names (registration : Registration σ κ ω) (name : String) :
    Prop :=
  ∃ handler, registration.Gives name handler

/-- The last of the registrations with a name gives it a handler. -/
def Registration.LastGives (registrations : List (Registration σ κ ω))
    (name : String) (handler : Handler σ κ ω) : Prop :=
  ∃ earlier registration later,
    registrations = earlier ++ registration :: later ∧
      registration.Gives name handler ∧
      ∀ other ∈ later, ¬other.Names name

namespace Registry

/-- Register what a registration has. -/
def enter (registry : Registry σ κ ω) :
    Registration σ κ ω → Registry σ κ ω
  | .verb name handler => registry.insert name handler
  | .functional handler => registry.withFunctional handler

/-- The registry that registrations make of an empty one. -/
def ofRegistrations (registrations : List (Registration σ κ ω)) :
    Registry σ κ ω :=
  registrations.foldl enter .empty

section Step

variable {registration : Registration σ κ ω} {name : String}
  {handler : Handler σ κ ω}

/-- A name finds what was registered under it just now. -/
theorem find?_enter_of_gives
    (registry : Registry σ κ ω)
    (gives : registration.Gives name handler) :
    (registry.enter registration).find? name = some handler := by
  cases gives with
  | verb => exact (Table.find?_insert registry _ _ _).trans (if_pos rfl)
  | functional handler verb =>
      exact find?_withFunctional_name registry handler verb

/-- A name finds what it found before a registration without it. -/
theorem find?_enter_of_not_names
    (registry : Registry σ κ ω)
    (unnamed : ¬registration.Names name) :
    (registry.enter registration).find? name = registry.find? name := by
  cases registration with
  | verb other handler =>
      have different : name ≠ other := by
        rintro rfl
        exact unnamed ⟨handler, .verb name handler⟩
      exact (Table.find?_insert registry _ _ _).trans (if_neg different)
  | functional handler =>
      have no_verb :
          (FunctionalVerb.all.find? fun verb => verb.name = name) = none := by
        rw [List.find?_eq_none]
        intro verb _ same
        rw [← of_decide_eq_true same] at unnamed
        exact unnamed ⟨handler verb, .functional handler verb⟩
      rw [enter, find?_withFunctional, no_verb]
      rfl

end Step

section Run

variable {registrations : List (Registration σ κ ω)} {name : String}
  {handler : Handler σ κ ω}

/-- A name finds what it found before registrations without it. -/
private theorem find?_foldl_enter
    (registry : Registry σ κ ω)
    (unnamed : ∀ registration ∈ registrations, ¬registration.Names name) :
    (registrations.foldl enter registry).find? name = registry.find? name := by
  induction registrations generalizing registry with
  | nil => rfl
  | cons registration rest inductionHypothesis =>
      obtain ⟨here, later⟩ := List.forall_mem_cons.1 unnamed
      rw [List.foldl_cons, inductionHypothesis _ later,
        find?_enter_of_not_names registry here]

theorem find?_of_lastGives
    (last : Registration.LastGives registrations name handler) :
    (ofRegistrations registrations).find? name = some handler := by
  obtain ⟨earlier, registration, later, rfl, gives, unnamed⟩ := last
  rw [ofRegistrations, List.foldl_append, List.foldl_cons,
    find?_foldl_enter _ unnamed, find?_enter_of_gives _ gives]

theorem find?_of_unnamed
    (unnamed : ∀ registration ∈ registrations, ¬registration.Names name) :
    (ofRegistrations registrations).find? name = none :=
  find?_foldl_enter .empty unnamed

/-- No registration has a name, or one of them is the last that has it. -/
private theorem unnamed_or_lastGives
    (registrations : List (Registration σ κ ω))
    (name : String) :
    (∀ registration ∈ registrations, ¬registration.Names name) ∨
      ∃ handler, Registration.LastGives registrations name handler := by
  induction registrations with
  | nil => exact .inl nofun
  | cons registration rest inductionHypothesis =>
      rcases inductionHypothesis with unnamed | ⟨handler, last⟩
      · by_cases named : registration.Names name
        · obtain ⟨handler, gives⟩ := named
          exact .inr ⟨handler, [], registration, rest, rfl, gives, unnamed⟩
        · exact .inl (List.forall_mem_cons.2 ⟨named, unnamed⟩)
      · obtain ⟨earlier, giving, later, rfl, gives, unnamed⟩ := last
        exact .inr ⟨handler, registration :: earlier, giving, later, rfl, gives,
          unnamed⟩

theorem find?_ofRegistrations_eq_some_iff :
    (ofRegistrations registrations).find? name = some handler ↔
      Registration.LastGives registrations name handler := by
  refine ⟨fun found => ?_, find?_of_lastGives⟩
  rcases unnamed_or_lastGives registrations name with
    unnamed | ⟨other, last⟩
  · rw [find?_of_unnamed unnamed] at found
    cases found
  · rw [find?_of_lastGives last] at found
    cases found
    exact last

theorem find?_ofRegistrations_eq_none_iff :
    (ofRegistrations registrations).find? name = none ↔
      ∀ registration ∈ registrations, ¬registration.Names name := by
  refine ⟨fun missing => ?_, find?_of_unnamed⟩
  rcases unnamed_or_lastGives registrations name with
    unnamed | ⟨other, last⟩
  · exact unnamed
  · rw [find?_of_lastGives last] at missing
    cases missing

/-- The names of a registry are those of its registrations. -/
theorem mem_keys_ofRegistrations_iff :
    name ∈ (ofRegistrations registrations).keys ↔
      ∃ registration ∈ registrations, registration.Names name := by
  rw [Table.mem_keys_iff, Ne, find?_ofRegistrations_eq_none_iff]
  simp only [not_forall, not_not, exists_prop]

end Run

end Registry

/-- Every registration has a name. -/
theorem Registration.exists_name (registration : Registration σ κ ω) :
    ∃ name, registration.Names name := by
  cases registration with
  | verb name handler => exact ⟨name, handler, .verb name handler⟩
  | functional handler =>
      exact ⟨_, handler .map, .functional handler .map⟩

/-- Keys stand in increasing order. -/
theorem Table.pairwise_keys (table : Table α) :
    table.keys.Pairwise (· < ·) :=
  List.pairwise_map.2 table.ordered

/-- In whatever order the keys are listed, once each, sorting gives them. -/
theorem Table.mergeSort_eq_keys
    {table : Table α}
    {listed : List String}
    (once : listed.Nodup)
    (same : ∀ key, key ∈ listed ↔ key ∈ table.keys) :
    listed.mergeSort (fun left right => left ≤ right) = table.keys := by
  have increasing := table.pairwise_keys
  have distinct : table.keys.Nodup := by
    refine increasing.imp ?_
    rintro key _ before rfl
    exact String.lt_irrefl key before
  have rearranged :
      (listed.mergeSort fun left right => left ≤ right).Perm table.keys :=
    (List.mergeSort_perm listed _).trans
      ((List.perm_ext_iff_of_nodup once distinct).2 same)
  have sorted :
      (listed.mergeSort fun left right => left ≤ right).Pairwise (· ≤ ·) := by
    refine (List.pairwise_mergeSort ?_ ?_ listed).imp of_decide_eq_true
    · intro first second third
      simpa using String.le_trans
    · intro first second
      simpa using String.le_total first second
  exact
    rearranged.eq_of_pairwise (fun _ _ _ _ => String.le_antisymm) sorted
      (increasing.imp Std.le_of_lt)

/--
A registry answers as its registrations say.  The order in which its names are
collected does not matter, because they are sorted then.
-/
structure Registry.Reflects (registry : Registry σ κ ω)
    (registrations : List (Registration σ κ ω)) : Prop where
  found_iff :
    ∀ name handler,
      registry.find? name = some handler ↔
        Registration.LastGives registrations name handler
  missing_iff :
    ∀ name,
      registry.find? name = none ↔
        ∀ registration ∈ registrations, ¬registration.Names name
  contains_iff :
    ∀ name,
      registry.contains name = true ↔
        ∃ handler, registry.find? name = some handler
  listed_iff :
    ∀ name,
      name ∈ registry.keys ↔
        ∃ registration ∈ registrations, registration.Names name
  increasing : registry.keys.Pairwise (· < ·)
  sorted :
    ∀ collected : List String,
      collected.Nodup →
        (∀ name, name ∈ collected ↔
          ∃ registration ∈ registrations, registration.Names name) →
          collected.mergeSort (fun left right => left ≤ right) = registry.keys
  size_eq : registry.size = registry.keys.length
  isEmpty_iff : registry.isEmpty = true ↔ registrations = []
  reached :
    ∀ call handler context world,
      Registration.LastGives registrations call.name handler →
        Evaluation.dispatch registry call context world =
          match handler (.ofArguments call.arguments) context world with
          | (.ok outcome, next) => (.ok outcome, next)
          | (.error error, next) => (.error (.handler call.name error), next)
  unknown :
    ∀ call context world,
      (∀ registration ∈ registrations, ¬registration.Names call.name) →
        Evaluation.dispatch registry call context world =
          (.error (.unknownCall call.name), world)

namespace Registry

/-- A registry is empty only if there was no registration. -/
theorem isEmpty_ofRegistrations_iff
    {registrations : List (Registration σ κ ω)} :
    (ofRegistrations registrations).isEmpty = true ↔ registrations = [] := by
  constructor
  · intro isEmpty
    rw [Table.isEmpty, List.isEmpty_iff] at isEmpty
    cases registrations with
    | nil => rfl
    | cons registration rest =>
        obtain ⟨name, named⟩ := registration.exists_name
        have listed : name ∈ (ofRegistrations (registration :: rest)).keys :=
          mem_keys_ofRegistrations_iff.2
            ⟨registration, List.mem_cons_self, named⟩
        rw [Table.keys, isEmpty] at listed
        cases listed
  · rintro rfl
    rfl

/--
After any registrations a name has the handler of the last one that has this
very name, and none if there is no such; all answers of the registry agree with
this.  The names stand in increasing order, each once, and are as many as there
are entries.  A call reaches the handler of its name, or is unknown.
-/
theorem last_registration_stands
    (registrations : List (Registration σ κ ω)) :
    (ofRegistrations registrations).Reflects registrations where
  found_iff _ _ := find?_ofRegistrations_eq_some_iff
  missing_iff _ := find?_ofRegistrations_eq_none_iff
  contains_iff _ := Option.isSome_iff_exists
  listed_iff _ := mem_keys_ofRegistrations_iff
  increasing := Table.pairwise_keys _
  sorted _ once same :=
    Table.mergeSort_eq_keys once fun name =>
      (same name).trans mem_keys_ofRegistrations_iff.symm
  size_eq := (List.length_map _).symm
  isEmpty_iff := isEmpty_ofRegistrations_iff
  reached call handler context world last := by
    rw [Evaluation.dispatch, find?_of_lastGives last]
    simp only
    rcases handler (.ofArguments call.arguments) context world
      with ⟨answer, next⟩
    cases answer <;> rfl
  unknown call context world unnamed := by
    rw [Evaluation.dispatch, find?_of_unnamed unnamed]

/-- The verbs of the language of tasks are four registrations. -/
example :
    Tasks.registry =
      ofRegistrations
        [.verb "task" (Tasks.entry "task" "name"),
          .verb "done" (Tasks.entry "done" "name"),
          .verb "note" (Tasks.entry "note" "text"),
          .functional (functionalMethod Tasks.functionalEntry)] :=
  rfl

/-- A verb that is registered again is listed once, and `Map` is not `map`. -/
example (own : PlanningHandler σ) :
    let registrations :=
      [.verb "pipe" own, .functional functionalVerb, .verb "Map" own]
    (ofRegistrations registrations).keys =
      ["Map", "compose", "filter", "map", "pipe", "reduce"] := by
  cbv

end Registry

end VerbChain
