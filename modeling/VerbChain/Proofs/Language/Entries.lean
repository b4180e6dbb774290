import VerbChain.Language.Tasks
import VerbChain.Proofs.Functional.Conventions
import VerbChain.Proofs.Functional.Positionals

namespace VerbChain.Tasks

/-!
# What a call writes to the task log

A call of a language of tasks writes one entry, which depends on nothing but the
call, or it is refused and writes nothing.  A verb of its own writes the text
under its key, or where nothing is given under the key the first positional
text; what is given under the key counts even if it is no text.  A functional
verb writes its name and the verbs it refers to.
-/

/-- The verbs of its own that the language has, and the keys of their texts. -/
def keys : List (String × String) :=
  [("task", "name"), ("done", "name"), ("note", "text")]

/-- The text that arguments give for a key. -/
inductive Title (key : String) (arguments : List Argument) : String → Prop where
  | given
      {value : Value}
      {text : String}
      (last : Argument.LastNamed arguments key value)
      (reads : value.text? = some text) :
      Title key arguments text
  | first
      {value : Value}
      {others : List Value}
      {text : String}
      (absent : ∀ argument ∈ arguments, argument.name ≠ some key)
      (values : (Bag.ofArguments arguments).positionals = value :: others)
      (reads : value.text? = some text) :
      Title key arguments text

/-- Why arguments give no text for a key. -/
inductive Untitled (key : String) (arguments : List Argument) :
    ArgumentError → Prop where
  | given
      {value : Value}
      (last : Argument.LastNamed arguments key value)
      (noText : value.text? = none) :
      Untitled key arguments (.wrongKind key .string value.kind)
  | missing
      (absent : ∀ argument ∈ arguments, argument.name ≠ some key)
      (nothing : (Bag.ofArguments arguments).positionals = []) :
      Untitled key arguments (.missing (positionalKey 0))
  | first
      {value : Value}
      {others : List Value}
      (absent : ∀ argument ∈ arguments, argument.name ≠ some key)
      (values : (Bag.ofArguments arguments).positionals = value :: others)
      (noText : value.text? = none) :
      Untitled key arguments (.wrongKind (positionalKey 0) .string value.kind)

/-- A call writes an entry. -/
inductive Writes (call : Call) : String → Prop where
  | own
      {key text : String}
      (looks : keys.lookup call.name = some key)
      (title : Title key call.arguments text) :
      Writes call (call.name ++ ":" ++ text)
  | functional
      {verb : FunctionalVerb}
      {taken : FunctionalCall}
      (named : call.name = verb.name)
      (takes : verb.Takes (Bag.ofArguments call.arguments).positionals taken) :
      Writes call (call.name ++ ":" ++ ",".intercalate taken.functions)

/-- A call is refused because of its arguments. -/
inductive Refuses (call : Call) : ArgumentError → Prop where
  | own
      {key : String}
      {cause : ArgumentError}
      (looks : keys.lookup call.name = some key)
      (untitled : Untitled key call.arguments cause) :
      Refuses call cause
  | functional
      {verb : FunctionalVerb}
      {cause : ArgumentError}
      (named : call.name = verb.name)
      (refused :
        FunctionalCall.ofBag verb (.ofArguments call.arguments) =
          .error cause) :
      Refuses call cause

/-- The language has a verb. -/
def HasVerb (name : String) : Prop :=
  (∃ key, keys.lookup name = some key) ∨
    ∃ verb : FunctionalVerb, name = verb.name

section Title

variable {key text : String} {arguments : List Argument} {bag : Bag}

/-- The text for a key is looked for under the key, then in the first slot. -/
theorem textOrFirst_eq
    (key : String)
    (bag : Bag) :
    textOrFirst key bag =
      if bag.get? key = none then bag.text (positionalKey 0)
      else bag.text key := by
  rw [textOrFirst, Bag.optionalText, Bag.optional, Bag.contains,
    Table.contains]
  show _ = if bag.values.find? key = none then _ else _
  cases found : bag.values.find? key with
  | none => rfl
  | some value =>
      rw [if_neg (Option.some_ne_none value), Option.isSome_some, if_pos rfl]
      cases bag.text key <;> rfl

theorem text_of_found
    {value : Value}
    (found : bag.get? key = some value)
    (reads : value.text? = some text) :
    bag.text key = .ok text := by
  rw [Bag.text, Bag.requireAs, found]
  simp only [reads]

theorem text_of_noText
    {value : Value}
    (found : bag.get? key = some value)
    (noText : value.text? = none) :
    bag.text key = .error (.wrongKind key .string value.kind) := by
  rw [Bag.text, Bag.requireAs, found]
  simp only [noText]

private theorem text_of_missing (missing : bag.get? key = none) :
    bag.text key = .error (.missing key) := by
  rw [Bag.text, Bag.requireAs, missing]

/-- Keys of texts are not spelled like the keys of numbers. -/
theorem ne_positionalKey_of_lookup
    {verb : String}
    (looks : keys.lookup verb = some key)
    (index : Nat) :
    key ≠ positionalKey index := by
  have words : ∀ pair ∈ keys, pair.2.toList.head? ≠ some '_' := by decide
  exact ne_positionalKey (words _ (Table.mem_of_lookup_eq_some looks)) index

section Reading

variable {verb : String}

theorem textOrFirst_of_title
    (looks : keys.lookup verb = some key)
    (title : Title key arguments text) :
    textOrFirst key (.ofArguments arguments) = .ok text := by
  have word := ne_positionalKey_of_lookup looks
  rw [textOrFirst_eq]
  cases title with
  | given last reads =>
      have found := (Bag.get?_ofArguments_eq_some_iff_lastNamed word).2 last
      rw [if_neg (found ▸ Option.some_ne_none _), text_of_found found reads]
  | first absent values reads =>
      have missing :=
        (Bag.get?_ofArguments_eq_none_iff_unnamed word).2 absent
      obtain ⟨found, _⟩ := Bag.positionalsFrom_eq_cons_iff.1 values
      rw [if_pos missing, text_of_found found reads]

theorem textOrFirst_of_untitled
    {cause : ArgumentError}
    (looks : keys.lookup verb = some key)
    (untitled : Untitled key arguments cause) :
    textOrFirst key (.ofArguments arguments) = .error cause := by
  have word := ne_positionalKey_of_lookup looks
  rw [textOrFirst_eq]
  cases untitled with
  | given last noText =>
      have found := (Bag.get?_ofArguments_eq_some_iff_lastNamed word).2 last
      rw [if_neg (found ▸ Option.some_ne_none _), text_of_noText found noText]
  | missing absent nothing =>
      have missing :=
        (Bag.get?_ofArguments_eq_none_iff_unnamed word).2 absent
      have empty := Bag.head?_positionalsFrom (.ofArguments arguments) 0
      rw [show Bag.positionalsFrom _ _ 0 = [] from nothing] at empty
      rw [if_pos missing, text_of_missing empty.symm]
  | first absent values noText =>
      have missing :=
        (Bag.get?_ofArguments_eq_none_iff_unnamed word).2 absent
      obtain ⟨found, _⟩ := Bag.positionalsFrom_eq_cons_iff.1 values
      rw [if_pos missing, text_of_noText found noText]

/-- Arguments give a text for a key, or there is a reason why they do not. -/
theorem title_or_untitled
    (looks : keys.lookup verb = some key)
    (arguments : List Argument) :
    (∃ text, Title key arguments text) ∨
      ∃ cause, Untitled key arguments cause := by
  have word := ne_positionalKey_of_lookup looks
  cases given : (Bag.ofArguments arguments).get? key with
  | some value =>
      have last := (Bag.get?_ofArguments_eq_some_iff_lastNamed word).1 given
      cases reads : value.text? with
      | some text => exact .inl ⟨text, .given last reads⟩
      | none => exact .inr ⟨_, .given last reads⟩
  | none =>
      have absent := (Bag.get?_ofArguments_eq_none_iff_unnamed word).1 given
      cases values : (Bag.ofArguments arguments).positionals with
      | nil => exact .inr ⟨_, .missing absent values⟩
      | cons value others =>
          cases reads : value.text? with
          | some text => exact .inl ⟨text, .first absent values reads⟩
          | none => exact .inr ⟨_, .first absent values reads⟩

end Reading

end Title

section Handlers

/-- A verb finds its handler, a functional one first. -/
theorem find?_registry (name : String) :
    registry.find? name =
      ((FunctionalVerb.all.find? fun verb => verb.name = name).map
        (Registry.functionalMethod functionalEntry)).or
        ((keys.lookup name).map (entry name)) := by
  rw [registry, Registry.find?_withFunctional]
  congr 1
  simp only [Table.ofList, Table.insertMany, List.foldl_cons, List.foldl_nil,
    Table.find?_insert, Table.find?_empty, keys, Table.lookup_cons_eq_ite,
    List.lookup_nil]
  split
  · next note => simp [note]
  · split
    · next done => simp [done]
    · split
      · next task => simp [task]
      · rfl

/-- No verb of its own has the name of a functional verb. -/
private theorem lookup_functional (verb : FunctionalVerb) :
    keys.lookup verb.name = none := by
  cases verb <;> rfl

theorem find?_own
    {name key : String}
    (looks : keys.lookup name = some key) :
    registry.find? name = some (entry name key) := by
  have no_verb :
      (FunctionalVerb.all.find? fun verb => verb.name = name) = none := by
    rw [List.find?_eq_none]
    intro verb _ same
    rw [← of_decide_eq_true same, lookup_functional] at looks
    cases looks
  rw [find?_registry, no_verb, looks]
  rfl

theorem find?_functional (verb : FunctionalVerb) :
    registry.find? verb.name =
      some (Registry.functionalMethod functionalEntry verb) :=
  Registry.find?_withFunctional_name _ _ verb

/-- The verbs that have a handler are those of the language. -/
theorem find?_eq_none_iff {name : String} :
    registry.find? name = none ↔ ¬HasVerb name := by
  constructor
  · rintro missing (⟨key, looks⟩ | ⟨verb, rfl⟩)
    · rw [find?_own looks] at missing
      cases missing
    · rw [find?_functional] at missing
      cases missing
  · intro noVerb
    obtain ⟨noKey, noFunctional⟩ := not_or.1 noVerb
    rw [find?_registry, Option.or_eq_none_iff, Option.map_eq_none_iff,
      Option.map_eq_none_iff, List.find?_eq_none]
    refine ⟨fun verb _ same => ?_, ?_⟩
    · exact noFunctional ⟨verb, (of_decide_eq_true same).symm⟩
    · exact Option.eq_none_iff_forall_ne_some.2 fun key looks =>
        noKey ⟨key, looks⟩

end Handlers

section Calls

variable {call : Call}

/-- The handler of a call that writes puts the entry behind the log. -/
theorem Writes.exists_handler
    {line : String}
    (writes : Writes call line) :
    ∃ handler, registry.find? call.name = some handler ∧
      ∀ world,
        handler (.ofArguments call.arguments) () world =
          (.ok ⟨(), none⟩, ⟨world.token, world.state ++ [line]⟩) := by
  cases writes with
  | own looks title =>
      refine ⟨_, find?_own looks, fun world => ?_⟩
      rw [entry, Handler.acting, textOrFirst_of_title looks title]
  | @functional verb taken named takes =>
      refine ⟨_, named ▸ find?_functional verb, fun world => ?_⟩
      rw [Registry.functionalMethod,
        FunctionalCall.ofBag_eq_ok_iff_takes.2 takes, named, ← takes.verb_eq]
      rfl

/-- The handler of a call that is refused leaves the log. -/
theorem Refuses.exists_handler
    {cause : ArgumentError}
    (refuses : Refuses call cause) :
    ∃ handler, registry.find? call.name = some handler ∧
      ∀ world,
        handler (.ofArguments call.arguments) () world =
          (.error (.argument cause), world) := by
  cases refuses with
  | own looks untitled =>
      refine ⟨_, find?_own looks, fun world => ?_⟩
      rw [entry, Handler.acting, textOrFirst_of_untitled looks untitled]
  | @functional verb cause named refused =>
      refine ⟨_, named ▸ find?_functional verb, fun world => ?_⟩
      rw [Registry.functionalMethod, refused]

/-- A call of a verb writes an entry or is refused. -/
theorem writes_or_refuses (verb : HasVerb call.name) :
    (∃ line, Writes call line) ∨ ∃ cause, Refuses call cause := by
  rcases verb with ⟨key, looks⟩ | ⟨verb, named⟩
  · rcases title_or_untitled looks call.arguments with
      ⟨text, title⟩ | ⟨cause, untitled⟩
    · exact .inl ⟨_, .own looks title⟩
    · exact .inr ⟨cause, .own looks untitled⟩
  · cases read :
        FunctionalCall.ofBag verb (.ofArguments call.arguments) with
    | ok taken =>
        exact .inl
          ⟨_, .functional named (FunctionalCall.takes_of_ofBag read)⟩
    | error cause => exact .inr ⟨cause, .functional named read⟩

/-- A call determines the entry that it writes. -/
theorem Writes.unique
    {line other : String}
    (writes : Writes call line)
    (again : Writes call other) :
    line = other := by
  -- both entries are what one handler writes into an empty log
  obtain ⟨handler, found, ran⟩ := writes.exists_handler
  obtain ⟨same, foundToo, ranToo⟩ := again.exists_handler
  rw [found] at foundToo
  cases foundToo
  have equal := (ran ⟨.fresh, []⟩).symm.trans (ranToo ⟨.fresh, []⟩)
  simpa using equal

end Calls

end VerbChain.Tasks
