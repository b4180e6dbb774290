import Mathlib.Data.Finset.Max
import Mathlib.Data.Fintype.Card
import VerbChain.Bag

namespace VerbChain

/-!
# Which arguments a bag keeps

Every argument has an effective key: its name, or the key made of the number
of positional arguments before it.  A name may be spelled like such a key, so
arguments of both kinds meet under one key.  A bag has the effective keys of
its arguments and no others, and under each the value of the last argument
that has it.

So the places of the arguments count only as far as they number the positional
ones and tell which of two arguments under one key is later.
-/

namespace Table

/-- A key finds what later pairs say of it, or else what earlier ones say. -/
theorem find?_ofList_append
    (earlier later : List (String × α))
    (key : String) :
    (ofList (earlier ++ later)).find? key =
      ((ofList later).find? key).or ((ofList earlier).find? key) := by
  induction later using List.reverseRecOn with
  | nil => rw [List.append_nil]; rfl
  | append_singleton later last inductionHypothesis =>
      have newest (pairs : List (String × α)) :
          (ofList (pairs ++ [last])).find? key =
            if key = last.1 then some last.2 else (ofList pairs).find? key := by
        rw [ofList, insertMany, List.foldl_concat, find?_insert]
        rfl
      rw [← List.append_assoc, newest, newest, inductionHypothesis]
      split <;> rfl

/-- Of one pair its key finds the value. -/
theorem find?_ofList_singleton
    (pair : String × α)
    (key : String) :
    (ofList [pair]).find? key = if key = pair.1 then some pair.2 else none :=
  find?_insert empty pair.1 key pair.2

/-- A key finds nothing exactly when no pair has it. -/
theorem find?_ofList_eq_none_iff
    {pairs : List (String × α)}
    {key : String} :
    (ofList pairs).find? key = none ↔ ∀ pair ∈ pairs, pair.1 ≠ key := by
  induction pairs with
  | nil => simp [ofList, insertMany]
  | cons first rest inductionHypothesis =>
      rw [← List.singleton_append, find?_ofList_append, Option.or_eq_none_iff,
        inductionHypothesis, find?_ofList_singleton, List.singleton_append,
        List.forall_mem_cons, and_comm]
      simp [eq_comm]

/-- The last pair of a key gives the key its value. -/
theorem find?_ofList_of_last
    {earlier later : List (String × α)}
    {key : String}
    (value : α)
    (last : ∀ pair ∈ later, pair.1 ≠ key) :
    (ofList (earlier ++ (key, value) :: later)).find? key = some value := by
  rw [← List.singleton_append, find?_ofList_append, find?_ofList_append,
    find?_ofList_eq_none_iff.2 last, find?_ofList_singleton, if_pos rfl]
  rfl

/-- The keys of a table are those that find a value. -/
theorem mem_keys_iff
    {table : Table α}
    {key : String} :
    key ∈ table.keys ↔ table.find? key ≠ none := by
  rw [Option.ne_none_iff_exists', keys, List.mem_map]
  constructor
  · rintro ⟨⟨_, value⟩, member, rfl⟩
    exact ⟨value, mem_entries_iff.1 member⟩
  · rintro ⟨value, found⟩
    exact ⟨(key, value), mem_entries_iff.2 found, rfl⟩

end Table

namespace Bag

/-- The number of positional arguments in front of a place. -/
def positionalsBefore (arguments : List Argument) (place : Nat) : Nat :=
  (arguments.take place).countP fun argument => argument.name.isNone

/-- The key that an argument asks for at its place among the others. -/
def effectiveKey (arguments : List Argument)
    (place : Fin arguments.length) : String :=
  arguments[place].name.getD
    (positionalKey (positionalsBefore arguments place))

/-- An argument is keyed by its name or by the positional ones before it. -/
private theorem keyed_getElem?
    (next : Nat)
    (arguments : List Argument)
    (place : Nat) :
    (keyed next arguments)[place]? =
      arguments[place]?.map fun argument =>
        (argument.name.getD
          (positionalKey (next + positionalsBefore arguments place)),
          argument.value) := by
  induction arguments generalizing next place with
  | nil => rfl
  | cons argument rest inductionHypothesis =>
      cases named : argument.name with
      | some name =>
          rw [keyed, named]
          cases place with
          | zero => simp [named]
          | succ place =>
              simp [inductionHypothesis, positionalsBefore, named]
      | none =>
          rw [keyed, named]
          cases place with
          | zero => simp [named, positionalsBefore]
          | succ place =>
              simp [inductionHypothesis, positionalsBefore, named,
                Nat.add_assoc, Nat.add_comm 1]

/-- The pairs of a bag are the arguments under their effective keys. -/
theorem keyed_eq_ofFn
    (arguments : List Argument) :
    keyed 0 arguments =
      List.ofFn fun place : Fin arguments.length =>
        (effectiveKey arguments place, arguments[place].value) := by
  apply List.ext_getElem?
  intro place
  rw [keyed_getElem?, List.getElem?_ofFn, Nat.zero_add]
  by_cases inside : place < arguments.length
  · rw [dif_pos inside, List.getElem?_eq_getElem inside]
    rfl
  · rw [dif_neg inside, List.getElem?_eq_none (Nat.le_of_not_lt inside)]
    rfl

variable {arguments others : List Argument}

/-- A bag has nothing under a key that no argument has. -/
theorem get?_ofArguments_eq_none_iff
    {key : String} :
    (ofArguments arguments).get? key = none ↔
      ∀ place, effectiveKey arguments place ≠ key := by
  rw [get?, ofArguments, ofPairs, Table.find?_ofList_eq_none_iff,
    keyed_eq_ofFn, List.forall_mem_ofFn_iff]

/-- The last argument of a key gives the key its value. -/
theorem get?_ofArguments_of_last
    (place : Fin arguments.length)
    (last : ∀ later, place < later →
      effectiveKey arguments later ≠ effectiveKey arguments place) :
    (ofArguments arguments).get? (effectiveKey arguments place) =
      some arguments[place].value := by
  have size : (keyed 0 arguments).length = arguments.length := by
    rw [keyed_eq_ofFn, List.length_ofFn]
  have pairAt (index : Nat) (inside : index < (keyed 0 arguments).length) :
      (keyed 0 arguments)[index] =
        (effectiveKey arguments ⟨index, size ▸ inside⟩,
          arguments[index].value) := by
    simp only [keyed_eq_ofFn, List.getElem_ofFn, Fin.getElem_fin]
  have shape := List.take_append_drop place.val (keyed 0 arguments)
  rw [List.drop_eq_getElem_cons (size.symm ▸ place.isLt), pairAt] at shape
  rw [get?, ofArguments, ofPairs, ← shape]
  apply Table.find?_ofList_of_last
  intro pair member
  obtain ⟨offset, inside, rfl⟩ := List.mem_drop_iff_getElem.1 member
  rw [pairAt]
  exact last _ (Fin.lt_def.2 (by grind))

/-- Of the arguments under one key one is the last. -/
private theorem exists_last
    (place : Fin arguments.length) :
    ∃ last,
      effectiveKey arguments last = effectiveKey arguments place ∧
        ∀ later, last < later →
          effectiveKey arguments later ≠ effectiveKey arguments place := by
  obtain ⟨last, member, greatest⟩ :=
    (Finset.univ.filter fun other =>
      effectiveKey arguments other =
        effectiveKey arguments place).exists_max_image id ⟨place, by simp⟩
  simp only [Finset.mem_filter, Finset.mem_univ, true_and, id_eq] at member greatest
  exact ⟨last, member, fun later behind same =>
    absurd (greatest later same) (Fin.not_le.2 behind)⟩

/-- A key has the value of the last argument that has it, and no other. -/
theorem get?_ofArguments_eq_some_iff
    {key : String}
    {value : Value} :
    (ofArguments arguments).get? key = some value ↔
      ∃ place, effectiveKey arguments place = key ∧
        arguments[place].value = value ∧
        ∀ later, place < later → effectiveKey arguments later ≠ key := by
  constructor
  · intro found
    have present : ¬∀ place, effectiveKey arguments place ≠ key := by
      rw [← get?_ofArguments_eq_none_iff, found]
      exact Option.some_ne_none value
    obtain ⟨place, rfl⟩ := not_forall_not.1 present
    obtain ⟨last, same, latest⟩ := exists_last place
    refine ⟨last, same, ?_, latest⟩
    have kept := get?_ofArguments_of_last last (by rwa [same])
    rw [same, found, Option.some_inj] at kept
    exact kept.symm
  · rintro ⟨place, rfl, rfl, last⟩
    exact get?_ofArguments_of_last place last

/-- A key that is not spelled like one of a number is that of its name. -/
theorem effectiveKey_eq_iff
    {name : String}
    (word : ∀ index, name ≠ positionalKey index)
    (place : Fin arguments.length) :
    effectiveKey arguments place = name ↔
      arguments[place].name = some name := by
  rw [effectiveKey]
  cases arguments[place].name with
  | none => exact ⟨fun same => absurd same.symm (word _), nofun⟩
  | some other => exact ⟨congrArg some, Option.some.inj⟩

/--
Arguments in another order, in which the positional ones and those under one
key stand as before.
-/
structure Reordering (arguments others : List Argument) where
  order : Fin others.length ≃ Fin arguments.length
  argument_eq : ∀ place, others[place] = arguments[order place]
  positional_lt : ∀ first second, first < second →
    others[first].name = none → others[second].name = none →
      order first < order second
  sameKey_lt : ∀ first second, first < second →
    effectiveKey arguments (order first) =
        effectiveKey arguments (order second) →
      order first < order second

/-- Positional arguments are counted by their places. -/
private theorem positionalsBefore_eq_card
    (arguments : List Argument)
    {place : Nat}
    (inside : place ≤ arguments.length) :
    positionalsBefore arguments place =
      (Finset.univ.filter fun other : Fin arguments.length =>
        other.val < place ∧ arguments[other].name = none).card := by
  induction place with
  | zero => simp [positionalsBefore]
  | succ place inductionHypothesis =>
      have before := inductionHypothesis (Nat.le_of_succ_le inside)
      rw [positionalsBefore] at before ⊢
      rw [List.take_succ_eq_append_getElem inside, List.countP_append, before,
        List.countP_singleton]
      cases named : arguments[place].name with
      | some name =>
          rw [Option.isNone_some, if_neg Bool.false_ne_true, Nat.add_zero]
          congr 1
          ext other
          simp only [Finset.mem_filter, Finset.mem_univ, true_and]
          grind
      | none =>
          rw [Option.isNone_none, if_pos rfl,
            ← Finset.card_insert_of_notMem (a := ⟨place, inside⟩) (by simp)]
          congr 1
          ext other
          simp only [Finset.mem_filter, Finset.mem_univ, true_and,
            Finset.mem_insert, Fin.ext_iff]
          grind

namespace Reordering

/-- Arguments that a reordering keeps in order stood in that order before. -/
private theorem lt_of_order_lt
    (reordering : Reordering arguments others)
    {first second : Fin others.length}
    (kept : second < first → reordering.order second < reordering.order first)
    (before : reordering.order first < reordering.order second) :
    first < second := by
  rcases lt_trichotomy first second with lower | rfl | higher
  · exact lower
  · exact absurd before (lt_irrefl _)
  · exact absurd before (lt_asymm (kept higher))

/-- A reordering leaves the keys of the arguments. -/
theorem effectiveKey_eq
    (reordering : Reordering arguments others)
    (place : Fin others.length) :
    effectiveKey others place =
      effectiveKey arguments (reordering.order place) := by
  rw [effectiveKey, effectiveKey, reordering.argument_eq]
  cases named : arguments[reordering.order place].name with
  | some name => rfl
  | none =>
      rw [Option.getD_none, Option.getD_none,
        positionalsBefore_eq_card others (Nat.le_of_lt place.isLt),
        positionalsBefore_eq_card arguments
          (Nat.le_of_lt (reordering.order place).isLt)]
      congr 1
      apply Finset.card_equiv reordering.order
      intro other
      rw [Finset.mem_filter_univ, Finset.mem_filter_univ,
        reordering.argument_eq]
      refine and_congr_left fun positional => ?_
      rw [← reordering.argument_eq] at named positional
      exact ⟨
        fun before =>
          reordering.positional_lt other place before positional named,
        reordering.lt_of_order_lt fun behind =>
          reordering.positional_lt place other behind named positional⟩

/-- A reordering leaves what the bag has under each key. -/
theorem get?_ofArguments_eq
    (reordering : Reordering arguments others)
    (key : String) :
    (ofArguments others).get? key = (ofArguments arguments).get? key := by
  cases found : (ofArguments others).get? key with
  | none =>
      rw [get?_ofArguments_eq_none_iff] at found
      refine (get?_ofArguments_eq_none_iff.2 fun place => ?_).symm
      have absent := found (reordering.order.symm place)
      rwa [reordering.effectiveKey_eq, Equiv.apply_symm_apply] at absent
  | some value =>
      obtain ⟨place, rfl, rfl, last⟩ := get?_ofArguments_eq_some_iff.1 found
      refine (get?_ofArguments_eq_some_iff.2
        ⟨reordering.order place, ?_, ?_, ?_⟩).symm
      · exact (reordering.effectiveKey_eq place).symm
      · rw [reordering.argument_eq]
      · intro later behind same
        obtain ⟨other, rfl⟩ := reordering.order.surjective later
        rw [← reordering.effectiveKey_eq] at same
        refine last other (reordering.lt_of_order_lt ?_ behind) same
        rw [reordering.effectiveKey_eq, reordering.effectiveKey_eq] at same
        exact fun before => reordering.sameKey_lt other place before same

/-- A reordering leaves the bag. -/
theorem ofArguments_eq
    (reordering : Reordering arguments others) :
    ofArguments others = ofArguments arguments :=
  congrArg Bag.mk (Table.ext_find? reordering.get?_ofArguments_eq)

end Reordering

/--
The keys of a bag are the effective keys of its arguments.  A key has the value
of the last argument that has it.  Arguments in another order make the same
bag as long as positional ones and those under one key stay in order.
-/
theorem ofArguments_keeps_last
    (arguments : List Argument) :
    (∀ key,
        key ∈ (ofArguments arguments).values.keys ↔
          ∃ place, effectiveKey arguments place = key) ∧
      (∀ key value,
        (ofArguments arguments).get? key = some value ↔
          ∃ place, effectiveKey arguments place = key ∧
            arguments[place].value = value ∧
            ∀ later, place < later → effectiveKey arguments later ≠ key) ∧
      ∀ others, Reordering arguments others →
        ofArguments others = ofArguments arguments := by
  refine ⟨fun key => ?_, fun key value => get?_ofArguments_eq_some_iff,
    fun others reordering => reordering.ofArguments_eq⟩
  rw [Table.mem_keys_iff, ← not_forall_not]
  exact not_congr get?_ofArguments_eq_none_iff

/-- The places of as many arguments, with two neighbouring places exchanged. -/
def exchanged (same : others.length = arguments.length) (place : Nat)
    (inside : place + 1 < arguments.length) :
    Fin others.length ≃ Fin arguments.length :=
  (finCongr same).trans
    (.swap ⟨place, Nat.lt_of_succ_lt inside⟩ ⟨place + 1, inside⟩)

private theorem val_exchanged
    (same : others.length = arguments.length)
    {place : Nat}
    (inside : place + 1 < arguments.length)
    (index : Fin others.length) :
    (exchanged same place inside index).val =
      if index.val = place then place + 1
      else if index.val = place + 1 then place else index.val := by
  rw [exchanged, Equiv.trans_apply, Equiv.swap_apply_def]
  simp only [Fin.ext_iff, finCongr_apply, Fin.val_cast]
  split
  · rfl
  · split <;> rfl

/-- No places but the two neighbours change their order. -/
private theorem exchanged_lt
    (same : others.length = arguments.length)
    {place : Nat}
    (inside : place + 1 < arguments.length)
    {first second : Fin others.length}
    (before : first < second)
    (apart : first.val = place → second.val ≠ place + 1) :
    exchanged same place inside first < exchanged same place inside second := by
  rw [Fin.lt_def] at before
  rw [Fin.lt_def, val_exchanged, val_exchanged]
  grind

/--
A named argument may change places with the positional one in front of it,
unless its name is spelled like the key of that one.
-/
def Reordering.nameFirst (earlier later : List Argument) {name : String}
    (named counted : Value)
    (apart : name ≠ positionalKey (positionalsBefore earlier earlier.length)) :
    Reordering (earlier ++ ⟨none, counted⟩ :: ⟨some name, named⟩ :: later)
      (earlier ++ ⟨some name, named⟩ :: ⟨none, counted⟩ :: later) where
  order := exchanged (by simp) earlier.length (by simp)
  argument_eq place := by
    apply Option.some.inj
    rw [Fin.getElem_fin, Fin.getElem_fin, ← List.getElem?_eq_getElem,
      ← List.getElem?_eq_getElem, val_exchanged]
    grind
  positional_lt first second before positional _ := by
    apply exchanged_lt _ _ before
    intro here
    simp [here] at positional
  sameKey_lt first second before sameKey := by
    apply exchanged_lt _ _ before
    intro here next
    apply apart
    simp only [effectiveKey, Fin.getElem_fin, val_exchanged, here, next]
      at sameKey
    simpa [positionalsBefore] using sameKey

/-- So a named argument makes the same bag in front of a positional one. -/
theorem ofArguments_nameFirst
    (earlier later : List Argument)
    {name : String}
    (named counted : Value)
    (apart : name ≠ positionalKey (positionalsBefore earlier earlier.length)) :
    ofArguments (earlier ++ ⟨some name, named⟩ :: ⟨none, counted⟩ :: later) =
      ofArguments
        (earlier ++ ⟨none, counted⟩ :: ⟨some name, named⟩ :: later) :=
  (Reordering.nameFirst earlier later named counted apart).ofArguments_eq

/-- The arguments of `f(true, loud=false)` as `f(loud=false, true)` has them. -/
example :
    Reordering [⟨none, .bool true⟩, ⟨some "loud", .bool false⟩]
      [⟨some "loud", .bool false⟩, ⟨none, .bool true⟩] :=
  .nameFirst [] [] (.bool false) (.bool true) (by cbv)

/-- A name spelled like a positional key goes over it, and the other way. -/
example :
    (ofArguments
      [⟨none, .bool true⟩, ⟨some "_positional_0", .string "named"⟩,
        ⟨some "_positional_1", .bool false⟩,
        ⟨none, .string "counted"⟩]).values.entries =
      [("_positional_0", .string "named"),
        ("_positional_1", .string "counted")] := by
  cbv

end Bag

end VerbChain
