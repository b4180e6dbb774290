import VerbChain.Proofs.Json.ReadBack

namespace VerbChain

/-!
# What is lost in reading JSON back

Numbers with a fraction are scaled by rounded powers of ten when they are read,
so one of them may be read as its neighbour.  Nothing else is lost: where a
value is read back as an equal one, there was room for it and all its numbers
read back, and then it is read as it was.
-/

/-- Finite numbers that are equal are the same, or both are zeros. -/
theorem Binary64.eq_or_zero_of_equals
    {left right : Bool}
    {rank other : Fin finiteRanks}
    (equal : (finite left rank).equals (finite right other) = true) :
    (left = right ∧ rank = other) ∨ (rank.val = 0 ∧ other.val = 0) := by
  cases left <;> cases right <;>
    simp only [equals, place?, beq_iff_eq] at equal <;>
    simp only [Fin.ext_iff, true_and, reduceCtorEq, false_and, false_or] <;>
    omega

theorem Binary64.equals_finite
    (negative : Bool)
    (rank : Fin finiteRanks) :
    (finite negative rank).equals (finite negative rank) = true := by
  cases negative <;> simp [equals, place?]

namespace Json

mutual

/-- A value is equal to itself, as all its numbers are finite. -/
theorem agrees_self (json : Json) : json.agrees json = true := by
  cases json with
  | null => rfl
  | bool value => exact beq_self_eq_true value
  | integer value => exact beq_self_eq_true value
  | float negative rank => exact Binary64.equals_finite negative rank
  | string content => exact beq_self_eq_true content
  | array items => exact agreeItems_self items
  | object fields => exact agreeFields_self fields

theorem agreeItems_self (items : List Json) : agreeItems items items = true := by
  cases items with
  | nil => rfl
  | cons item items =>
      exact Bool.and_eq_true_iff.2 ⟨agrees_self item, agreeItems_self items⟩

theorem agreeFields_self
    (fields : List (String × Json)) :
    agreeFields fields fields = true := by
  cases fields with
  | nil => rfl
  | cons field fields =>
      obtain ⟨key, value⟩ := field
      exact
        Bool.and_eq_true_iff.2
          ⟨Bool.and_eq_true_iff.2 ⟨beq_self_eq_true key, agrees_self value⟩,
            agreeFields_self fields⟩

end

/-- A zero reads back with its sign. -/
theorem rereads_zero (negative : Bool) :
    (Json.float negative ⟨0, by decide⟩).Rereads := by
  cases negative <;> decide +kernel

/-- A number that is read as an equal one is read as itself. -/
theorem rereads_of_agrees
    {negative : Bool}
    {rank : Fin finiteRanks}
    {read : Json}
    (found : (JsonNumber.ofFinite negative rank).toJson? = some read)
    (agree : read.agrees (.float negative rank) = true) :
    (Json.float negative rank).Rereads := by
  rw [toJson?_ofFinite, Option.map_eq_some_iff] at found
  obtain ⟨number, literal, rfl⟩ := found
  cases number with
  | infinite sign => cases agree
  | nan => cases agree
  | finite sign other =>
      rcases Binary64.eq_or_zero_of_equals agree with
        ⟨rfl, rfl⟩ | ⟨_, zero⟩
      · exact rereads_iff.2 literal
      · rw [show rank = ⟨0, by decide⟩ from Fin.ext zero]
        exact rereads_zero negative

end Json

namespace JsonDocument

/-- The fields that are read from documents have the keys of those written. -/
private theorem keys_of_toFields?
    {fields pairs : List (String × Json)}
    {room : Nat}
    (found : toFields? room (Json.fieldDocuments fields) = some pairs) :
    pairs.map Prod.fst = fields.map Prod.fst := by
  induction fields generalizing pairs with
  | nil =>
      cases found
      rfl
  | cons field fields inductionHypothesis =>
      obtain ⟨key, value⟩ := field
      rw [Json.fieldDocuments, toFields?, JsonPiece.text?_ofText,
        Option.bind_some, Option.bind_eq_some_iff] at found
      obtain ⟨first, _, found⟩ := found
      obtain ⟨others, rest, rfl⟩ := Option.map_eq_some_iff.1 found
      rw [List.map_cons, List.map_cons, inductionHypothesis rest]

/-- Fields under sorted keys are read as they stand, none overwrites another. -/
theorem entries_of_toFields?
    {fields pairs : List (String × Json)}
    {room : Nat}
    (sorted : fields.Pairwise fun left right => left.1 < right.1)
    (found : toFields? room (Json.fieldDocuments fields) = some pairs) :
    (Table.ofList pairs).entries = pairs := by
  apply Table.entries_ofList
  have keys := List.pairwise_map.2 sorted
  rw [← keys_of_toFields? found] at keys
  exact List.pairwise_map.1 keys

mutual

/-- What is read as an equal value was not too deep and lost no number. -/
theorem readable_of_toJson?
    {json read : Json}
    {room : Nat}
    (standard : ∀ part ∈ json.parts, part.IsStandard)
    (found : toJson? room json.document = some read)
    (agree : read.agrees json = true) :
    json.depth ≤ room ∧ ∀ part ∈ json.parts, part.Rereads := by
  cases json with
  | null | bool value | integer value | string content =>
      exact ⟨Nat.zero_le room, List.forall_mem_singleton.2 trivial⟩
  | float negative rank =>
      exact
        ⟨Nat.zero_le room,
          List.forall_mem_singleton.2 (Json.rereads_of_agrees found agree)⟩
  | array items =>
      cases room with
      | zero => cases found
      | succ room =>
          obtain ⟨others, within, rfl⟩ := Option.map_eq_some_iff.1 found
          obtain ⟨shallow, rereads⟩ :=
            readable_of_toItems?
              (fun part member => standard part (List.mem_cons_of_mem _ member))
              within agree
          exact
            ⟨Nat.succ_le_succ shallow,
              List.forall_mem_cons.2 ⟨trivial, rereads⟩⟩
  | object fields =>
      cases room with
      | zero => cases found
      | succ room =>
          obtain ⟨pairs, within, rfl⟩ := Option.map_eq_some_iff.1 found
          have kept := entries_of_toFields? (standard _ List.mem_cons_self) within
          rw [Json.agrees, kept] at agree
          obtain ⟨shallow, rereads⟩ :=
            readable_of_toFields?
              (fun part member => standard part (List.mem_cons_of_mem _ member))
              within agree
          exact
            ⟨Nat.succ_le_succ shallow,
              List.forall_mem_cons.2 ⟨trivial, rereads⟩⟩

theorem readable_of_toItems?
    {items others : List Json}
    {room : Nat}
    (standard : ∀ part ∈ Json.itemsParts items, part.IsStandard)
    (found : toItems? room (Json.documents items) = some others)
    (agree : Json.agreeItems others items = true) :
    Json.itemsDepth items ≤ room ∧
      ∀ part ∈ Json.itemsParts items, part.Rereads := by
  cases items with
  | nil => exact ⟨Nat.zero_le room, nofun⟩
  | cons item items =>
      obtain ⟨first, here, found⟩ := Option.bind_eq_some_iff.1 found
      obtain ⟨rest, later, rfl⟩ := Option.map_eq_some_iff.1 found
      obtain ⟨same, others⟩ := Bool.and_eq_true_iff.1 agree
      obtain ⟨shallow, rereads⟩ :=
        readable_of_toJson?
          (fun part member => standard part (List.mem_append_left _ member))
          here same
      obtain ⟨shallows, rereadLater⟩ :=
        readable_of_toItems?
          (fun part member => standard part (List.mem_append_right _ member))
          later others
      exact
        ⟨Nat.max_le.2 ⟨shallow, shallows⟩,
          List.forall_mem_append.2 ⟨rereads, rereadLater⟩⟩

theorem readable_of_toFields?
    {fields pairs : List (String × Json)}
    {room : Nat}
    (standard : ∀ part ∈ Json.fieldsParts fields, part.IsStandard)
    (found : toFields? room (Json.fieldDocuments fields) = some pairs)
    (agree : Json.agreeFields pairs fields = true) :
    Json.fieldsDepth fields ≤ room ∧
      ∀ part ∈ Json.fieldsParts fields, part.Rereads := by
  cases fields with
  | nil => exact ⟨Nat.zero_le room, nofun⟩
  | cons field fields =>
      obtain ⟨key, value⟩ := field
      obtain ⟨name, _, found⟩ := Option.bind_eq_some_iff.1 found
      obtain ⟨first, here, found⟩ := Option.bind_eq_some_iff.1 found
      obtain ⟨rest, later, rfl⟩ := Option.map_eq_some_iff.1 found
      obtain ⟨sameHere, others⟩ := Bool.and_eq_true_iff.1 agree
      obtain ⟨shallow, rereads⟩ :=
        readable_of_toJson?
          (fun part member => standard part (List.mem_append_left _ member))
          here (Bool.and_eq_true_iff.1 sameHere).2
      obtain ⟨shallows, rereadLater⟩ :=
        readable_of_toFields?
          (fun part member => standard part (List.mem_append_right _ member))
          later others
      exact
        ⟨Nat.max_le.2 ⟨shallow, shallows⟩,
          List.forall_mem_append.2 ⟨rereads, rereadLater⟩⟩

end

end JsonDocument

end VerbChain
