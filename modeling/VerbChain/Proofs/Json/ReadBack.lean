import VerbChain.Json.Reading
import VerbChain.Proofs.Json.Tokens

namespace VerbChain

/-!
# Reading written JSON back

A value is written as one document and read back from it where there are as
many levels as it is deep, and nowhere else.  The machine that builds a document
hands every value that it has read on to the frames that are open.  What is
asked of a value is that its whole numbers fit into 64 bits, that the keys of
its objects are sorted, and that its other numbers read back.
-/

namespace JsonDocument

namespace Machine

/-- Where an array could be closed, the first token of a value opens an item. -/
theorem run?_wantItemOrClose
    (document : JsonDocument)
    (frames : List Frame)
    (rest : List JsonToken) :
    (wantItemOrClose frames).run? (document.tokens ++ rest) =
      (wantValue (.item [] :: frames)).run? (document.tokens ++ rest) := by
  cases document with
  | array items => cases items <;> rfl
  | object fields => cases fields <;> rfl
  | _ => rfl

mutual

/-- The tokens of a value hand it to the frames that are open. -/
theorem run?_tokens
    (document : JsonDocument)
    (frames : List Frame)
    (rest : List JsonToken) :
    (wantValue frames).run? (document.tokens ++ rest) =
      (complete document frames).run? rest := by
  cases document with
  | array items =>
      cases items with
      | nil => rfl
      | cons item items =>
          rw [tokens, List.cons_append, List.append_assoc]
          -- The machine still has to see that the array is not closed at once.
          refine (run?_wantItemOrClose item frames _).trans ?_
          rw [run?_tokens item]
          exact run?_itemsTokens items [item] frames rest
  | object fields =>
      cases fields with
      | nil => rfl
      | cons field fields =>
          obtain ⟨key, value⟩ := field
          simp only [tokens, List.cons_append, List.append_assoc]
          refine (run?_tokens value (.field [] key :: frames) _).trans ?_
          exact run?_fieldsTokens fields [(key, value)] frames rest
  | _ => rfl

theorem run?_itemsTokens
    (items earlier : List JsonDocument)
    (frames : List Frame)
    (rest : List JsonToken) :
    (afterItem earlier frames).run? (itemsTokens items ++ rest) =
      (complete (.array (earlier.reverse ++ items)) frames).run? rest := by
  cases items with
  | nil =>
      rw [List.append_nil]
      rfl
  | cons item items =>
      rw [itemsTokens, List.cons_append, List.append_assoc]
      refine (run?_tokens item (.item earlier :: frames) _).trans ?_
      refine (run?_itemsTokens items (item :: earlier) frames rest).trans ?_
      rw [List.reverse_cons, List.append_assoc, List.singleton_append]

theorem run?_fieldsTokens
    (fields earlier : List (List JsonPiece × JsonDocument))
    (frames : List Frame)
    (rest : List JsonToken) :
    (afterField earlier frames).run? (fieldsTokens fields ++ rest) =
      (complete (.object (earlier.reverse ++ fields)) frames).run? rest := by
  cases fields with
  | nil =>
      rw [List.append_nil]
      rfl
  | cons field fields =>
      obtain ⟨key, value⟩ := field
      simp only [fieldsTokens, List.cons_append, List.append_assoc]
      refine (run?_tokens value (.field earlier key :: frames) _).trans ?_
      refine
        (run?_fieldsTokens fields ((key, value) :: earlier) frames rest).trans ?_
      rw [List.reverse_cons, List.append_assoc, List.singleton_append]

end

end Machine

/-- A value is written as its document, in any spacing of blanks. -/
theorem ofText?_write
    {spacing : JsonSpacing}
    (blank : spacing.Blank)
    (depth : Nat)
    (json : Json) :
    ofText? (json.write spacing depth) = some json.document := by
  have built := Machine.run?_tokens json.document [] []
  rw [List.append_nil] at built
  rw [ofText?, JsonToken.ofText?_whole blank, Option.bind_some, built]
  rfl

end JsonDocument

namespace JsonPiece

private theorem isLead_of_lt
    {unit : Nat}
    (control : unit < 0x20) :
    isLead unit = false ∧ isTrail unit = false := by
  simp only [isLead, isTrail, Bool.and_eq_false_iff, decide_eq_false_iff_not]
  omega

/-- A code unit outside of the surrogates stands for its character. -/
private theorem characters?_unit
    {unit : Nat}
    (control : unit < 0x20)
    (rest : List JsonPiece) :
    characters? (.unit unit :: rest) =
      (characters? rest).map (Char.ofNat unit :: ·) := by
  obtain ⟨noLead, noTrail⟩ := isLead_of_lt control
  cases rest with
  | nil => simp [characters?, noLead, noTrail]
  | cons piece rest => cases piece <;> simp [characters?, noLead, noTrail]

theorem characters?_ofChar (content : List Char) :
    characters? (content.map ofChar) = some content := by
  induction content with
  | nil => rfl
  | cons c others inductionHypothesis =>
      rw [List.map_cons, ofChar]
      split
      · next control =>
          rw [characters?_unit control.1, inductionHypothesis, Option.map_some,
            Char.ofNat_toNat]
      · rw [characters?, inductionHypothesis, Option.map_some]

/-- A text is what its pieces stand for. -/
@[simp] theorem text?_ofText (content : String) :
    text? (ofText content) = some content := by
  rw [text?, ofText, characters?_ofChar, Option.map_some, String.ofList_toList]

end JsonPiece

namespace Json

mutual

/-- A value and all values in it. -/
def parts : Json → List Json
  | .array items => .array items :: itemsParts items
  | .object fields => .object fields :: fieldsParts fields
  | json => [json]

/-- Items and all values in them. -/
def itemsParts : List Json → List Json
  | [] => []
  | item :: items => parts item ++ itemsParts items

/-- The values of fields and all values in them. -/
def fieldsParts : List (String × Json) → List Json
  | [] => []
  | (_, value) :: fields => parts value ++ fieldsParts fields

end

/-- Whole numbers of 64 bits and fields under sorted keys. -/
def IsStandard : Json → Prop
  | .integer value => -(2 ^ 63) ≤ value ∧ value < 2 ^ 64
  | .object fields => fields.Pairwise fun left right => left.1 < right.1
  | _ => True

instance : DecidablePred IsStandard
  | .integer value =>
      inferInstanceAs (Decidable (-(2 ^ 63) ≤ value ∧ value < 2 ^ 64))
  | .object fields =>
      inferInstanceAs
        (Decidable (fields.Pairwise fun left right => left.1 < right.1))
  | .null | .bool _ | .float _ _ | .string _ | .array _ => .isTrue trivial

/-- Whether a number with a fraction reads back as it is written. -/
def Rereads : Json → Prop
  | .float negative rank =>
      Json.ofText? (Json.float negative rank).compact =
        some (.float negative rank)
  | _ => True

theorem toJson?_ofFinite
    (negative : Bool)
    (rank : Nat) :
    (JsonNumber.ofFinite negative rank).toJson? =
      (JsonNumber.ofFinite negative rank).binary?.map ofBinary := by
  have fractional : (JsonNumber.ofFinite negative rank).fractional = true := by
    simp only [JsonNumber.ofFinite]
    split <;> rfl
  rw [JsonNumber.toJson?, JsonNumber.integer?, if_pos (.inl fractional)]

/-- A number reads back if its literal stands for it. -/
theorem rereads_iff
    {negative : Bool}
    {rank : Fin finiteRanks} :
    (Json.float negative rank).Rereads ↔
      (JsonNumber.ofFinite negative rank).binary? =
        some (.finite negative rank) := by
  have written :
      Json.ofText? (Json.float negative rank).compact =
        (JsonNumber.ofFinite negative rank).binary?.map ofBinary := by
    rw [Json.ofText?, Json.compact, String.toList_ofList,
      JsonDocument.ofText?_write JsonSpacing.blank_compact,
      ← toJson?_ofFinite]
    rfl
  rw [Rereads, written]
  generalize (JsonNumber.ofFinite negative rank).binary? = read
  cases read with
  | none => exact ⟨nofun, nofun⟩
  | some number => cases number <;> simp [ofBinary]

instance : DecidablePred Rereads
  | .float _ _ => decidable_of_iff _ rereads_iff.symm
  | .null | .bool _ | .integer _ | .string _ | .array _ | .object _ =>
      .isTrue trivial

end Json

namespace JsonDocument

/-- What is read in two parts is read where both of them are. -/
private theorem bind_ite_some
    (combine : α → β → γ)
    {first : α}
    {others : β}
    (here later : Prop)
    [Decidable here]
    [Decidable later] :
    ((if here then some first else none).bind fun item =>
        (if later then some others else none).map (combine item)) =
      if here ∧ later then some (combine first others) else none := by
  by_cases read : here <;> by_cases readLater : later <;> simp [read, readLater]

mutual

/-- A value is read back from its document where there is room, only there. -/
theorem toJson?_document
    {json : Json}
    (readable :
      ∀ part ∈ json.parts, part.IsStandard ∧ part.Rereads)
    (room : Nat) :
    toJson? room json.document =
      if json.depth ≤ room then some json else none := by
  cases json with
  | null => rfl
  | bool value => rfl
  | integer value =>
      obtain ⟨⟨least, most⟩, _⟩ := readable _ List.mem_cons_self
      exact JsonNumber.toJson?_ofInt least most
  | float negative rank =>
      have read := Json.rereads_iff.1 (readable _ List.mem_cons_self).2
      exact
        (Json.toJson?_ofFinite negative rank).trans
          (congrArg (Option.map Json.ofBinary) read)
  | string content =>
      rw [Json.document, toJson?, JsonPiece.text?_ofText]
      rfl
  | array items =>
      cases room with
      | zero => rfl
      | succ room =>
          -- The array takes one level, and its items have the others.
          have read :=
            toItems?_documents
              (fun part member => readable part (List.mem_cons_of_mem _ member))
              room
          rw [Json.document, toJson?, read]
          simp only [Json.depth, Nat.add_le_add_iff_right]
          split <;> rfl
  | object fields =>
      cases room with
      | zero => rfl
      | succ room =>
          have read :=
            toFields?_fieldDocuments
              (fun part member => readable part (List.mem_cons_of_mem _ member))
              room
          have sorted : (Table.ofList fields).entries = fields :=
            Table.entries_ofList (readable _ List.mem_cons_self).1
          rw [Json.document, toJson?, read]
          simp only [Json.depth, Nat.add_le_add_iff_right]
          split
          · exact congrArg (some ∘ Json.object) sorted
          · rfl

theorem toItems?_documents
    {items : List Json}
    (readable :
      ∀ part ∈ Json.itemsParts items, part.IsStandard ∧ part.Rereads)
    (room : Nat) :
    toItems? room (Json.documents items) =
      if Json.itemsDepth items ≤ room then some items else none := by
  cases items with
  | nil => exact (if_pos (Nat.zero_le room)).symm
  | cons item items =>
      have first :=
        toJson?_document
          (fun part member => readable part (List.mem_append_left _ member))
          room
      have others :=
        toItems?_documents
          (fun part member => readable part (List.mem_append_right _ member))
          room
      simp only [Json.documents, toItems?, first, others, Json.itemsDepth,
        Nat.max_le]
      exact bind_ite_some List.cons _ _

theorem toFields?_fieldDocuments
    {fields : List (String × Json)}
    (readable :
      ∀ part ∈ Json.fieldsParts fields, part.IsStandard ∧ part.Rereads)
    (room : Nat) :
    toFields? room (Json.fieldDocuments fields) =
      if Json.fieldsDepth fields ≤ room then some fields else none := by
  cases fields with
  | nil => exact (if_pos (Nat.zero_le room)).symm
  | cons field fields =>
      obtain ⟨key, value⟩ := field
      have first :=
        toJson?_document
          (fun part member => readable part (List.mem_append_left _ member))
          room
      have others :=
        toFields?_fieldDocuments
          (fun part member => readable part (List.mem_append_right _ member))
          room
      simp only [Json.fieldDocuments, toFields?, JsonPiece.text?_ofText, first,
        others, Json.fieldsDepth, Nat.max_le]
      exact bind_ite_some (fun read rest => (key, read) :: rest) _ _

end

end JsonDocument

/--
A JSON value is written in any spacing of blanks as a text that is read back as
the value, unless it is deeper than the levels there are: then it is not read.
-/
theorem Json.ofText?_write
    {spacing : JsonSpacing}
    (blank : spacing.Blank)
    (depth : Nat)
    {json : Json}
    (standard : ∀ part ∈ json.parts, part.IsStandard)
    (rereads : ∀ part ∈ json.parts, part.Rereads) :
    ofText? (String.ofList (json.write spacing depth)) =
      if json.depth ≤ JsonDocument.levels then some json else none := by
  rw [ofText?, String.toList_ofList, JsonDocument.ofText?_write blank,
    Option.bind_some]
  apply JsonDocument.toJson?_document
  intro part member
  exact ⟨standard part member, rereads part member⟩

end VerbChain
