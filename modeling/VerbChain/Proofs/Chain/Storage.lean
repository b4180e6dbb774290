import VerbChain.Chain.Stored
import VerbChain.Proofs.Chain.RoundTrip
import VerbChain.Proofs.Json.ReadBack

namespace VerbChain

/-!
# Storing a chain and reading it back

A chain is stored as records, and reading them back takes each record apart
again: whatever its names and texts are, what comes back differs from what was
stored in its numbers only.  A number that is not finite is stored as null, and
where a number should be null is refused, so that no part of such a chain comes
back.  Finite numbers come back if the numbers of JSON do.
-/

namespace JsonDocument

theorem fieldDocuments_eq_map (fields : List (String × Json)) :
    Json.fieldDocuments fields =
      fields.map fun field =>
        (JsonPiece.ofText field.1, field.2.document) := by
  induction fields with
  | nil => rfl
  | cons field others inductionHypothesis =>
      rw [Json.fieldDocuments, inductionHypothesis, List.map_cons]

theorem documents_eq_map (items : List Json) :
    Json.documents items = items.map Json.document := by
  induction items with
  | nil => rfl
  | cons item others inductionHypothesis =>
      rw [Json.documents, inductionHypothesis, List.map_cons]

/-- The texts of keys come back from their pieces. -/
private theorem mapM_text?_fieldDocuments (fields : List (String × Json)) :
    ((Json.fieldDocuments fields).mapM fun field =>
        (JsonPiece.text? field.1).map fun key => (key, field.2)) =
      some (fields.map fun field => (field.1, field.2.document)) := by
  induction fields with
  | nil => rfl
  | cons field others inductionHypothesis =>
      rw [Json.fieldDocuments, List.mapM_cons, inductionHypothesis,
        JsonPiece.text?_ofText]
      rfl

/-- A record is found in an object that has its parts and nothing else. -/
theorem record?_document
    {fields : List (String × Json)}
    (distinct : (fields.map Prod.fst).Nodup)
    (room : Nat) :
    (Json.object fields).document.record? (fields.map Prod.fst) (room + 1) =
      some (fields.map fun field => (field.1, field.2.document)) := by
  have own :
      (fields.map fun field => (field.1, field.2.document)).filter
          (fun field => (fields.map Prod.fst).contains field.1) =
        fields.map fun field => (field.1, field.2.document) := by
    rw [List.filter_eq_self]
    intro field member
    obtain ⟨source, sourceMember, rfl⟩ := List.mem_map.1 member
    exact List.contains_iff_mem.2 (List.mem_map_of_mem sourceMember)
  have keys :
      (fields.map fun field => (field.1, field.2.document)).map Prod.fst =
        fields.map Prod.fst := by
    rw [List.map_map]
    rfl
  rw [Json.document, record?, if_neg (Nat.succ_ne_zero room), ownFields?,
    mapM_text?_fieldDocuments, Option.bind_some]
  simp only [own, keys, if_pos distinct]

/-- A list is read item by item. -/
theorem list?_document
    {read : Nat → JsonDocument → Option β}
    {stored : α → Json}
    {restored? : α → Option β}
    {room : Nat}
    (reads : ∀ item, read room (stored item).document = restored? item)
    (items : List α) :
    (Json.array (items.map stored)).document.list? read (room + 1) =
      items.mapM restored? := by
  rw [Json.document, list?, documents_eq_map, List.map_map, List.mapM_map]
  exact congrArg (List.mapM · items) (funext reads)

/-- The number behind a stored number, if there is one. -/
def ofBinary? (number : Binary64) : Option Binary64 :=
  (Json.ofBinary number).document.number?

theorem ofBinary?_eq_self
    {number : Binary64}
    (rereads : (Json.ofBinary number).Rereads)
    (finite : number.isFinite = true) :
    ofBinary? number = some number := by
  cases number with
  | finite negative rank =>
      have read := Json.rereads_iff.1 rereads
      show (JsonNumber.toJson? _).bind Json.number? = _
      rw [Json.toJson?_ofFinite, read]
      rfl
  | infinite negative => cases finite
  | nan => cases finite

theorem isFinite_of_ofBinary?
    {number read : Binary64}
    (found : ofBinary? number = some read) :
    number.isFinite = true := by
  cases number with
  | finite negative rank => rfl
  | infinite negative => cases found
  | nan => cases found

end JsonDocument

namespace Value

/-- What a stored value is read back as, if it is read at all. -/
def restored? : Value → Option Value
  | .number value => (JsonDocument.ofBinary? value).map .number
  | value => some value

theorem ofContent?_document (value : Value) :
    ofContent? value.kind.name value.content.document = value.restored? := by
  cases value with
  | number value => rfl
  | string content =>
      exact congrArg (Option.map string) (JsonPiece.text?_ofText content)
  | identifier name =>
      exact congrArg (Option.map identifier) (JsonPiece.text?_ofText name)
  | bool value => rfl
  | function name =>
      exact congrArg (Option.map function) (JsonPiece.text?_ofText name)

theorem ofStored?_document
    (value : Value)
    (room : Nat) :
    ofStored? (room + 1) value.toStored.document = value.restored? := by
  have parts :
      value.toStored.document.record? ["kind", "value"] (room + 1) =
        some
          [("kind", .string (JsonPiece.ofText value.kind.name)),
            ("value", value.content.document)] :=
    JsonDocument.record?_document (by simp) room
  rw [ofStored?, parts]
  show
    (JsonPiece.text? (JsonPiece.ofText value.kind.name)).bind
      (fun kind => ofContent? kind value.content.document) = _
  rw [JsonPiece.text?_ofText, Option.bind_some, ofContent?_document]

theorem restored?_eq_self
    {value : Value}
    (rereads : ∀ number ∈ value.numbers, (Json.ofBinary number).Rereads)
    (finite : ∀ number ∈ value.numbers, number.isFinite = true) :
    value.restored? = some value := by
  cases value with
  | number value =>
      have member : value ∈ (Value.number value).numbers :=
        List.mem_singleton_self value
      rw [restored?,
        JsonDocument.ofBinary?_eq_self (rereads value member)
          (finite value member)]
      rfl
  | _ => rfl

theorem finite_of_restored?
    {value read : Value}
    (found : value.restored? = some read) :
    ∀ number ∈ value.numbers, number.isFinite = true := by
  cases value with
  | number value =>
      obtain ⟨number, numberFound, _⟩ := Option.map_eq_some_iff.1 found
      intro other member
      rw [List.mem_singleton.1 member]
      exact JsonDocument.isFinite_of_ofBinary? numberFound
  | _ =>
      intro number member
      cases member

end Value

namespace Argument

/-- What a stored argument is read back as, if it is read at all. -/
def restored? (argument : Argument) : Option Argument :=
  argument.value.restored?.map fun value => ⟨argument.name, value⟩

/-- An empty name is told from none. -/
theorem nameOfStored?_document (name : Option String) :
    nameOfStored? (some ((name.map Json.string).getD .null).document) =
      some name := by
  cases name with
  | none => rfl
  | some name =>
      exact congrArg (Option.map some) (JsonPiece.text?_ofText name)

theorem ofStored?_document
    (argument : Argument)
    (room : Nat) :
    ofStored? (room + 2) argument.toStored.document = argument.restored? := by
  have parts :
      argument.toStored.document.record? ["name", "value"] (room + 2) =
        some
          [("name", ((argument.name.map Json.string).getD .null).document),
            ("value", argument.value.toStored.document)] :=
    JsonDocument.record?_document (by simp) (room + 1)
  rw [ofStored?, parts]
  show
    (nameOfStored?
        (some ((argument.name.map Json.string).getD .null).document)).bind
      (fun name =>
        (Value.ofStored? (room + 1) argument.value.toStored.document).bind
          fun value => some (⟨name, value⟩ : Argument)) = _
  rw [nameOfStored?_document, Option.bind_some, Value.ofStored?_document]
  exact Option.map_eq_bind.symm

theorem restored?_eq_self
    {argument : Argument}
    (rereads :
      ∀ number ∈ argument.value.numbers, (Json.ofBinary number).Rereads)
    (finite : ∀ number ∈ argument.value.numbers, number.isFinite = true) :
    argument.restored? = some argument := by
  rw [restored?, Value.restored?_eq_self rereads finite]
  rfl

end Argument

/-- Items of which every one is read back keep what that takes of each. -/
private theorem forall_of_mapM
    {items : List α}
    {read : List β}
    {restored? : α → Option β}
    {property : α → Prop}
    (found : items.mapM restored? = some read)
    (takes : ∀ item other, restored? item = some other → property item) :
    ∀ item ∈ items, property item := by
  induction items generalizing read with
  | nil =>
      intro item member
      cases member
  | cons first others inductionHypothesis =>
      rw [List.mapM_cons] at found
      obtain ⟨head, headFound, found⟩ := Option.bind_eq_some_iff.1 found
      obtain ⟨rest, restFound, _⟩ := Option.bind_eq_some_iff.1 found
      rw [List.forall_mem_cons]
      exact ⟨takes first head headFound, inductionHypothesis restFound⟩

namespace Call

/-- What a stored call is read back as, if it is read at all. -/
def restored? (call : Call) : Option Call :=
  (call.arguments.mapM Argument.restored?).map fun arguments =>
    ⟨call.name, arguments⟩

theorem ofStored?_document
    (call : Call)
    (room : Nat) :
    ofStored? (room + 4) call.toStored.document = call.restored? := by
  have parts :
      call.toStored.document.record? ["name", "args"] (room + 4) =
        some
          [("name", .string (JsonPiece.ofText call.name)),
            ("args",
              (Json.array (call.arguments.map Argument.toStored)).document)] :=
    JsonDocument.record?_document (by simp) (room + 3)
  have arguments :=
    JsonDocument.list?_document
      (fun argument => Argument.ofStored?_document argument room)
      call.arguments
  rw [ofStored?, parts]
  show
    (JsonPiece.text? (JsonPiece.ofText call.name)).bind
      (fun name =>
        ((Json.array (call.arguments.map Argument.toStored)).document.list?
            Argument.ofStored? (room + 3)).bind
          fun arguments => some (⟨name, arguments⟩ : Call)) = _
  rw [JsonPiece.text?_ofText, Option.bind_some, arguments]
  exact Option.map_eq_bind.symm

theorem restored?_eq_self
    {call : Call}
    (rereads : ∀ number ∈ call.numbers, (Json.ofBinary number).Rereads)
    (finite : ∀ number ∈ call.numbers, number.isFinite = true) :
    call.restored? = some call := by
  have arguments :
      call.arguments.mapM Argument.restored? = some call.arguments := by
    refine mapM_eq_self ?_
    intro argument member
    refine Argument.restored?_eq_self ?_ ?_
    · intro number inValue
      exact rereads number (List.mem_flatMap.2 ⟨argument, member, inValue⟩)
    · intro number inValue
      exact finite number (List.mem_flatMap.2 ⟨argument, member, inValue⟩)
  rw [restored?, arguments]
  rfl

theorem finite_of_restored?
    {call read : Call}
    (found : call.restored? = some read) :
    ∀ number ∈ call.numbers, number.isFinite = true := by
  obtain ⟨arguments, argumentsFound, _⟩ := Option.map_eq_some_iff.1 found
  have each :
      ∀ argument ∈ call.arguments,
        ∀ number ∈ argument.value.numbers, number.isFinite = true := by
    refine forall_of_mapM argumentsFound ?_
    intro argument other otherFound
    obtain ⟨value, valueFound, _⟩ := Option.map_eq_some_iff.1 otherFound
    exact Value.finite_of_restored? valueFound
  intro number member
  obtain ⟨argument, argumentMember, inValue⟩ := List.mem_flatMap.1 member
  exact each argument argumentMember number inValue

end Call

namespace Chain

/-- What a stored chain is read back as, if it is read at all. -/
def restored? (chain : Chain) : Option Chain :=
  (chain.calls.mapM Call.restored?).map Chain.mk

theorem ofStored?_document
    (chain : Chain)
    (room : Nat) :
    ofStored? (room + 6) chain.toStored.document = chain.restored? := by
  have parts :
      chain.toStored.document.record? ["calls"] (room + 6) =
        some
          [("calls",
            (Json.array (chain.calls.map Call.toStored)).document)] :=
    JsonDocument.record?_document (by simp) (room + 5)
  have calls :=
    JsonDocument.list?_document
      (fun call => Call.ofStored?_document call room)
      chain.calls
  rw [ofStored?, parts]
  show
    ((Json.array (chain.calls.map Call.toStored)).document.list?
        Call.ofStored? (room + 5)).bind
      (fun calls => some (⟨calls⟩ : Chain)) = _
  rw [calls]
  exact Option.map_eq_bind.symm

/-- The text of a chain, in any spacing of blanks, has room for its levels. -/
theorem ofText?_write
    {spacing : JsonSpacing}
    (blank : spacing.Blank)
    (chain : Chain) :
    ofText? (String.ofList (chain.toStored.write spacing 0)) =
      chain.restored? := by
  rw [ofText?, JsonDocument.decode?, String.toList_ofList,
    JsonDocument.ofText?_write blank, Option.bind_some]
  exact ofStored?_document chain 121

theorem restored?_eq_self
    {chain : Chain}
    (rereads : ∀ number ∈ chain.numbers, (Json.ofBinary number).Rereads)
    (finite : ∀ number ∈ chain.numbers, number.isFinite = true) :
    chain.restored? = some chain := by
  have calls : chain.calls.mapM Call.restored? = some chain.calls := by
    refine mapM_eq_self ?_
    intro call member
    refine Call.restored?_eq_self ?_ ?_
    · intro number inCall
      exact rereads number (List.mem_flatMap.2 ⟨call, member, inCall⟩)
    · intro number inCall
      exact finite number (List.mem_flatMap.2 ⟨call, member, inCall⟩)
  rw [restored?, calls]
  rfl

theorem finite_of_restored?
    {chain read : Chain}
    (found : chain.restored? = some read) :
    ∀ number ∈ chain.numbers, number.isFinite = true := by
  obtain ⟨calls, callsFound, _⟩ := Option.map_eq_some_iff.1 found
  have each :
      ∀ call ∈ chain.calls,
        ∀ number ∈ call.numbers, number.isFinite = true :=
    forall_of_mapM callsFound fun _ _ otherFound =>
      Call.finite_of_restored? otherFound
  intro number member
  obtain ⟨call, callMember, inCall⟩ := List.mem_flatMap.1 member
  exact each call callMember number inCall

end Chain

namespace JsonDocument

/-- What an object has under a key. -/
def field? (key : String) : JsonDocument → Option JsonDocument
  | .object fields =>
      (fields.find? fun field => JsonPiece.text? field.1 == some key).map
        Prod.snd
  | _ => none

/-- What an array has at a place. -/
def item? (place : Nat) : JsonDocument → Option JsonDocument
  | .array items => items[place]?
  | _ => none

/-- What a stored chain holds as the value of an argument of a call. -/
def argumentContent? (call argument : Nat) (document : JsonDocument) :
    Option JsonDocument := do
  let call ← (← document.field? "calls").item? call
  let argument ← (← call.field? "args").item? argument
  (← argument.field? "value").field? "value"

theorem field?_document
    (key : String)
    (fields : List (String × Json)) :
    (Json.object fields).document.field? key =
      (fields.find? fun field => field.1 == key).map fun field =>
        field.2.document := by
  rw [Json.document, field?, fieldDocuments_eq_map, List.find?_map,
    Option.map_map]
  simp only [Function.comp_def, JsonPiece.text?_ofText, Option.some_beq_some]

theorem item?_document
    (place : Nat)
    (items : List Json) :
    (Json.array items).document.item? place =
      items[place]?.map Json.document := by
  rw [Json.document, item?, documents_eq_map, List.getElem?_map]

/-- The value of each argument is where it belongs. -/
theorem argumentContent?_toStored
    {chain : Chain}
    {call : Call}
    {argument : Argument}
    {callPlace argumentPlace : Nat}
    (inChain : chain.calls[callPlace]? = some call)
    (inCall : call.arguments[argumentPlace]? = some argument) :
    argumentContent? callPlace argumentPlace chain.toStored.document =
      some argument.value.content.document := by
  have stored :
      (chain.calls.map Call.toStored)[callPlace]? = some call.toStored := by
    rw [List.getElem?_map, inChain]
    rfl
  have storedArgument :
      (call.arguments.map Argument.toStored)[argumentPlace]? =
        some argument.toStored := by
    rw [List.getElem?_map, inCall]
    rfl
  rw [argumentContent?, Chain.toStored, field?_document]
  show
    ((Json.array (chain.calls.map Call.toStored)).document.item?
      callPlace).bind _ = _
  rw [item?_document, stored, Option.map_some, Option.bind_some, Call.toStored,
    field?_document]
  show
    ((Json.array (call.arguments.map Argument.toStored)).document.item?
      argumentPlace).bind _ = _
  rw [item?_document, storedArgument, Option.map_some, Option.bind_some,
    Argument.toStored, field?_document]
  show argument.value.toStored.document.field? "value" = _
  rw [Value.toStored, field?_document]
  rfl

/-- A number is stored as null exactly when it is not finite. -/
theorem document_ofBinary_eq_null_iff {number : Binary64} :
    (Json.ofBinary number).document = .null ↔ number.isFinite = false := by
  cases number <;> simp [Json.ofBinary, Json.document, Binary64.isFinite]

end JsonDocument

namespace Chain

/--
The text of a chain is read back as a chain that agrees with it exactly when
all its numbers are finite, and it is never read as another chain.  If some
number is not finite then the text is not read at all; it has null for that
number and for no other.  Finite numbers are taken to read back.
-/
theorem ofText?_iff_finite
    {chain : Chain}
    {text : String}
    (written : text ∈ [chain.toText, chain.toStored.pretty])
    (rereads : ∀ number ∈ chain.numbers, (Json.ofBinary number).Rereads) :
    ((∃ read, ofText? text = some read ∧ read.agrees chain = true) ↔
        ∀ number ∈ chain.numbers, number.isFinite = true) ∧
      (∀ read, ofText? text = some read → read = chain) ∧
      (∀ number ∈ chain.numbers,
        number.isFinite = false → ofText? text = none) ∧
      ∃ document,
        JsonDocument.ofText? text.toList = some document ∧
          ∀ callPlace argumentPlace call argument number,
            chain.calls[callPlace]? = some call →
            call.arguments[argumentPlace]? = some argument →
            argument.value = .number number →
            (document.argumentContent? callPlace argumentPlace = some .null ↔
              number.isFinite = false) := by
  obtain ⟨spacing, blank, rfl⟩ :
      ∃ spacing : JsonSpacing,
        spacing.Blank ∧
          text = String.ofList (chain.toStored.write spacing 0) := by
    rcases List.mem_cons.1 written with compact | written
    · exact ⟨_, JsonSpacing.blank_compact, compact⟩
    · exact
        ⟨_, JsonSpacing.blank_pretty, List.mem_singleton.1 written⟩
  have only :
      ∀ read, chain.restored? = some read →
        read = chain ∧ ∀ number ∈ chain.numbers, number.isFinite = true := by
    intro read found
    have finite := finite_of_restored? found
    rw [restored?_eq_self rereads finite] at found
    exact ⟨(Option.some.inj found).symm, finite⟩
  rw [ofText?_write blank]
  refine ⟨⟨?_, ?_⟩, fun read found => (only read found).1, ?_, ?_⟩
  · rintro ⟨read, found, _⟩
    exact (only read found).2
  · intro finite
    exact ⟨chain, restored?_eq_self rereads finite, agrees_self finite⟩
  · intro number member infinite
    rw [Option.eq_none_iff_forall_ne_some]
    intro read found
    rw [(only read found).2 number member] at infinite
    cases infinite
  · refine ⟨chain.toStored.document, ?_, ?_⟩
    · rw [String.toList_ofList, JsonDocument.ofText?_write blank]
    · intro callPlace argumentPlace call argument number inChain inCall isNumber
      rw [JsonDocument.argumentContent?_toStored inChain inCall, isNumber,
        Option.some_inj]
      exact JsonDocument.document_ofBinary_eq_null_iff

/-- A chain with a value of each kind, and with empty and escaped texts. -/
def sampler : Chain :=
  ⟨[⟨"track",
      [.positional (.string "\"kick\"\n\x00é"), .named "" (.identifier "")]⟩,
    ⟨"gain",
      [.named "level" (.number (.finite false ⟨0x3fe0000000000000, by decide⟩)),
        .positional (.number (.finite true ⟨0, by decide⟩)),
        .positional (.bool true), .positional (.function "map")]⟩,
    ⟨"", []⟩]⟩

/-- The same chain with a call whose number is not finite. -/
def overdriven : Chain :=
  ⟨sampler.calls ++ [⟨"gain", [.positional (.number (.infinite true))]⟩]⟩

theorem ofText?_sampler :
    (∃ read,
        ofText? sampler.toText = some read ∧ read.agrees sampler = true) ∧
      ofText? overdriven.toStored.pretty = none := by
  have compact :=
    @ofText?_iff_finite sampler sampler.toText List.mem_cons_self
      (by decide +kernel)
  have pretty :=
    @ofText?_iff_finite overdriven overdriven.toStored.pretty
      (List.mem_cons_of_mem _ List.mem_cons_self) (by decide +kernel)
  exact
    ⟨compact.1.2 (by decide +kernel),
      pretty.2.2.1 (.infinite true) (by decide +kernel) rfl⟩

end Chain

end VerbChain
