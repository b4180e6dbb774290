import VerbChain.Json.Reading

namespace VerbChain

/-!
# Records in JSON

A record is stored as an object with a field for each of its parts, or as an
array of its parts in order.  An object may have other fields, which nobody
reads, but none of the record's own twice; an array has no more items than the
record has parts.  Every reader is told how many levels of arrays and objects
there is room for.
-/

namespace JsonDocument

/-- The text of a document that is a string. -/
def text? : JsonDocument → Option String
  | .string pieces => JsonPiece.text? pieces
  | _ => none

/-- The truth value of a document that is one. -/
def bool? : JsonDocument → Option Bool
  | .bool value => some value
  | _ => none

/-- The number of a document that is one, whole numbers rounded. -/
def number? : JsonDocument → Option Binary64
  | .number literal => literal.toJson?.bind Json.number?
  | _ => none

/-- The parts of a record among fields: none of them twice. -/
def ownFields? (parts : List String)
    (fields : List (List JsonPiece × JsonDocument)) :
    Option (List (String × JsonDocument)) :=
  (fields.mapM fun field =>
    (JsonPiece.text? field.1).map fun key => (key, field.2)).bind fun named =>
      let own := named.filter fun field => parts.contains field.1
      if (own.map Prod.fst).Nodup then some own else none

/-- The parts of a record that are stored, by name. -/
def record? (parts : List String) (room : Nat) :
    JsonDocument → Option (List (String × JsonDocument))
  | .object fields => if room = 0 then none else ownFields? parts fields
  | .array items =>
      if room = 0 ∨ parts.length < items.length then none
      else some (parts.zip items)
  | _ => none

/-- The items of a list, each read with one level less. -/
def list? (read : Nat → JsonDocument → Option α) :
    (room : Nat) → JsonDocument → Option (List α)
  | room + 1, .array items => items.mapM (read room)
  | _, _ => none

/-- The keys and values of a table, the last value of each key. -/
def table? : (room : Nat) → JsonDocument → Option (Table Json)
  | room + 1, .object fields => (toFields? room fields).map Table.ofList
  | _, _ => none

/-- The name of a choice: a string, or the only key of an object of null. -/
def choice? (room : Nat) : JsonDocument → Option String
  | .string pieces => JsonPiece.text? pieces
  | .object [(key, .null)] =>
      if room = 0 then none else JsonPiece.text? key
  | _ => none

/-- Read a whole text by a reader of documents. -/
def decode? (read : Nat → JsonDocument → Option α) (text : String) :
    Option α :=
  (ofText? text.toList).bind (read levels)

end JsonDocument

end VerbChain
