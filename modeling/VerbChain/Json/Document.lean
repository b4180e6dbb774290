import VerbChain.Json.Token

namespace VerbChain

/-!
# JSON documents

A document is the tree of a JSON text as it is written: keys may repeat,
numbers have any size and strings may name half of a surrogate pair.  It is
built by a machine that takes one token at a time and keeps a stack of the
arrays and objects that are still open, so no nesting is too deep for it.
-/

/-- A JSON text as a tree. -/
inductive JsonDocument where
  | null
  | bool (value : Bool)
  | number (literal : JsonNumber)
  | string (pieces : List JsonPiece)
  | array (items : List JsonDocument)
  | object (fields : List (List JsonPiece × JsonDocument))
  deriving Repr

namespace JsonDocument

/-- An open array or object, its earlier parts with the latest one first. -/
inductive Frame where
  | item (earlier : List JsonDocument)
  | field
      (earlier : List (List JsonPiece × JsonDocument))
      (key : List JsonPiece)
  deriving Repr

/-- What the machine waits for, inside the frames that are open. -/
inductive Machine where
  | wantValue (frames : List Frame)
  | wantItemOrClose (frames : List Frame)
  | wantKeyOrClose (frames : List Frame)
  | wantKey
      (earlier : List (List JsonPiece × JsonDocument))
      (frames : List Frame)
  | wantColon
      (earlier : List (List JsonPiece × JsonDocument))
      (key : List JsonPiece)
      (frames : List Frame)
  | afterItem (items : List JsonDocument) (frames : List Frame)
  | afterField
      (fields : List (List JsonPiece × JsonDocument))
      (frames : List Frame)
  | finished (document : JsonDocument)
  deriving Repr

namespace Machine

/-- Hand a finished value to the frame it belongs to. -/
def complete (document : JsonDocument) : List Frame → Machine
  | [] => .finished document
  | .item earlier :: frames => .afterItem (document :: earlier) frames
  | .field earlier key :: frames =>
      .afterField ((key, document) :: earlier) frames

/-- Take the first token of a value. -/
def begin? (frames : List Frame) : JsonToken → Option Machine
  | .null => some (complete .null frames)
  | .bool value => some (complete (.bool value) frames)
  | .number literal => some (complete (.number literal) frames)
  | .string pieces => some (complete (.string pieces) frames)
  | .openArray => some (.wantItemOrClose frames)
  | .openObject => some (.wantKeyOrClose frames)
  | _ => none

/-- Take one token. -/
def step? : Machine → JsonToken → Option Machine
  | .wantValue frames, token => begin? frames token
  | .wantItemOrClose frames, .closeArray => some (complete (.array []) frames)
  | .wantItemOrClose frames, token => begin? (.item [] :: frames) token
  | .wantKeyOrClose frames, .closeObject => some (complete (.object []) frames)
  | .wantKeyOrClose frames, .string key => some (.wantColon [] key frames)
  | .wantKey earlier frames, .string key => some (.wantColon earlier key frames)
  | .wantColon earlier key frames, .colon =>
      some (.wantValue (.field earlier key :: frames))
  | .afterItem items frames, .comma => some (.wantValue (.item items :: frames))
  | .afterItem items frames, .closeArray =>
      some (complete (.array items.reverse) frames)
  | .afterField fields frames, .comma => some (.wantKey fields frames)
  | .afterField fields frames, .closeObject =>
      some (complete (.object fields.reverse) frames)
  | _, _ => none

/-- Take tokens one after the other. -/
def run? (machine : Machine) (tokens : List JsonToken) : Option Machine :=
  tokens.foldlM step? machine

/-- The document of a machine that waits for nothing. -/
def document? : Machine → Option JsonDocument
  | .finished document => some document
  | _ => none

end Machine

/-- Read the tree of a JSON text; blanks may stand on both sides of it. -/
def ofText? (text : List Char) : Option JsonDocument :=
  (JsonToken.ofText? text).bind fun tokens =>
    ((Machine.wantValue []).run? tokens).bind Machine.document?

end JsonDocument

end VerbChain
