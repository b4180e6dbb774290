import VerbChain.Yaml.Scalar

namespace VerbChain

/-!
# YAML tags

A tag says what a node is.  It is a string of bytes that ends in front of the
first zero, and its escapes may spell bytes that are no text.  A tag that
begins with an exclamation mark is local; what follows the mark is its name,
and it has none when that is no text.
-/

/-- A tag of a node. -/
structure YamlTag where
  bytes : List UInt8
  deriving Repr, DecidableEq

namespace YamlTag

/-- The tag of bytes up to the first zero. -/
def ofBytes (bytes : List UInt8) : YamlTag :=
  ⟨bytes.takeWhile (· != 0)⟩

/-- The tag of a text. -/
def ofText (text : String) : YamlTag :=
  ofBytes text.toUTF8.toList

/-- A tag with a meaning of its own. -/
def core (name : String) : YamlTag :=
  ofText ("tag:yaml.org,2002:" ++ name)

/-- The tag that is nothing but the mark of a local one. -/
def mark : YamlTag :=
  ofText "!"

/-- One tag behind another. -/
def append (lead suffix : YamlTag) : YamlTag :=
  ⟨lead.bytes ++ suffix.bytes⟩

/-- Whether a tag is local. -/
def isLocal (tag : YamlTag) : Bool :=
  tag.bytes.head? == mark.bytes.head?

/-- The name of a local tag; the mere mark is its own name. -/
def localName? (tag : YamlTag) : Option String :=
  if tag = mark then some "!"
  else if tag.isLocal then String.fromUTF8? ⟨(tag.bytes.drop 1).toArray⟩
  else none

/-- How many bytes follow the first byte of a character. -/
def following? (byte : Nat) : Option Nat :=
  if byte < 0x80 then some 0
  else if 0xC0 ≤ byte ∧ byte < 0xE0 then some 1
  else if 0xE0 ≤ byte ∧ byte < 0xF0 then some 2
  else if 0xF0 ≤ byte ∧ byte < 0xF8 then some 3
  else none

/--
The bytes of an ASCII text with escapes, each a percent sign and the digits of
a byte.  The escapes of a character stand together.
-/
def unescaped? (missing : Nat) : List Char → Option (List UInt8)
  | '%' :: high :: low :: rest =>
      (YamlScalar.hex? [high, low]).bind fun byte =>
        let left :=
          if missing = 0 then following? byte
          else if 0x80 ≤ byte ∧ byte < 0xC0 then some (missing - 1)
          else none
        left.bind fun left =>
          (unescaped? left rest).map (UInt8.ofNat byte :: ·)
  | '%' :: _ => none
  | c :: rest =>
      if missing = 0 then (unescaped? 0 rest).map (UInt8.ofNat c.toNat :: ·)
      else none
  | [] => if missing = 0 then some [] else none

end YamlTag

end VerbChain
