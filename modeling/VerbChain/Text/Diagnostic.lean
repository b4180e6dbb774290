import VerbChain.Text.Visibility

namespace VerbChain

/-!
# Texts in diagnostics

Diagnostics show a text between quotes, with every character that would not be
seen written as an escape.
-/

/-- A number in lower-case hexadecimal digits. -/
def hexadecimal (n : Nat) : List Char :=
  Nat.toDigits 16 n

/-- A character as diagnostics show it between quotes. -/
def diagnosticEscape (c : Char) : List Char :=
  if c = '"' then ['\\', '"']
  else if c = '\\' then ['\\', '\\']
  else if c = '\n' then ['\\', 'n']
  else if c = '\r' then ['\\', 'r']
  else if c = '\t' then ['\\', 't']
  else if c.toNat = 0 then ['\\', '0']
  else if isVisible c then [c]
  else '\\' :: 'u' :: '\x7b' :: (hexadecimal c.toNat ++ ['\x7d'])

/-- A text as diagnostics show it. -/
def diagnosticText (text : String) : String :=
  String.ofList ('"' :: (text.toList.flatMap diagnosticEscape ++ ['"']))

/-- A list of texts as diagnostics show it. -/
def diagnosticList (texts : List String) : String :=
  "[" ++ ", ".intercalate (texts.map diagnosticText) ++ "]"

end VerbChain
