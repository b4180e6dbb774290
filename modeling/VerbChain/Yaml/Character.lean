namespace VerbChain

/-!
# The characters of a YAML text

Five characters break lines, the space and the tab are blanks, and most control
characters have no place in a text at all.
-/

namespace Yaml

/-- Whether a character ends a line. -/
def isBreak (c : Char) : Bool :=
  c == '\n' || c == '\r' || c == '\x85' || c == '\u2028' || c == '\u2029'

/-- Whether a character is a space or a tab. -/
def isBlank (c : Char) : Bool :=
  c == ' ' || c == '\t'

/-- Whether a character separates words. -/
def isGap (c : Char) : Bool :=
  isBlank c || isBreak c

/-- Whether a character is a letter of ASCII, a digit, a dash or a low line. -/
def isNameCharacter (c : Char) : Bool :=
  c.isAlphanum || c == '_' || c == '-'

/-- Whether a character may stand in a text. -/
def isAllowed (c : Char) : Bool :=
  let code := c.toNat
  code == 0x09 || code == 0x0A || code == 0x0D ||
    (0x20 ≤ code && code ≤ 0x7E) || code == 0x85 ||
    (0xA0 ≤ code && code ≤ 0xFFFD) || 0x10000 ≤ code

/--
Whether a character is written as it is.  All others need an escape between
double quotes, the mark of the byte order among them.
-/
def isPrintable (c : Char) : Bool :=
  let code := c.toNat
  code == 0x0A || (0x20 ≤ code && code ≤ 0x7E) ||
    (0xA0 ≤ code && code ≤ 0xFFFD && code != 0xFEFF) || 0x10000 ≤ code

end Yaml

end VerbChain
