/-!
# Characters of Yaml text

Which characters end a line, which are blank, and which can stand in a text as they are. Outside
of ASCII there are three more line ends.
-/

namespace Routebook.Yaml

def isBreak (c : Char) : Bool :=
  c == '\n' || c == '\r' || c.toNat == 0x85 || c.toNat == 0x2028 || c.toNat == 0x2029

def isBlank (c : Char) : Bool := c == ' ' || c == '\t'

/-- Blank, the end of a line, or the end of the text. -/
def isGap : Option Char → Bool
  | none => true
  | some c => isBlank c || isBreak c

/-- Characters that are written as they are, the line feed among them. -/
def isPrintable (c : Char) : Bool :=
  let n := c.toNat
  n == 0x0A || (0x20 ≤ n && n ≤ 0x7E) || (0xA0 ≤ n && n != 0xFEFF && n != 0xFFFE && n != 0xFFFF)

/-- Characters that a text may hold at all. -/
def isAllowed (c : Char) : Bool :=
  let n := c.toNat
  n == 0x09 || n == 0x0A || n == 0x0D || (0x20 ≤ n && n ≤ 0x7E) || n == 0x85
    || (0xA0 ≤ n && n != 0xFFFE && n != 0xFFFF)

/-- Letters, digits and the two marks that names of anchors and tags are made of. -/
def isNameChar (c : Char) : Bool := c.isAlphanum || c == '_' || c == '-'

end Routebook.Yaml
