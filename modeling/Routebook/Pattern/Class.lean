import Routebook.Text.Blank
import Routebook.Unicode.Case
import Routebook.Unicode.Identifier

/-!
# Classes of characters in patterns

The classes that a pattern can name, each for all of Unicode or for ASCII alone, and the letters
that count as one where case does not matter.
-/

namespace Routebook.Pattern

/-! ## Named classes -/

/-- The first of the ten decimal digits of each script. -/
def zeros : List Nat := [
  0x30, 0x660, 0x6F0, 0x7C0, 0x966, 0x9E6, 0xA66, 0xAE6, 0xB66, 0xBE6, 0xC66, 0xCE6, 0xD66, 0xDE6,
  0xE50, 0xED0, 0xF20, 0x1040, 0x1090, 0x17E0, 0x1810, 0x1946, 0x19D0, 0x1A80, 0x1A90, 0x1B50,
  0x1BB0, 0x1C40, 0x1C50, 0xA620, 0xA8D0, 0xA900, 0xA9D0, 0xA9F0, 0xAA50, 0xABF0, 0xFF10, 0x104A0,
  0x10D30, 0x10D40, 0x11066, 0x110F0, 0x11136, 0x111D0, 0x112F0, 0x11450, 0x114D0, 0x11650,
  0x116C0, 0x116D0, 0x116DA, 0x11730, 0x118E0, 0x11950, 0x11BF0, 0x11C50, 0x11D50, 0x11DA0,
  0x11F50, 0x16130, 0x16A60, 0x16AC0, 0x16B50, 0x16D70, 0x1CCF0, 0x1D7CE, 0x1D7D8, 0x1D7E2,
  0x1D7EC, 0x1D7F6, 0x1E140, 0x1E2F0, 0x1E4F0, 0x1E5F1, 0x1E950, 0x1FBF0]

def isDigit (unicode : Bool) (c : Char) : Bool :=
  c.isDigit || (unicode && zeros.any fun z => z ≤ c.toNat && c.toNat < z + 10)

/-- Where the letters that stand for numbers begin and end. -/
def letterNumberBounds : List Nat := [
  0x16EE, 0x16F1, 0x2160, 0x2183, 0x2185, 0x2189, 0x3007, 0x3008, 0x3021, 0x302A, 0x3038, 0x303B,
  0xA6E6, 0xA6F0, 0x10140, 0x10175, 0x10341, 0x10342, 0x1034A, 0x1034B, 0x103D1, 0x103D6, 0x12400,
  0x1246F]

/-- Where the numbers that are neither digits nor letters begin and end. -/
def otherNumberBounds : List Nat := [
  0xB2, 0xB4, 0xB9, 0xBA, 0xBC, 0xBF, 0x9F4, 0x9FA, 0xB72, 0xB78, 0xBF0, 0xBF3, 0xC78, 0xC7F,
  0xD58, 0xD5F, 0xD70, 0xD79, 0xF2A, 0xF34, 0x1369, 0x137D, 0x17F0, 0x17FA, 0x19DA, 0x19DB, 0x2070,
  0x2071, 0x2074, 0x207A, 0x2080, 0x208A, 0x2150, 0x2160, 0x2189, 0x218A, 0x2460, 0x249C, 0x24EA,
  0x2500, 0x2776, 0x2794, 0x2CFD, 0x2CFE, 0x3192, 0x3196, 0x3220, 0x322A, 0x3248, 0x3250, 0x3251,
  0x3260, 0x3280, 0x328A, 0x32B1, 0x32C0, 0xA830, 0xA836, 0x10107, 0x10134, 0x10175, 0x10179,
  0x1018A, 0x1018C, 0x102E1, 0x102FC, 0x10320, 0x10324, 0x10858, 0x10860, 0x10879, 0x10880,
  0x108A7, 0x108B0, 0x108FB, 0x10900, 0x10916, 0x1091C, 0x109BC, 0x109BE, 0x109C0, 0x109D0,
  0x109D2, 0x10A00, 0x10A40, 0x10A49, 0x10A7D, 0x10A7F, 0x10A9D, 0x10AA0, 0x10AEB, 0x10AF0,
  0x10B58, 0x10B60, 0x10B78, 0x10B80, 0x10BA9, 0x10BB0, 0x10CFA, 0x10D00, 0x10E60, 0x10E7F,
  0x10F1D, 0x10F27, 0x10F51, 0x10F55, 0x10FC5, 0x10FCC, 0x11052, 0x11066, 0x111E1, 0x111F5,
  0x1173A, 0x1173C, 0x118EA, 0x118F3, 0x11C5A, 0x11C6D, 0x11FC0, 0x11FD5, 0x16B5B, 0x16B62,
  0x16E80, 0x16E97, 0x1D2C0, 0x1D2D4, 0x1D2E0, 0x1D2F4, 0x1D360, 0x1D379, 0x1E8C7, 0x1E8D0,
  0x1EC71, 0x1ECAC, 0x1ECAD, 0x1ECB0, 0x1ECB1, 0x1ECB5, 0x1ED01, 0x1ED2E, 0x1ED2F, 0x1ED3E,
  0x1F100, 0x1F10D]

def isLetterNumber (c : Char) : Bool := Unicode.inside letterNumberBounds c

def isNumber (c : Char) : Bool :=
  isDigit true c || isLetterNumber c || Unicode.inside otherNumberBounds c

def isSpace (unicode : Bool) (c : Char) : Bool :=
  if unicode then Text.isBlank c else (0x09 ≤ c.toNat && c.toNat ≤ 0x0D) || c == ' '

/-- Characters of identifiers that are no letters, marks or digits. -/
def identifierSigns : List Nat :=
  [0xB7, 0x387, 0x1369, 0x136A, 0x136B, 0x136C, 0x136D, 0x136E, 0x136F, 0x1370, 0x1371, 0x19DA,
    0x2118, 0x212E, 0x309B, 0x309C, 0x30FB, 0xFF65]

/-- Letters and marks that no identifier holds: the enclosing marks and letters. -/
def isEnclosed (n : Nat) : Bool :=
  n == 0x488 || n == 0x489 || n == 0x1ABE || n == 0x2E2F || (0x20DD ≤ n && n ≤ 0x20E0)
    || (0x20E2 ≤ n && n ≤ 0x20E4) || (0xA670 ≤ n && n ≤ 0xA672) || (0x24B6 ≤ n && n ≤ 0x24E9)
    || (0x1F130 ≤ n && n ≤ 0x1F149) || (0x1F150 ≤ n && n ≤ 0x1F169)
    || (0x1F170 ≤ n && n ≤ 0x1F189)

/-- Letters, marks, digits, connecting punctuation and the two joiners. -/
def isWord (unicode : Bool) (c : Char) : Bool :=
  if c.toNat < 0x80 then c.isAlphanum || c == '_'
  else unicode && ((Unicode.continuesIdentifier c && !identifierSigns.contains c.toNat)
    || isEnclosed c.toNat)

/-- Letters, and letters that stand for numbers. -/
def isAlphabetic (c : Char) : Bool :=
  if c.toNat < 0x80 then c.isAlpha
  else Unicode.startsIdentifier c && !identifierSigns.contains c.toNat

/-- Letters that have another as their small form. -/
def isCapital (c : Char) : Bool := Unicode.lowerChar c != [c]

/-- Letters that are the small form of another. -/
def isSmall (c : Char) : Bool := !isCapital c && (Unicode.caseVariants c).any (· != c)

def asciiClass? (name : String) : Option (Char → Bool) :=
  let ascii (f : Char → Bool) : Option (Char → Bool) := some fun c => c.toNat < 0x80 && f c
  match name with
  | "alnum" => ascii Char.isAlphanum
  | "alpha" => ascii Char.isAlpha
  | "ascii" => ascii fun _ => true
  | "blank" => ascii fun c => c == ' ' || c == '\t'
  | "cntrl" => ascii fun c => c.toNat < 0x20 || c.toNat == 0x7F
  | "digit" => ascii Char.isDigit
  | "graph" => ascii fun c => 0x21 ≤ c.toNat && c.toNat ≤ 0x7E
  | "lower" => ascii Char.isLower
  | "print" => ascii fun c => 0x20 ≤ c.toNat && c.toNat ≤ 0x7E
  | "punct" => ascii fun c => 0x21 ≤ c.toNat && c.toNat ≤ 0x7E && !c.isAlphanum
  | "space" => ascii (isSpace false)
  | "upper" => ascii Char.isUpper
  | "word" => ascii (isWord false)
  | "xdigit" => ascii fun c => c.isDigit || ('a' ≤ c && c ≤ 'f') || ('A' ≤ c && c ≤ 'F')
  | _ => none

/-- A property of characters by its name, in any case and without the marks between its words. -/
def property? (name : String) : Option (Char → Bool) :=
  let cs := name.toList.filter fun c => c != ' ' && c != '_' && c != '-'
  match String.ofList (cs.map Char.toLower) with
  | "l" | "letter" => some fun c => isAlphabetic c && !isLetterNumber c
  | "alphabetic" | "alpha" => some isAlphabetic
  | "n" | "number" => some isNumber
  | "nd" | "decimalnumber" | "digit" => some (isDigit true)
  | "nl" | "letternumber" => some isLetterNumber
  | "lu" | "uppercaseletter" | "uppercase" | "upper" => some isCapital
  | "ll" | "lowercaseletter" | "lowercase" | "lower" => some isSmall
  | "whitespace" | "wspace" | "space" => some Text.isBlank
  | "any" => some fun _ => true
  | "ascii" => some fun c => c.toNat < 0x80
  | _ => none

/-! ## Case -/

/-- The characters of a class and those that count as one with them. -/
def ignoringCase (allows : Char → Bool) (c : Char) : Bool := (Unicode.caseVariants c).any allows

end Routebook.Pattern
