import Routebook.Yaml.Char
import Routebook.Yaml.Plain

/-!
# How a text is written

A text is written in the first of these styles that can hold it: plain, in single quotes, in double
quotes; a text with line feeds as a block of lines, or in double quotes. **What a style can hold
depends on the characters that stand side by side,** because line ends and the blanks around them
are not kept in every style.
-/

namespace Routebook.Yaml

inductive Style where
  | plain | single | double | block
  deriving Repr, DecidableEq, Inhabited

/-- Whether two characters stand side by side somewhere. -/
def adjacent (first second : Char → Bool) (cs : List Char) : Bool :=
  (cs.zip cs.tail).any fun (a, b) => first a && second b

def isSpace (c : Char) : Bool := c == ' '

/-- Characters that mean something at the start of a scalar. -/
def isIndicator (c : Char) : Bool :=
  ['#', ',', '[', ']', '\x7b', '\x7d', '&', '*', '!', '|', '>', '\'', '"', '%', '@',
    '\x60'].contains c

/-- Whether the start of a text would be taken for something else. -/
def startsWithIndicator (cs : List Char) : Bool :=
  ['-', '-', '-'].isPrefixOf cs || ['.', '.', '.'].isPrefixOf cs ||
  match cs with
  | [] => false
  | c :: rest => isIndicator c || ((c == '?' || c == '-') && isGap rest.head?)

/-- A colon before a gap, or a number sign after one. -/
def holdsIndicator (cs : List Char) : Bool :=
  adjacent (· == ':') (fun c => isGap (some c)) cs || cs.getLast? == some ':'
    || adjacent (fun c => isGap (some c)) (· == '#') cs

def holdsUnprintable (cs : List Char) : Bool := cs.any fun c => !isPrintable c

/-- Whether single quotes keep a text: every character is shown, and no space touches a line
end. -/
def fitsSingle (cs : List Char) : Bool :=
  !holdsUnprintable cs && !adjacent isSpace isBreak cs && !adjacent isBreak isSpace cs

def fitsPlain (cs : List Char) : Bool :=
  fitsSingle cs && !cs.any isBreak && !startsWithIndicator cs && !holdsIndicator cs
    && !cs.head?.any isSpace && !cs.getLast?.any isSpace

/-- Whether lines keep a text: no space is at the end of a line. -/
def fitsBlock (cs : List Char) : Bool :=
  !holdsUnprintable cs && !adjacent isSpace isBreak cs && !cs.getLast?.any isSpace

/-- The style of a text. A key on one line cannot be a block; it holds no line end anyway. -/
def styleOf (s : String) : Style :=
  let cs := s.toList
  if cs.contains '\n' then if fitsBlock cs then .block else .double
  else if !needsQuotes s && fitsPlain cs then .plain
  else if fitsSingle cs then .single
  else .double

/-- Keys that are written before their colon on one line. -/
def isShortKey (s : String) : Bool := s.utf8ByteSize ≤ 128 && !s.toList.any isBreak

end Routebook.Yaml
