import Routebook.Text.Blank

/-!
# Text without its common indentation

A text that was written inside indented source is moved to the left as a block. **`dedent` removes
the longest run of spaces and tabs that every line with text begins with**, drops blank lines at
either end, and keeps those in between as empty lines.
-/

namespace Routebook.Text

/-- The lines of a text. A line ends with a line feed, or a carriage return and a line feed; what
follows the last line feed is a line unless it is empty. -/
def lines : List Char → List (List Char)
  | [] => []
  | '\n' :: cs => [] :: lines cs
  | '\r' :: '\n' :: cs => [] :: lines cs
  | c :: cs =>
    match lines cs with
    | [] => [[c]]
    | first :: rest => (c :: first) :: rest

/-- The spaces and tabs a line begins with. -/
def indentation (line : List Char) : List Char := line.takeWhile fun c => c == ' ' || c == '\t'

/-- The longest common beginning of two texts. -/
def commonPrefix : List Char → List Char → List Char
  | a :: as, b :: bs => if a = b then a :: commonPrefix as bs else []
  | _, _ => []

/-- The lines without the blank ones at either end. -/
def withoutBlankEnds (ls : List (List Char)) : List (List Char) :=
  ((ls.dropWhile isAllBlank).reverse.dropWhile isAllBlank).reverse

/-- The indentation that all lines with text have in common. -/
def commonIndentation (ls : List (List Char)) : List Char :=
  match (ls.filter fun l => !isAllBlank l).map indentation with
  | [] => []
  | first :: rest => rest.foldl commonPrefix first

def unlines : List (List Char) → List Char
  | [] => []
  | [l] => l
  | l :: ls => l ++ '\n' :: unlines ls

/-- A line moved to the left, without blanks at its end. -/
def shiftLine (indent : List Char) (line : List Char) : List Char :=
  if isAllBlank line then [] else trimEnd (line.drop indent.length)

def dedentChars (cs : List Char) : List Char :=
  let ls := withoutBlankEnds (lines cs)
  unlines (ls.map (shiftLine (commonIndentation ls)))

def dedent (s : String) : String := String.ofList (dedentChars s.toList)

end Routebook.Text
