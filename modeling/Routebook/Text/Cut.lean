/-!
# Cutting texts

A text cut at every occurrence of a character has one part more than there are occurrences.
-/

namespace Routebook.Text

/-- The parts of a text between the occurrences of a character. -/
def cutAt (mark : Char) : List Char → List (List Char)
  | [] => [[]]
  | c :: cs =>
    if c = mark then [] :: cutAt mark cs
    else match cutAt mark cs with
      | [] => [[c]]
      | first :: rest => (c :: first) :: rest

end Routebook.Text
