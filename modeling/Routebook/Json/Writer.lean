import Routebook.Json.Token

/-!
# Writing Json

`compact` writes the tokens of a value and nothing else; `pretty` puts every item and field on a
line of its own, two blanks deeper than what holds it. An empty array or object takes no lines.
-/

namespace Routebook.Json

mutual
def compactChars : Json → List Char
  | .null => Token.null.text
  | .bool b => (Token.bool b).text
  | .number t => (Token.number t).text
  | .string s => (Token.string s).text
  | .array [] => ['[', ']']
  | .array (x :: xs) => '[' :: (compactChars x ++ compactItems xs ++ [']'])
  | .object [] => ['\x7b', '\x7d']
  | .object ((k, x) :: fs) =>
    '\x7b' :: (stringText k ++ ':' :: (compactChars x ++ compactFields fs ++ ['\x7d']))
/-- Items after the first, each after its comma. -/
def compactItems : List Json → List Char
  | [] => []
  | x :: xs => ',' :: (compactChars x ++ compactItems xs)
def compactFields : List (String × Json) → List Char
  | [] => []
  | (k, x) :: fs => ',' :: (stringText k ++ ':' :: (compactChars x ++ compactFields fs))
end

def compact (j : Json) : String := String.ofList (compactChars j)

/-- The end of a line, and the blanks that begin the next. -/
def newLine (indent : Nat) : List Char := '\n' :: List.replicate (2 * indent) ' '

mutual
def prettyChars (indent : Nat) : Json → List Char
  | .null => Token.null.text
  | .bool b => (Token.bool b).text
  | .number t => (Token.number t).text
  | .string s => (Token.string s).text
  | .array [] => ['[', ']']
  | .array (x :: xs) =>
    '[' :: (newLine (indent + 1) ++ prettyChars (indent + 1) x ++ prettyItems (indent + 1) xs
      ++ newLine indent ++ [']'])
  | .object [] => ['\x7b', '\x7d']
  | .object ((k, x) :: fs) =>
    '\x7b' :: (newLine (indent + 1) ++ stringText k ++ ':' :: ' ' :: prettyChars (indent + 1) x
      ++ prettyFields (indent + 1) fs ++ newLine indent ++ ['\x7d'])
/-- Items after the first, each on its line. -/
def prettyItems (indent : Nat) : List Json → List Char
  | [] => []
  | x :: xs => ',' :: (newLine indent ++ prettyChars indent x ++ prettyItems indent xs)
def prettyFields (indent : Nat) : List (String × Json) → List Char
  | [] => []
  | (k, x) :: fs =>
    ',' :: (newLine indent ++ stringText k ++ ':' :: ' ' :: prettyChars indent x
      ++ prettyFields indent fs)
end

/-- The text of a value on indented lines, without a line feed at its end. -/
def pretty (j : Json) : String := String.ofList (prettyChars 0 j)

end Routebook.Json
