import Routebook.Json.Token
import Routebook.Yaml.Style

/-!
# Writing Yaml

A value is written as indented blocks. Fields stand under each other, two blanks deeper than what
holds them; **the items of a list that is a field's value stand at the field's own depth**, each
after a hyphen. An empty list or object is written in brackets.
-/

namespace Routebook.Yaml

def blanks (n : Nat) : List Char := List.replicate n ' '

/-! ## Scalars -/

def escapeLetter? (c : Char) : Option Char :=
  match c.toNat with
  | 0x00 => some '0'
  | 0x07 => some 'a'
  | 0x08 => some 'b'
  | 0x09 => some 't'
  | 0x0A => some 'n'
  | 0x0B => some 'v'
  | 0x0C => some 'f'
  | 0x0D => some 'r'
  | 0x1B => some 'e'
  | 0x22 => some '"'
  | 0x5C => some '\\'
  | 0x85 => some 'N'
  | 0x2028 => some 'L'
  | 0x2029 => some 'P'
  | _ => none

def upperDigit (n : Nat) : Char := (Nat.digitChar n).toUpper

/-- So many hexadecimal digits of a number. -/
def hexDigits : Nat → Nat → List Char
  | 0, _ => []
  | k + 1, n => hexDigits k (n / 16) ++ [upperDigit (n % 16)]

def doubleChar (c : Char) : List Char :=
  match escapeLetter? c with
  | some e => ['\\', e]
  | none =>
    if isPrintable c then [c]
    else if c.toNat ≤ 0xFF then '\\' :: 'x' :: hexDigits 2 c.toNat
    else if c.toNat ≤ 0xFFFF then '\\' :: 'u' :: hexDigits 4 c.toNat
    else '\\' :: 'U' :: hexDigits 8 c.toNat

/-- The characters between single quotes. What follows a line end is indented. -/
def singleChars (indent : Nat) (afterBreak : Bool) : List Char → List Char
  | [] => if afterBreak then blanks indent else []
  | c :: cs =>
    if isBreak c then c :: singleChars indent true cs
    else
      (if afterBreak then blanks indent else []) ++ (if c = '\'' then ['\'', '\''] else [c])
        ++ singleChars indent false cs

/-- The lines of a block, each indented unless it is empty. -/
def blockChars (indent : Nat) (afterBreak : Bool) : List Char → List Char
  | [] => []
  | c :: cs =>
    if isBreak c then c :: blockChars indent true cs
    else (if afterBreak then blanks indent else []) ++ c :: blockChars indent false cs

/-- What follows the bar of a block: its depth, if its first line begins with a blank or is empty,
and what becomes of the line ends at its end. -/
def blockHints (cs : List Char) : List Char :=
  let depth := if cs.head?.any fun c => isSpace c || isBreak c then ['2'] else []
  let ending := match cs.reverse with
    | [] => ['-']
    | last :: before =>
      if !isBreak last then ['-'] else if before.head?.all isBreak then ['+'] else []
  depth ++ ending

/-- A text in its style; its lines, if there are several, at the given depth. -/
def scalarChars (indent : Nat) (s : String) : List Char :=
  let cs := s.toList
  match styleOf s with
  | .plain => cs
  | .single => '\'' :: (singleChars indent false cs ++ ['\''])
  | .double => '"' :: (cs.flatMap doubleChar ++ ['"'])
  | .block => '|' :: (blockHints cs ++ '\n' :: blockChars indent true cs)

/-! ## Blocks -/

/-- End a line, unless it has ended. -/
def endLine (cs : List Char) : List Char :=
  if cs.getLast?.any isBreak then cs else cs ++ ['\n']

/-- Entries under each other; the first stands where the line has been brought to. -/
def stack (indent : Nat) : List (List Char) → List Char
  | [] => []
  | [e] => e
  | e :: es => endLine e ++ blanks indent ++ stack indent es

/-- A key and its colon; a key that is too long for its line is marked, and so is its value. -/
def keyChars (indent : Nat) (key : String) : List Char :=
  if isShortKey key then scalarChars (indent + 2) key ++ [':']
  else '?' :: ' ' :: (endLine (scalarChars (indent + 2) key) ++ blanks indent ++ [':', ' '])

mutual
/-- A value after a hyphen and a blank, in a block of the given depth. -/
def inlineChars (indent : Nat) : Json → List Char
  | .null => "null".toList
  | .bool b => (Json.Token.bool b).text
  | .number t => t.toList
  | .string s => scalarChars (indent + 2) s
  | .array [] => ['[', ']']
  | .array (x :: xs) => stack (indent + 2) (itemTexts (indent + 2) (x :: xs))
  | .object [] => ['\x7b', '\x7d']
  | .object (f :: fs) => stack (indent + 2) (fieldTexts (indent + 2) (f :: fs))
/-- The items of a list, each after its hyphen. -/
def itemTexts (indent : Nat) : List Json → List (List Char)
  | [] => []
  | x :: xs => ('-' :: ' ' :: inlineChars indent x) :: itemTexts indent xs
def fieldTexts (indent : Nat) : List (String × Json) → List (List Char)
  | [] => []
  | (k, x) :: fs =>
    (keyChars indent k ++ if isShortKey k then valueChars indent x else inlineChars indent x)
      :: fieldTexts indent fs
/-- A value after its key and colon: on the line if it is a scalar or empty, and below otherwise. -/
def valueChars (indent : Nat) : Json → List Char
  | .null => " null".toList
  | .bool b => ' ' :: (Json.Token.bool b).text
  | .number t => ' ' :: t.toList
  | .string s => ' ' :: scalarChars (indent + 2) s
  | .array [] => [' ', '[', ']']
  | .array (x :: xs) => '\n' :: (blanks indent ++ stack indent (itemTexts indent (x :: xs)))
  | .object [] => [' ', '\x7b', '\x7d']
  | .object (f :: fs) =>
    '\n' :: (blanks (indent + 2) ++ stack (indent + 2) (fieldTexts (indent + 2) (f :: fs)))
end

def write : Json → String
  | .object (f :: fs) => String.ofList (endLine (stack 0 (fieldTexts 0 (f :: fs))))
  | .array (x :: xs) => String.ofList (endLine (stack 0 (itemTexts 0 (x :: xs))))
  | j => String.ofList (endLine (inlineChars 0 j))

end Routebook.Yaml
