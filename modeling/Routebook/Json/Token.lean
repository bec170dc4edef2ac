import Routebook.Json.Basic
import Routebook.Text.Hex

/-!
# Tokens of Json text

A text of the format is a list of tokens with blanks between them. `Token.text` writes a token, and
`readTokens?` reads all tokens of a text or refuses it.
-/

namespace Routebook.Json

inductive Token where
  | openArray | closeArray | openObject | closeObject | colon | comma
  | null
  | bool (value : Bool)
  | number (text : String)
  | string (value : String)
  deriving Repr, DecidableEq

/-! ## Writing -/

/-- One character as it stands in a string. -/
def escapeChar (c : Char) : List Char :=
  if c = '"' then ['\\', '"']
  else if c = '\\' then ['\\', '\\']
  else if c = '\x08' then ['\\', 'b']
  else if c = '\x0c' then ['\\', 'f']
  else if c = '\n' then ['\\', 'n']
  else if c = '\r' then ['\\', 'r']
  else if c = '\t' then ['\\', 't']
  else if c.toNat < 0x20 then
    '\\' :: 'u' :: '0' :: '0' :: Nat.digitChar (c.toNat / 16) :: [Nat.digitChar (c.toNat % 16)]
  else [c]

def stringText (s : String) : List Char := '"' :: (s.toList.flatMap escapeChar ++ ['"'])

def Token.text : Token → List Char
  | openArray => ['[']
  | closeArray => [']']
  | openObject => ['\x7b']
  | closeObject => ['\x7d']
  | colon => [':']
  | comma => [',']
  | null => "null".toList
  | bool true => "true".toList
  | bool false => "false".toList
  | number t => t.toList
  | string s => stringText s

/-! ## Reading -/

def simpleEscape? : Char → Option Char
  | '"' => some '"'
  | '\\' => some '\\'
  | '/' => some '/'
  | 'b' => some '\x08'
  | 'f' => some '\x0c'
  | 'n' => some '\n'
  | 'r' => some '\r'
  | 't' => some '\t'
  | _ => none

/-- The characters of a string after its opening quote, and what follows the closing one. A
surrogate must have its partner, and a control character must be escaped. -/
def readString? : List Char → Option (List Char × List Char)
  | [] => none
  | '"' :: cs => some ([], cs)
  | '\\' :: 'u' :: a :: b :: c :: d :: cs =>
    match Text.hexNumber? [a, b, c, d] with
    | none => none
    | some n =>
      if Text.isLowSurrogate n then none
      else if Text.isHighSurrogate n then
        match cs with
        | '\\' :: 'u' :: e :: f :: g :: h :: cs =>
          match Text.hexNumber? [e, f, g, h] with
          | none => none
          | some low =>
            if Text.isLowSurrogate low then
              (readString? cs).map fun (s, rest) =>
                (Char.ofNat (Text.joinSurrogates n low) :: s, rest)
            else none
        | _ => none
      else (readString? cs).map fun (s, rest) => (Char.ofNat n :: s, rest)
  | '\\' :: e :: cs =>
    match simpleEscape? e with
    | none => none
    | some c => (readString? cs).map fun (s, rest) => (c :: s, rest)
  | c :: cs =>
    if c.toNat < 0x20 then none
    else (readString? cs).map fun (s, rest) => (c :: s, rest)

/-- What follows a run of at least one digit. -/
def afterDigits? (cs : List Char) : Option (List Char) :=
  match cs with
  | c :: _ => if c.isDigit then some (cs.dropWhile Char.isDigit) else none
  | [] => none

def afterFraction? : List Char → Option (List Char)
  | '.' :: cs => afterDigits? cs
  | cs => some cs

def afterExponent? : List Char → Option (List Char)
  | c :: cs =>
    if c = 'e' ∨ c = 'E' then
      match cs with
      | '+' :: ds => afterDigits? ds
      | '-' :: ds => afterDigits? ds
      | ds => afterDigits? ds
    else some (c :: cs)
  | [] => some []

/-- What follows a number: no zero in front of other digits, and digits on both sides of a point. -/
def afterNumber? (cs : List Char) : Option (List Char) := do
  let unsigned := match cs with
    | '-' :: r => r
    | r => r
  let rest ← match unsigned with
    | '0' :: r => some r
    | r => afterDigits? r
  afterExponent? (← afterFraction? rest)

def isBlank (c : Char) : Bool := c == ' ' || c == '\n' || c == '\t' || c == '\r'

/-- The first token of a text that begins with no blank. -/
def readToken? : List Char → Option (Token × List Char)
  | '[' :: cs => some (.openArray, cs)
  | ']' :: cs => some (.closeArray, cs)
  | '\x7b' :: cs => some (.openObject, cs)
  | '\x7d' :: cs => some (.closeObject, cs)
  | ':' :: cs => some (.colon, cs)
  | ',' :: cs => some (.comma, cs)
  | '"' :: cs => (readString? cs).map fun (s, rest) => (.string (String.ofList s), rest)
  | 'n' :: 'u' :: 'l' :: 'l' :: cs => some (.null, cs)
  | 't' :: 'r' :: 'u' :: 'e' :: cs => some (.bool true, cs)
  | 'f' :: 'a' :: 'l' :: 's' :: 'e' :: cs => some (.bool false, cs)
  | cs => (afterNumber? cs).map fun rest =>
    (.number (String.ofList (cs.take (cs.length - rest.length))), rest)

/-- The tokens of a text. Each takes at least one character, so the fuel is the text's length. -/
def readTokensWithin? : Nat → List Char → Option (List Token)
  | 0, _ => none
  | n + 1, cs =>
    match cs.dropWhile isBlank with
    | [] => some []
    | c :: cs => do
      let (t, rest) ← readToken? (c :: cs)
      return t :: (← readTokensWithin? n rest)

def readTokens? (cs : List Char) : Option (List Token) := readTokensWithin? (cs.length + 1) cs

end Routebook.Json
