import Routebook.Unicode.Printable

/-!
# Quoted text

How a text is shown inside a type: between double quotes, with a backslash before quotes and
backslashes, short escapes for the common controls, and the code point in braces for anything that
cannot be shown as it is.
-/

namespace Routebook.Text

/-- One character as it stands between the quotes. -/
def quoteChar (c : Char) : List Char :=
  if c = '"' then ['\\', '"']
  else if c = '\\' then ['\\', '\\']
  else if c = '\n' then ['\\', 'n']
  else if c = '\r' then ['\\', 'r']
  else if c = '\t' then ['\\', 't']
  else if c.toNat = 0 then ['\\', '0']
  else if Unicode.isPrintable c then [c]
  else '\\' :: 'u' :: '{' :: (Nat.toDigits 16 c.toNat ++ ['}'])

/-- A text between double quotes, escaped so that every character can be told apart. -/
def quote (s : String) : String :=
  String.ofList ('"' :: (s.toList.flatMap quoteChar ++ ['"']))

end Routebook.Text
