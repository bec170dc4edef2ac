import Routebook.Number.Text
import Routebook.Text.Hex

/-!
# What a plain scalar stands for

A scalar without quotes is a text unless it has the form of nothing, of a truth value or of a
number. A writer has to quote a text of such a form, and a reader takes it for a text only where a
text is asked for. **Digits after a leading zero are a text** that is quoted all the same.
-/

namespace Routebook.Yaml

/-- What a plain scalar stands for on its own account. -/
inductive PlainKind where
  | null | bool | number | text
  deriving Repr, DecidableEq, Inhabited

def isNullWord (s : String) : Bool := ["null", "Null", "NULL", "~"].contains s

def isBoolWord (s : String) : Bool :=
  ["true", "True", "TRUE", "false", "False", "FALSE"].contains s

def withoutSign : List Char → List Char
  | '+' :: cs => cs
  | '-' :: cs => cs
  | cs => cs

/-- A zero and more digits, after a sign if there is one. -/
def isZeroLed (cs : List Char) : Bool :=
  match withoutSign cs with
  | '0' :: c :: rest => (c :: rest).all Char.isDigit
  | _ => false

/-- The value of digits to a base up to sixteen. -/
def digitsTo? (base : Nat) (cs : List Char) : Option Nat :=
  if cs.isEmpty then none
  else cs.foldlM (fun n c => do
    let d ← Text.hexValue? c
    if d < base then some (base * n + d) else none) 0

/-- A number to a base that its second character names, small enough for 128 bits. -/
def isBased (cs : List Char) : Bool :=
  let limit := match cs with
    | '-' :: _ => Nat.pow 2 127 + 1
    | _ => Nat.pow 2 128
  let value := match withoutSign cs with
    | '0' :: 'x' :: ds => digitsTo? 16 ds
    | '0' :: 'o' :: ds => digitsTo? 8 ds
    | '0' :: 'b' :: ds => digitsTo? 2 ds
    | _ => none
  value.any (· < limit)

/-- The words for what is no finite number. -/
def isSpecialNumber (s : String) : Bool :=
  [".inf", ".Inf", ".INF", "+.inf", "+.Inf", "+.INF", "-.inf", "-.Inf", "-.INF", ".nan", ".NaN",
    ".NAN"].contains s

/-- A decimal number that is not too large to be finite. -/
def isDecimal (cs : List Char) : Bool :=
  match Number.read? cs with
  | some (.finite _ _ _) => true
  | _ => false

def isNumber (s : String) : Bool :=
  isBased s.toList || isSpecialNumber s || (!isZeroLed s.toList && isDecimal s.toList)

def plainKind (s : String) : PlainKind :=
  if s == "" || isNullWord s then .null
  else if isBoolWord s then .bool
  else if isNumber s then .number
  else .text

/-- Whether a plain scalar would be taken for something else than this text, or looks like it. -/
def needsQuotes (s : String) : Bool := plainKind s != .text || isZeroLed s.toList

end Routebook.Yaml
