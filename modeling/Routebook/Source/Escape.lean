import Routebook.Source.Cursor
import Routebook.Number.Text
import Routebook.Text.Hex

/-!
# Escapes

What the escapes in strings, templates and identifiers stand for. A text may hold half a surrogate
pair, which is no character; `textOfUnits` gives it a written form that keeps texts apart.
-/

namespace Routebook.Source

open Text

/-- The digits of a code point between braces and the number of characters up to and with the
closing brace. -/
def bracedCode? (cs : List Char) : Option (Nat × Nat) :=
  let digits := cs.takeWhile fun c => (hexValue? c).isSome
  match cs.drop digits.length, hexNumber? digits with
  | '}' :: _, some n => if digits ≠ [] ∧ n ≤ 0x10FFFF then some (n, digits.length + 1) else none
  | _, _ => none

/-- What an escape after its backslash and `u` stands for, and its length. A pair of surrogates
written as two escapes of four digits is one code point. -/
def unicodeEscape? : List Char → Option (Nat × Nat)
  | '\x7b' :: cs => (bracedCode? cs).map fun (n, used) => (n, used + 1)
  | a :: b :: c :: d :: cs => do
    let high ← hexNumber? [a, b, c, d]
    match cs with
    | '\\' :: 'u' :: e :: f :: g :: h :: _ =>
      match hexNumber? [e, f, g, h] with
      | some low =>
        if isHighSurrogate high && isLowSurrogate low then
          some (joinSurrogates high low, 10)
        else some (high, 4)
      | none => some (high, 4)
    | _ => some (high, 4)
  | _ => none

/-- One unit of a text: a character, or half a surrogate pair that stands alone. -/
inductive TextUnit where
  | char (c : Char)
  | loneSurrogate (code : Nat)

def TextUnit.ofCode (n : Nat) : TextUnit :=
  if isHighSurrogate n || isLowSurrogate n then loneSurrogate n else char (Char.ofNat n)

/-- The units as a text. A lone surrogate is shown by U+FFFD and its four hexadecimal digits; where
a text has one, so is U+FFFD itself. -/
def textOfUnits (units : List TextUnit) : String :=
  let lone := units.any fun | .loneSurrogate _ => true | .char _ => false
  let marked (n : Nat) : List Char := Char.ofNat 0xFFFD :: Nat.toDigits 16 n
  String.ofList <| units.flatMap fun
    | .char c => if lone && c.toNat == 0xFFFD then marked 0xFFFD else [c]
    | .loneSurrogate n => marked n

def isOctalDigit (c : Char) : Bool := '0' ≤ c && c ≤ '7'

/-- The number of octal digits an old escape takes: two, or three below `\400`. -/
def octalLength : List Char → Nat
  | a :: b :: c :: _ =>
    if isOctalDigit a && isOctalDigit b then
      if a ≤ '3' && isOctalDigit c then 3 else 2
    else 1
  | a :: b :: _ => if isOctalDigit a && isOctalDigit b then 2 else 1
  | _ => 1

/-- What an escape stands for, given the text after its backslash, and its length. No unit for a
continued line; `none` for an escape that is malformed. Octal digits are for strings only. -/
def escape? (octal : Bool) : List Char → Option (Option TextUnit × Nat)
  | [] => none
  | '\r' :: '\n' :: _ => some (none, 2)
  | c :: cs =>
    if isLineEnd c then some (none, 1)
    else match c with
      | 'n' => some (some (.char '\n'), 1)
      | 't' => some (some (.char '\t'), 1)
      | 'r' => some (some (.char '\r'), 1)
      | 'b' => some (some (.char '\x08'), 1)
      | 'v' => some (some (.char '\x0b'), 1)
      | 'f' => some (some (.char '\x0c'), 1)
      | 'x' => match cs with
        | a :: b :: _ => (hexNumber? [a, b]).map fun n => (some (.char (Char.ofNat n)), 3)
        | _ => none
      | 'u' => (unicodeEscape? cs).map fun (n, used) => (some (.ofCode n), used + 1)
      | _ =>
        if c == '0' && !(cs.head?.any Char.isDigit) then some (some (.char '\x00'), 1)
        else if c.isDigit then
          if !octal then none
          else if isOctalDigit c then
            let used := octalLength (c :: cs)
            let code := ((c :: cs).take used).foldl (fun n d => 8 * n + Number.digitValue d) 0
            some (some (.char (Char.ofNat code)), used)
          else some (some (.char c), 1)
        else some (some (.char c), 1)

end Routebook.Source
