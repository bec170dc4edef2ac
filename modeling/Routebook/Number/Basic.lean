/-!
# Numbers as a literal writes them

A numeric literal stands for the binary double nearest to what is written. A `Number` is that
double, held exactly: a sign and `mantissa * 2 ^ exponent`, or an infinity. Everything is computed
in `Nat`, so that rounding and printing can be reasoned about.

**`ofRatio` is the one place that rounds.** Decimal text, hexadecimal text and exponents all arrive
there as a quotient of two naturals, and a quotient half way between two doubles goes to the one
with the even mantissa.
-/

namespace Routebook

/-- A binary double other than not-a-number. A finite one is `± mantissa * 2 ^ exponent`. -/
inductive Number where
  | finite (negative : Bool) (mantissa : Nat) (exponent : Int)
  | infinite (negative : Bool)
  deriving Repr, DecidableEq, Inhabited

namespace Number

def zero : Number := finite false 0 0

/-- The least number of 54 binary digits. Mantissas stay below it. -/
def mantissaLimit : Nat := Nat.pow 2 53

/-- Scale a quotient by a power of two, keeping both sides natural. -/
def scaleRatio (num den : Nat) : Int → Nat × Nat
  | .ofNat k => (num * Nat.pow 2 k, den)
  | .negSucc k => (num, den * Nat.pow 2 (k + 1))

/-- The nearest natural to a quotient; a half goes to the even neighbour. -/
def roundHalfEven (num den : Nat) : Nat :=
  let q := num / den
  let twice := 2 * (num % den)
  if twice < den then q
  else if den < twice then q + 1
  else if q % 2 = 0 then q else q + 1

/-- The double nearest to `num / den`, with the given sign. Subnormals share the least exponent,
-1074, and a value that rounds above the largest double is infinite. -/
def ofRatio (negative : Bool) (num den : Nat) : Number :=
  if num = 0 then finite negative 0 0
  else
    let least : Int := -1074
    let guess : Int := max ((num.log2 : Int) - (den.log2 : Int) - 53) least
    -- `guess` is right or one too small: the quotient lies within a factor of two of the guess.
    let exponent : Int :=
      let (n, d) := scaleRatio num den (-guess)
      if n / d < mantissaLimit then guess else guess + 1
    let (n, d) := scaleRatio num den (-exponent)
    let mantissa := roundHalfEven n d
    let (mantissa, exponent) :=
      if mantissa = mantissaLimit then (mantissaLimit / 2, exponent + 1) else (mantissa, exponent)
    if exponent > 971 then infinite negative else finite negative mantissa exponent

/-- The double nearest to `digits * 10 ^ scale`. Beyond 400 places either way the answer is already
decided, and no such power is computed. -/
def ofDecimal (negative : Bool) (digits : Nat) (scale : Int) : Number :=
  if digits = 0 then finite negative 0 0
  else
    let magnitude : Int := ((Nat.toDigits 10 digits).length : Int) + scale
    if magnitude > 400 then infinite negative
    else if magnitude < -400 then finite negative 0 0
    else match scale with
      | .ofNat k => ofRatio negative (digits * Nat.pow 10 k) 1
      | .negSucc k => ofRatio negative digits (Nat.pow 10 (k + 1))

def ofNat (n : Nat) : Number := ofRatio false n 1

/-- The exact value as a quotient of naturals, without the sign. -/
def magnitude : Number → Option (Nat × Nat)
  | finite _ m e => some (scaleRatio m 1 e)
  | infinite _ => none

/-- The value as a natural number, for a number that is one. Minus zero is zero. -/
def toNat? : Number → Option Nat
  | finite negative m e =>
    let (n, d) := scaleRatio m 1 e
    if n % d = 0 ∧ (negative = false ∨ n = 0) then some (n / d) else none
  | infinite _ => none

def succ : Number → Number
  | infinite n => infinite n
  | finite negative m e =>
    let (n, d) := scaleRatio m 1 e
    if negative then
      if n < d then ofRatio false (d - n) d else ofRatio true (n - d) d
    else ofRatio false (n + d) d

end Number

end Routebook
