import Routebook.Number.Basic

/-!
# The text of a number

`Number.shortest` finds the fewest decimal digits that read back as the same double, and of those
the ones nearest to it. `Number.plain` writes them positionally, however large or small the number
is.

`Number.read?` reads a signed decimal and takes the whole text or nothing.
-/

namespace Routebook.Number

/-- A decimal: `digits * 10 ^ scale`. -/
structure Decimal where
  digits : Nat
  scale : Int
  deriving Repr, DecidableEq

/-- The reals that round to a double, and the double itself, over one denominator. The ends belong
to the interval when the mantissa is even. -/
structure Interval where
  low : Nat
  value : Nat
  high : Nat
  den : Nat
  closed : Bool

/-- The interval of `mantissa * 2 ^ exponent`. Below a power of two the neighbours lie twice as
dense, except among the subnormals. -/
def Interval.around (mantissa : Nat) (exponent : Int) : Interval :=
  let below := if mantissa = mantissaLimit / 2 ∧ exponent > -1074 then 1 else 2
  let (unit, den) := scaleRatio 1 1 (exponent - 2)
  { low := (4 * mantissa - below) * unit
    value := 4 * mantissa * unit
    high := (4 * mantissa + 2) * unit
    den := den
    closed := mantissa % 2 = 0 }

def Interval.holds (i : Interval) (num den : Nat) : Bool :=
  if i.closed then i.low * den ≤ num * i.den ∧ num * i.den ≤ i.high * den
  else i.low * den < num * i.den ∧ num * i.den < i.high * den

/-- How often a quotient below one must be multiplied by ten to reach one. -/
def leadingPlaces (num den : Nat) : Nat → Nat
  | 0 => 0
  | fuel + 1 => if den ≤ num then 0 else leadingPlaces (10 * num) den fuel + 1

/-- The power of ten of the first digit. -/
def firstPlace (i : Interval) : Int :=
  if i.den ≤ i.value then ((Nat.toDigits 10 (i.value / i.den)).length : Int) - 1
  else -(leadingPlaces i.value i.den 400 : Int)

/-- The point of the grid of `10 ^ scale` that lies in the interval, nearest to its value. Only the
value's two neighbours on the grid can be that point; of two equally near the upper one is taken. -/
def Interval.onGrid? (i : Interval) (scale : Int) : Option Decimal :=
  let (up, down) : Nat × Nat := match scale with
    | .ofNat k => (1, Nat.pow 10 k)
    | .negSucc k => (Nat.pow 10 (k + 1), 1)
  let num := i.value * up
  let den := i.den * down
  let q := num / den
  let hitLow := i.holds (q * down) up
  let hitHigh := i.holds ((q + 1) * down) up
  if hitHigh && (!hitLow || decide (den ≤ 2 * (num % den))) then some ⟨q + 1, scale⟩
  else if hitLow then some ⟨q, scale⟩
  else none

def dropZeros (d : Decimal) : Nat → Decimal
  | 0 => d
  | fuel + 1 =>
    if d.digits ≠ 0 ∧ d.digits % 10 = 0 then dropZeros ⟨d.digits / 10, d.scale + 1⟩ fuel else d

/-- The fewest digits that read back as `mantissa * 2 ^ exponent`. Seventeen always suffice. -/
def shortest (mantissa : Nat) (exponent : Int) : Decimal :=
  if mantissa = 0 then ⟨0, 0⟩
  else
    let i := Interval.around mantissa exponent
    let first := firstPlace i
    let found := (List.range 18).findSome? fun count : Nat => i.onGrid? (first - count)
    dropZeros (found.getD ⟨0, 0⟩) 400

def zeros (n : Nat) : List Char := List.replicate n '0'

/-- Digits with the decimal point where it falls, and no exponent. -/
def Decimal.positional (d : Decimal) : List Char :=
  let ds := Nat.toDigits 10 d.digits
  match d.scale with
  | .ofNat k => if d.digits = 0 then ds else ds ++ zeros k
  | .negSucc k =>
    let places := k + 1
    if places < ds.length then
      ds.take (ds.length - places) ++ '.' :: ds.drop (ds.length - places)
    else '0' :: '.' :: (zeros (places - ds.length) ++ ds)

def signed (negative : Bool) (cs : List Char) : String :=
  String.ofList (if negative then '-' :: cs else cs)

/-- Positional digits for every number; minus zero keeps its sign. -/
def plain : Number → String
  | infinite n => signed n "inf".toList
  | finite n m e => signed n (shortest m e).positional

/-! ## Reading -/

def digitValue (c : Char) : Nat := c.toNat - '0'.toNat

def ofDigits (cs : List Char) : Nat := cs.foldl (fun n c => 10 * n + digitValue c) 0

/-- An exponent after its `e`: an optional sign and at least one digit. -/
def readExponent? : List Char → Option Int
  | '-' :: cs => if cs ≠ [] ∧ cs.all Char.isDigit then some (-(ofDigits cs : Int)) else none
  | '+' :: cs => if cs ≠ [] ∧ cs.all Char.isDigit then some (ofDigits cs : Int) else none
  | cs => if cs ≠ [] ∧ cs.all Char.isDigit then some (ofDigits cs : Int) else none

/-- Digits with an optional fraction and exponent. One digit is needed, on either side of the
point. -/
def readMagnitude? (negative : Bool) (cs : List Char) : Option Number :=
  let whole := cs.takeWhile Char.isDigit
  let rest := cs.dropWhile Char.isDigit
  let (fraction, rest) := match rest with
    | '.' :: r => (r.takeWhile Char.isDigit, r.dropWhile Char.isDigit)
    | r => ([], r)
  if whole = [] ∧ fraction = [] then none
  else
    let digits := ofDigits (whole ++ fraction)
    let places : Int := -(fraction.length : Int)
    match rest with
    | [] => some (ofDecimal negative digits places)
    | c :: r =>
      if c = 'e' ∨ c = 'E' then
        (readExponent? r).map fun x => ofDecimal negative digits (places + x)
      else none

def read? : List Char → Option Number
  | '-' :: cs => readMagnitude? true cs
  | '+' :: cs => readMagnitude? false cs
  | cs => readMagnitude? false cs

end Routebook.Number
