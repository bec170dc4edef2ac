import Routebook.Yaml.Char

/-!
# Places in a Yaml text

Depth means something in this format, so a place counts lines and columns. A `Scan` reads from a
place on and either goes to a later one or refuses the text.
-/

namespace Routebook.Yaml

structure Place where
  rest : List Char
  line : Nat
  column : Nat
  /-- The number of characters before. -/
  index : Nat
  deriving Inhabited

def Place.start (cs : List Char) : Place := ⟨cs, 0, 0, 0⟩

abbrev Scan := StateT Place Option

namespace Scan

def refuse {α : Type} : Scan α := fun _ => none

def peek : Scan (Option Char) := return (← get).rest.head?

def peekAt (n : Nat) : Scan (Option Char) := return (← get).rest[n]?

def skip (n : Nat) : Scan Unit :=
  modify fun p => { p with
    rest := p.rest.drop n
    column := p.column + n
    index := p.index + n }

def next : Scan Char := do
  match (← get).rest with
  | [] => refuse
  | c :: _ => skip 1; return c

/-- What the end of a line comes to: a line feed, or one of the two separators. -/
def lineEnd : Scan (List Char) := fun p =>
  let after (rest : List Char) (n : Nat) : Place := ⟨rest, p.line + 1, 0, p.index + n⟩
  match p.rest with
  | '\r' :: '\n' :: cs => some (['\n'], after cs 2)
  | c :: cs =>
    if c.toNat == 0x2028 || c.toNat == 0x2029 then some ([c], after cs 1)
    else if isBreak c then some (['\n'], after cs 1)
    else some ([], p)
  | [] => some ([], p)

/-- The characters that pass a test, from here on. -/
def takeWhile (test : Char → Bool) : Scan (List Char) := do
  let cs := (← get).rest.takeWhile test
  skip cs.length
  return cs

/-- Skip blanks, and a comment up to the end of its line. -/
def skipRemark : Scan Unit := do
  discard (takeWhile isBlank)
  if (← peek) == some '#' then discard (takeWhile fun c => !isBreak c)

/-- Whether three of a character and a gap stand here at the start of a line: the marks between
documents. -/
def atDocumentMark : Scan Bool := do
  let p ← get
  let mark := p.rest.take 3
  return p.column == 0 && (mark == ['-', '-', '-'] || mark == ['.', '.', '.'])
    && isGap p.rest[3]?

/-- A bound on the number of steps from here on. -/
def fuel : Scan Nat := return (← get).rest.length + 1

end Scan

end Routebook.Yaml
