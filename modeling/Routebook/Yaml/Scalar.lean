import Routebook.Yaml.Place
import Routebook.Text.Hex

/-!
# Reading scalars

The three ways to write a text: plain, in quotes, and as a block of lines. In the first two **one
line end between words becomes a space**, and of several the first is dropped; so does a folded
block with the ends of its lines, except around lines that are indented further.
-/

namespace Routebook.Yaml

open Scan

/-! ## Gaps between words -/

/-- Blanks and line ends between the words of a scalar. -/
structure Gap where
  /-- The blanks before the first line end. -/
  blanks : List Char := []
  /-- The first line end; a line end that is escaped comes to nothing. -/
  first : Option (List Char) := none
  more : List Char := []

/-- What a gap comes to in the text. -/
def Gap.fold (g : Gap) : List Char :=
  match g.first with
  | none => g.blanks
  | some b => if b == ['\n'] then if g.more.isEmpty then [' '] else g.more else b ++ g.more

/-- Read a gap. Before the given column a tab cannot follow a line end. -/
def readGap (column : Nat) : Nat → Gap → Scan Gap
  | 0, _ => refuse
  | n + 1, g => do
    match ← peek with
    | none => return g
    | some c =>
      if isBlank c then
        if g.first.isNone then
          skip 1
          readGap column n { g with blanks := g.blanks ++ [c] }
        else
          if c == '\t' && (← get).column < column then refuse
          skip 1
          readGap column n g
      else if isBreak c then
        let b ← lineEnd
        if g.first.isNone then readGap column n { g with blanks := [], first := some b }
        else readGap column n { g with more := g.more ++ b }
      else return g

/-! ## Plain scalars -/

def isFlowMark (c : Char) : Bool := [',', '[', ']', '\x7b', '\x7d'].contains c

/-- The characters of a plain scalar up to a gap or to what ends the scalar, and what follows. In
brackets a colon cannot stand before another mark. -/
def plainWord? (inFlow : Bool) : List Char → Option (List Char × List Char)
  | [] => some ([], [])
  | c :: cs =>
    if isGap (some c) then some ([], c :: cs)
    else if c == ':' && isGap cs.head? then some ([], c :: cs)
    else if inFlow && c == ':' && cs.head?.any fun d => isFlowMark d || d == '?' then none
    else if inFlow && isFlowMark c then some ([], c :: cs)
    else (plainWord? inFlow cs).map fun (word, rest) => (c :: word, rest)

/-- The words of a plain scalar after the given text and gap, and whether a line has ended after
the last of them. -/
def plainWords (inFlow : Bool) (column : Nat) : Nat → List Char → Gap → Scan (List Char × Bool)
  | 0, _, _ => refuse
  | n + 1, text, gap => do
    if (← atDocumentMark) || (← peek) == some '#' then return (text, gap.first.isSome)
    match plainWord? inFlow (← get).rest with
    | none => refuse
    | some ([], _) => return (text, gap.first.isSome)
    | some (word, _) =>
      skip word.length
      let text := text ++ gap.fold ++ word
      if !isGap (← peek) || (← peek).isNone then return (text, false)
      let gap ← readGap column (← fuel) {}
      if !inFlow && (← get).column < column then return (text, gap.first.isSome)
      plainWords inFlow column n text gap

/-- A plain scalar whose lines begin at the given column or after it. -/
def plainScalar (inFlow : Bool) (column : Nat) : Scan (List Char × Bool) := do
  plainWords inFlow column (← fuel) [] {}

/-! ## Quoted scalars -/

/-- The character of an escape of one letter. -/
def letterEscape? : Char → Option Nat
  | '0' => some 0x00
  | 'a' => some 0x07
  | 'b' => some 0x08
  | 't' | '\t' => some 0x09
  | 'n' => some 0x0A
  | 'v' => some 0x0B
  | 'f' => some 0x0C
  | 'r' => some 0x0D
  | 'e' => some 0x1B
  | ' ' => some 0x20
  | '"' => some 0x22
  | '/' => some 0x2F
  | '\\' => some 0x5C
  | 'N' => some 0x85
  | '_' => some 0xA0
  | 'L' => some 0x2028
  | 'P' => some 0x2029
  | _ => none

/-- The number of digits after the letter of a numeric escape. -/
def escapeDigits? : Char → Option Nat
  | 'x' => some 2
  | 'u' => some 4
  | 'U' => some 8
  | _ => none

/-- An escape after its backslash. -/
def escaped : Scan Char := do
  let c ← next
  match letterEscape? c, escapeDigits? c with
  | some n, _ => return Char.ofNat n
  | none, some digits =>
    let cs := (← get).rest.take digits
    skip digits
    match Text.hexNumber? cs with
    | some n =>
      if cs.length == digits && (n < 0xD800 || (0xE000 ≤ n && n < 0x110000)) then
        return Char.ofNat n
      else refuse
    | none => refuse
  | none, none => refuse

/-- The characters up to a gap or the closing quote, and whether an escaped line end follows. -/
def quotedWord (single : Bool) : Nat → List Char → Scan (List Char × Bool)
  | 0, _ => refuse
  | n + 1, word => do
    match ← peek with
    | none => return (word, false)
    | some c =>
      if isGap (some c) then return (word, false)
      else if single then
        if c == '\'' then
          if (← peekAt 1) == some '\'' then
            skip 2
            quotedWord single n (word ++ ['\''])
          else return (word, false)
        else
          skip 1
          quotedWord single n (word ++ [c])
      else if c == '"' then return (word, false)
      else if c == '\\' then
        skip 1
        if (← peek).any isBreak then
          discard lineEnd
          return (word, true)
        else quotedWord single n (word ++ [← escaped])
      else
        skip 1
        quotedWord single n (word ++ [c])

/-- The words of a quoted scalar up to its closing quote, which is read too. -/
def quotedWords (single : Bool) : Nat → List Char → Scan (List Char)
  | 0, _ => refuse
  | n + 1, text => do
    if (← atDocumentMark) || (← peek).isNone then refuse
    let (word, lineEscaped) ← quotedWord single (← fuel) []
    if (← peek) == some (if single then '\'' else '"') then
      skip 1
      return text ++ word
    else
      let gap ← readGap 0 (← fuel) { first := if lineEscaped then some [] else none }
      quotedWords single n (text ++ word ++ gap.fold)

/-- A quoted scalar from its opening quote on. -/
def quotedScalar (single : Bool) : Scan (List Char) := do
  skip 1
  quotedWords single (← fuel) []

/-! ## Blocks of lines -/

/-- What becomes of the line ends at the end of a block. -/
inductive Chomp where
  | strip | clip | keep
  deriving Repr, DecidableEq

def chomp? : Scan (Option Chomp) := do
  match ← peek with
  | some '+' => skip 1; return some .keep
  | some '-' => skip 1; return some .strip
  | _ => return none

/-- The depth that a block is said to have. It is not zero. -/
def depth? : Scan (Option Nat) := do
  match ← peek with
  | some c =>
    if c == '0' then refuse
    else if c.isDigit then
      skip 1
      return some (c.toNat - '0'.toNat)
    else return none
  | none => return none

/-- Empty lines, up to a line that is deep enough or ends the block, and the depth of the deepest
of all. With no depth known all blanks are skipped. -/
def emptyLines (depth : Option Nat) : Nat → List Char → Nat → Scan (List Char × Nat)
  | 0, _, _ => refuse
  | n + 1, breaks, deepest => do
    let p ← get
    let spaces := (p.rest.takeWhile (· == ' ')).length
    skip (match depth with
      | none => spaces
      | some d => min spaces (d - p.column))
    let column := (← get).column
    let deepest := max deepest column
    if (← peek) == some '\t' && depth.all (column < ·) then refuse
    if (← peek).any isBreak then
      emptyLines depth n (breaks ++ (← lineEnd)) deepest
    else return (breaks, deepest)

/-- What is kept of a block between two of its lines. -/
structure BlockGap where
  /-- The end of the line before. -/
  first : List Char
  /-- The empty lines after it. -/
  more : List Char
  /-- The line before begins with a blank. -/
  indented : Bool

/-- The end of a line and the empty lines after it, before a line that begins with a blank or does
not. -/
def BlockGap.fold (literal indented : Bool) (g : BlockGap) : List Char :=
  if !literal && g.first == ['\n'] && !g.indented && !indented then
    if g.more.isEmpty then [' '] else g.more
  else g.first ++ g.more

def blockLines (literal : Bool) (depth : Nat) :
    Nat → List Char → BlockGap → Scan (List Char × BlockGap)
  | 0, _, _ => refuse
  | n + 1, text, gap => do
    if (← get).column != depth || (← peek).isNone then return (text, gap)
    let indented := (← peek).any isBlank
    let text := text ++ gap.fold literal indented
    let line ← takeWhile fun c => !isBreak c
    let first ← lineEnd
    let (more, _) ← emptyLines (some depth) (← fuel) [] 0
    blockLines literal depth n (text ++ line) ⟨first, more, indented⟩

/-- A block of lines from its mark on, in a block that is at the given column, if in one. -/
def blockScalar (literal : Bool) (outer : Option Nat) : Scan (List Char) := do
  skip 1
  let early ← chomp?
  let said ← depth?
  let late ← if early.isNone then chomp? else pure none
  let chomp := (early.or late).getD .clip
  skipRemark
  if (← peek).any fun c => !isBreak c then refuse
  discard lineEnd
  let least := match outer with
    | none => 0
    | some n => n + 1
  let known := said.map fun d => (outer.getD 0) + d
  let (breaks, deepest) ← emptyLines known (← fuel) [] 0
  let depth := known.getD (max 1 (max least deepest))
  let (text, gap) ← blockLines literal depth (← fuel) [] ⟨[], breaks, false⟩
  return match chomp with
    | .strip => text
    | .clip => text ++ gap.first
    | .keep => text ++ gap.first ++ gap.more

end Routebook.Yaml
