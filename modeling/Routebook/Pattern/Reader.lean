import Routebook.Pattern.Basic
import Routebook.Pattern.Engine
import Routebook.Text.Hex

/-!
# Reading patterns

The written form of a pattern: characters, classes in brackets, groups, alternatives, repetitions
and flags. **Nothing is read that would need to look back:** a reference to a group and a condition
on the text around are refused, like every text that does not follow the rules.
-/

namespace Routebook.Pattern

/-- What the flags of a group switch. -/
structure Flags where
  ignoreCase : Bool := false
  multiLine : Bool := false
  dotAll : Bool := false
  returns : Bool := false
  unicode : Bool := true
  spaced : Bool := false
  deriving Inhabited

structure ReadState where
  rest : List Char
  flags : Flags
  /-- The names of the groups so far. -/
  names : List String

abbrev Read := StateT ReadState Option

namespace Read

def refuse {α : Type} : Read α := fun _ => none

def ofOption {α : Type} (a : Option α) : Read α := fun s => a.map fun a => (a, s)

def rest : Read (List Char) := return (← get).rest

def setRest (cs : List Char) : Read Unit := modify fun s => { s with rest := cs }

def flags : Read Flags := return (← get).flags

def peek : Read (Option Char) := return (← rest).head?

def next : Read Char := do
  match ← rest with
  | [] => refuse
  | c :: cs => setRest cs; return c

def eat (text : String) : Read Bool := do
  let cs ← rest
  if text.toList.isPrefixOf cs then setRest (cs.drop text.length); return true
  else return false

def expect (text : String) : Read Unit := do guard (← eat text)

/-- What is skipped where blanks do not count: blanks, and comments to the end of their line. -/
def skipSpaced : Bool → List Char → List Char
  | _, [] => []
  | true, c :: cs => skipSpaced (c != '\n') cs
  | false, c :: cs =>
    if Text.isBlank c then skipSpaced false cs
    else if c == '#' then skipSpaced true cs
    else c :: cs

def skip : Read Unit := do
  if (← flags).spaced then setRest (skipSpaced false (← rest))

/-- The text up to a mark, which is read too. -/
def upTo (mark : Char) : Read (List Char) := do
  let cs ← rest
  let text := cs.takeWhile (· != mark)
  guard (text.length < cs.length)
  setRest (cs.drop (text.length + 1))
  return text

end Read

open Read

/-! ## Sets of characters -/

/-- A class under the flag that ignores case. -/
def classUnder (f : Flags) (allows : Char → Bool) : Char → Bool :=
  if f.ignoreCase then ignoringCase allows else allows

/-- What an escape, or a character that stands for itself, means. -/
inductive Item where
  | char (c : Char)
  | set (allows : Char → Bool)
  | anchor (a : Anchor)

def scalar? (n : Nat) : Option Char :=
  if n < 0xD800 ∨ (0xE000 ≤ n ∧ n < 0x110000) then some (Char.ofNat n) else none

/-- A character by the hexadecimal digits of its code point: so many, or some in braces. -/
def hexChar (digits : Nat) : Read Char := do
  if ← eat "\x7b" then
    let cs ← upTo '\x7d'
    guard (!cs.isEmpty)
    ofOption ((Text.hexNumber? cs).bind scalar?)
  else
    let cs := (← rest).take digits
    guard (cs.length == digits)
    setRest ((← rest).drop digits)
    ofOption ((Text.hexNumber? cs).bind scalar?)

/-- A property: a letter, or a name in braces, which a caret turns around. -/
def propertyItem (negated : Bool) : Read Item := do
  guard (← flags).unicode
  let name ← if ← eat "\x7b" then upTo '\x7d' else pure [← next]
  let (negated, name) := match name with
    | '^' :: cs => (!negated, cs)
    | cs => (negated, cs)
  let holds ← ofOption (property? (String.ofList name))
  let holds := classUnder (← flags) holds
  return .set fun c => holds c != negated

/-- A class that is turned around may hold no part of a character, so it needs all of Unicode. -/
def namedItem (negated : Bool) (allows : Bool → Char → Bool) : Read Item := do
  let unicode := (← flags).unicode
  guard (unicode || !negated)
  return .set fun c => allows unicode c != negated

/-- The names of the anchors at a word's ends, after the letter `b`. -/
def wordAnchor : Read Anchor := do
  match ← rest with
  | '\x7b' :: c :: _ =>
    if c.isAlpha || c == '-' then
      discard next
      match String.ofList (← upTo '\x7d') with
      | "start" => return .wordStart
      | "end" => return .wordEnd
      | "start-half" => return .notAfterWord
      | "end-half" => return .notBeforeWord
      | _ => refuse
    else return .wordBoundary
  | _ => return .wordBoundary

def escape : Read Item := do
  let c ← next
  match c with
  | 'x' => return .char (← hexChar 2)
  | 'u' => return .char (← hexChar 4)
  | 'U' => return .char (← hexChar 8)
  | 'p' => propertyItem false
  | 'P' => propertyItem true
  | 'd' => namedItem false isDigit
  | 'D' => namedItem true isDigit
  | 's' => namedItem false isSpace
  | 'S' => namedItem true isSpace
  | 'w' => namedItem false isWord
  | 'W' => namedItem true isWord
  | 'a' => return .char '\x07'
  | 'f' => return .char '\x0c'
  | 't' => return .char '\t'
  | 'n' => return .char '\n'
  | 'r' => return .char '\r'
  | 'v' => return .char '\x0b'
  | 'A' => return .anchor .textStart
  | 'z' => return .anchor .textEnd
  | 'b' => return .anchor (← wordAnchor)
  | 'B' => return .anchor .noWordBoundary
  | '<' => return .anchor .wordStart
  | '>' => return .anchor .wordEnd
  | c =>
    guard (c.toNat < 0x80 && !c.isAlphanum)
    return .char c

/-! ## Classes in brackets -/

/-- The operations on two classes, by their marks. -/
def operations : List (String × (Bool → Bool → Bool)) :=
  [("&&", fun a b => a && b), ("--", fun a b => a && !b), ("~~", fun a b => a != b)]

/-- The name of a class between a bracket and colons, after the opening bracket. -/
def asciiName? : List Char → Option ((Char → Bool) × List Char)
  | ':' :: cs =>
    let (negated, cs) := match cs with
      | '^' :: cs => (true, cs)
      | cs => (false, cs)
    let name := cs.takeWhile (· != ':')
    match cs.drop name.length with
    | ':' :: ']' :: rest =>
      (asciiClass? (String.ofList name)).map fun f => (fun c => f c != negated, rest)
    | _ => none
  | _ => none

def classItem : Read Item := do
  match ← next with
  | '\\' => escape
  | c => return .char c

def classRange : Read (Char → Bool) := do
  let first ← classItem
  skip
  let single : Read (Char → Bool) := match first with
    | .char c => return (· == c)
    | .set f => return f
    | .anchor _ => refuse
  match ← rest with
  | '-' :: after =>
    let after := if (← flags).spaced then skipSpaced false after else after
    match after with
    | [] => refuse
    | c :: _ =>
      if c == ']' || c == '-' then single
      else
        setRest after
        match first, ← classItem with
        | .char a, .char b =>
          guard (a ≤ b)
          return fun c => a ≤ c && c ≤ b
        | _, _ => refuse
  | _ => single

/-- What is read of a class so far: the operation that waits, with its left side, and the right
side. -/
structure ClassSoFar where
  pending : Option ((Char → Bool) × (Bool → Bool → Bool))
  items : Char → Bool

def ClassSoFar.add (s : ClassSoFar) (allows : Char → Bool) : ClassSoFar :=
  { s with items := fun c => s.items c || allows c }

/-- The class that has been read, with the waiting operation done. -/
def ClassSoFar.close (f : Flags) (s : ClassSoFar) : Char → Bool :=
  match s.pending with
  | none => s.items
  | some (left, op) => fun c => op (classUnder f left c) (classUnder f s.items c)

/-- The operation whose mark is next, if there is one. -/
def operation? : List (String × (Bool → Bool → Bool)) → Read (Option (Bool → Bool → Bool))
  | [] => return none
  | (mark, op) :: ops => do
    if ← eat mark then return some op else operation? ops

/-- The start of a class after its bracket: whether it is turned around, and the hyphens or the
bracket that stand for themselves there. -/
def classStart : Read (Bool × ClassSoFar) := do
  let negated ← eat "^"
  guard (!negated || (← flags).unicode)
  skip
  let cs ← rest
  if cs.head? == some '-' then
    setRest (cs.dropWhile (· == '-'))
    return (negated, ⟨none, (· == '-')⟩)
  else if ← eat "]" then return (negated, ⟨none, (· == ']')⟩)
  else return (negated, ⟨none, fun _ => false⟩)

/-- A class without its brackets. -/
def classOf (f : Flags) (negated : Bool) (items : Char → Bool) (c : Char) : Bool :=
  classUnder f items c != negated

def classItems : Nat → ClassSoFar → Read (Char → Bool)
  | 0, _ => refuse
  | n + 1, soFar => do
    skip
    match ← operation? operations with
    | some op => classItems n ⟨some (soFar.close (← flags), op), fun _ => false⟩
    | none =>
      match ← rest with
      | ']' :: cs =>
        setRest cs
        return soFar.close (← flags)
      | '[' :: cs =>
        match asciiName? cs with
        | some (allows, cs) =>
          setRest cs
          classItems n (soFar.add (classUnder (← flags) allows))
        | none =>
          setRest cs
          let (negated, start) ← classStart
          let inner ← classItems n start
          classItems n (soFar.add (classOf (← flags) negated inner))
      | _ => classItems n (soFar.add (← classRange))

def bracketed (fuel : Nat) : Read (Char → Bool) := do
  expect "["
  let (negated, start) ← classStart
  return classOf (← flags) negated (← classItems fuel start)

/-! ## Flags, repetitions and groups -/

/-- The same flags with one of them set. -/
def setFlag? (f : Flags) (name : Char) (value : Bool) : Option Flags :=
  match name with
  | 'i' => some { f with ignoreCase := value }
  | 'm' => some { f with multiLine := value }
  | 's' => some { f with dotAll := value }
  | 'R' => some { f with returns := value }
  | 'u' => some { f with unicode := value }
  | 'x' => some { f with spaced := value }
  | 'U' => some f
  | _ => none

/-- Flags from left to right, none twice; a hyphen clears those after it, of which there must be
one. -/
def flagsOf? (f : Flags) (cleared : Bool) (seen : List Char) : List Char → Option Flags
  | [] => some f
  | '-' :: cs => if cleared || cs.isEmpty then none else flagsOf? f true seen cs
  | c :: cs => do
    if seen.contains c then none
    else flagsOf? (← setFlag? f c (!cleared)) cleared (c :: seen) cs

/-- The limits of a repetition between braces: one number, or one or two numbers and a comma. -/
def limits? (cs : List Char) : Option (Nat × Option Nat) := do
  let number (cs : List Char) : Option Nat := do
    let ds := Text.trim cs
    if ds.isEmpty || !ds.all Char.isDigit then none
    else
      let n ← (String.ofList ds).toNat?
      if n < Nat.pow 2 32 then some n else none
  let first := cs.takeWhile (· != ',')
  match cs.drop first.length with
  | [] => do
    let n ← number first
    return (n, some n)
  | _ :: last =>
    let least ← number first
    if last.isEmpty then return (least, none)
    else
      let most ← number last
      if least ≤ most then some (least, some most) else none

/-- A repetition of what stands before it, if one follows. -/
def repetition? : Read (Option (Nat × Option Nat)) := do
  let limits ← match ← peek with
    | some '*' => discard next; pure (some (0, none))
    | some '+' => discard next; pure (some (1, none))
    | some '?' => discard next; pure (some (0, some 1))
    | some '\x7b' => do
      discard next
      let text ← upTo '\x7d'
      pure (some (← ofOption (limits? text)))
    | _ => pure none
  if limits.isSome then discard (eat "?")
  return limits

/-- Letters, digits and a few marks can name a group. -/
def isGroupName (cs : List Char) : Bool :=
  match cs with
  | [] => false
  | c :: cs =>
    (c == '_' || isAlphabetic c) && cs.all fun c =>
      c == '_' || c == '.' || c == '[' || c == ']' || isAlphabetic c || isNumber c

/-- What begins a group: nothing but a parenthesis, a name, or flags, which may belong to what
follows instead of to a group. -/
def groupStart : Read Bool := do
  if ← eat "?" then
    if (← rest).head? == some '=' || (← rest).head? == some '!' then refuse
    let named ← if ← eat "P<" then pure true else eat "<"
    if named then
      let name ← upTo '>'
      guard (isGroupName name && !(← get).names.contains (String.ofList name))
      modify fun s => { s with names := String.ofList name :: s.names }
      return true
    else
      let cs ← rest
      let written := cs.takeWhile fun c => c != ':' && c != ')'
      let f ← ofOption (flagsOf? (← flags) false [] written)
      setRest (cs.drop written.length)
      modify fun s => { s with flags := f }
      match ← next with
      | ':' => return true
      | _ =>
        guard (!written.isEmpty)
        return false
  else return true

/-- A character or anchor outside of brackets. -/
def single : Read Pattern := do
  let f ← flags
  match ← next with
  | '.' =>
    guard f.unicode
    if f.dotAll then return .char fun _ => true
    else if f.returns then return .char fun c => c != '\n' && c != '\r'
    else return .char (· != '\n')
  | '^' =>
    let a := if !f.multiLine then .textStart else if f.returns then .anyLineStart else .lineStart
    return .anchor a (isWord f.unicode)
  | '$' =>
    let a := if !f.multiLine then .textEnd else if f.returns then .anyLineEnd else .lineEnd
    return .anchor a (isWord f.unicode)
  | '\\' =>
    match ← escape with
    | .char c => return .char (classUnder f (· == c))
    | .set allows => return .char allows
    | .anchor a => return .anchor a (isWord f.unicode)
  | c => return .char (classUnder f (· == c))

mutual
/-- Alternatives, up to the end of the text or of the group. -/
def alternatives : Nat → Read Pattern
  | 0 => refuse
  | n + 1 => do
    let first ← sequence n none
    if ← eat "|" then return .either first (← alternatives n)
    else return first
/-- What stands one after another. What was read last may still be repeated. -/
def sequence : Nat → Option Pattern → Read Pattern
  | 0, _ => refuse
  | n + 1, last => do
    skip
    match ← repetition? with
    | some (least, most) =>
      let p ← ofOption last
      sequence n (some (.repeated least most p))
    | none =>
      let before := last.getD .nothing
      match ← peek with
      | none | some '|' | some ')' => return before
      | some '(' =>
        let p ← group n
        return .followed before (← sequence n p)
      | some '[' =>
        let allows ← bracketed n
        return .followed before (← sequence n (some (.char allows)))
      | _ =>
        let p ← single
        return .followed before (← sequence n (some p))
/-- A group; flags without a group are nothing that could be repeated. -/
def group : Nat → Read (Option Pattern)
  | 0 => refuse
  | n + 1 => do
    let outer ← flags
    expect "("
    if ← groupStart then
      let p ← alternatives n
      expect ")"
      modify fun s => { s with flags := outer }
      return some p
    else return none
end

end Routebook.Pattern

namespace Routebook

/-- The largest pattern that is accepted. -/
def Pattern.sizeLimit : Nat := 300000

/-- The pattern that a text writes down. Each step reads a character or ends a group, a class or
the text. -/
def Pattern.read? (text : String) : Option Pattern := do
  let fuel := 4 * text.length + 8
  let (p, s) ← (Pattern.alternatives fuel).run ⟨text.toList, {}, []⟩
  if s.rest.isEmpty && p.size ≤ sizeLimit then some p else none

/-- The engine that these patterns make. -/
@[reducible]
def Pattern.engine : PatternEngine where
  read? text := (Pattern.read? text).map Pattern.isIn

end Routebook
