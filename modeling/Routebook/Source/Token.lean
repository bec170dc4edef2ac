import Routebook.Source.Escape
import Routebook.Unicode.Identifier

/-!
# Tokens of the source language

`Lexeme.read` reads one token, after blanks and comments. Three characters mean different things in
different places, and the reader of the grammar decides which: a `/` may begin a regular expression
(`readRegex`), a closing brace may continue a template (`readTemplate`), and `>` is always read
alone, to be joined with what follows where an operator can stand (`joinGreater`).
-/

namespace Routebook.Source

open Text

inductive Token where
  | endOfFile
  | word (text : String) (escaped : Bool)
  | privateName (text : String)
  | mark (text : String)
  | string (value : String)
  | number (value : Number)
  | bigint (digits : String)
  | template (cooked : Option String) (last : Bool)
  | regex (text : String)
  deriving Repr, DecidableEq, Inhabited

/-! ## Strings and templates -/

/-- The units of a string up to its closing quote. The fuel is the length of the text. -/
def stringUnits (quote : Char) : Nat → List Char → Nat → List TextUnit →
    Except SyntaxError (List TextUnit × Cursor)
  | 0, _, p, _ => .error ⟨p⟩
  | _, [], p, _ => .error ⟨p⟩
  | fuel + 1, c :: cs, p, found =>
    if c = quote then .ok (found.reverse, ⟨cs, p + 1⟩)
    else if c = '\\' then
      match escape? true cs with
      | none => .error ⟨p⟩
      | some (u, used) =>
        stringUnits quote fuel (cs.drop used) (p + 1 + used) (u.elim found (· :: found))
    else if c = '\n' ∨ c = '\r' then .error ⟨p⟩
    else stringUnits quote fuel cs (p + 1) (.char c :: found)

def readString (quote : Char) (c : Cursor) : Except SyntaxError (Token × Cursor) := do
  let (units, after) ← stringUnits quote (c.rest.length + 1) c.rest c.position []
  return (.string (textOfUnits units), after)

/-- The units of a template up to the next substitution or the end, and whether that is the end. A
malformed escape leaves the text unknown, which only a tag function may ask for. -/
def templateUnits : Nat → List Char → Nat → Option (List TextUnit) →
    Except SyntaxError ((Option (List TextUnit) × Bool) × Cursor)
  | 0, _, p, _ => .error ⟨p⟩
  | _, [], p, _ => .error ⟨p⟩
  | _, '\x60' :: cs, p, found => .ok ((found.map List.reverse, true), ⟨cs, p + 1⟩)
  | _, '$' :: '\x7b' :: cs, p, found => .ok ((found.map List.reverse, false), ⟨cs, p + 2⟩)
  | fuel + 1, '\r' :: '\n' :: cs, p, found =>
    templateUnits fuel cs (p + 2) (found.map (.char '\n' :: ·))
  | fuel + 1, '\r' :: cs, p, found => templateUnits fuel cs (p + 1) (found.map (.char '\n' :: ·))
  | fuel + 1, '\\' :: cs, p, found =>
    match escape? false cs with
    | none => templateUnits fuel (cs.drop 1) (p + 2) none
    | some (u, used) =>
      templateUnits fuel (cs.drop used) (p + 1 + used)
        (found.map fun f => u.elim f (· :: f))
  | fuel + 1, c :: cs, p, found => templateUnits fuel cs (p + 1) (found.map (.char c :: ·))

/-- A piece of a template, from just after the mark that opens it. -/
def readTemplate (c : Cursor) : Except SyntaxError (Token × Cursor) := do
  let ((units, last), after) ← templateUnits (c.rest.length + 1) c.rest c.position (some [])
  return (.template (units.map textOfUnits) last, after)

/-! ## Numbers -/

/-- Digits with single underscores between them. Returns the digits and how much was read. -/
def digitRun? (isDigit : Char → Bool) (cs : List Char) : Option (List Char × Nat) :=
  let run := cs.takeWhile fun c => isDigit c || c == '_'
  let doubled := (run.zip (run.drop 1)).any fun (a, b) => a == '_' && b == '_'
  if run.head? == some '_' || run.getLast? == some '_' || doubled then none
  else some (run.filter (· != '_'), run.length)

/-- Digits in a base, after the letter that names the base. -/
def readBased (base : Nat) (isDigit : Char → Bool) (c : Cursor) :
    Except SyntaxError (Token × Cursor) :=
  match digitRun? isDigit c.rest with
  | none | some ([], _) => c.fail
  | some (digits, used) =>
    let value := digits.foldl (fun n d => base * n + (hexValue? d).getD 0) 0
    let after := c.advance used
    match after.rest with
    | 'n' :: _ => .ok (.bigint (String.ofList (Nat.toDigits 10 value)), after.advance 1)
    | _ => .ok (.number (Number.ofNat value), after)

/-- An exponent, or nothing where none stands. -/
def exponent? (cs : List Char) : Option (Int × Nat) :=
  match cs with
  | e :: rest =>
    if e = 'e' ∨ e = 'E' then
      let (negative, signLength) := match rest with
        | '-' :: _ => (true, 1)
        | '+' :: _ => (false, 1)
        | _ => (false, 0)
      match digitRun? Char.isDigit (rest.drop signLength) with
      | none | some ([], _) => none
      | some (ds, used) =>
        let n : Int := Number.ofDigits ds
        some (if negative then -n else n, used + signLength + 1)
    else some (0, 0)
  | [] => some (0, 0)

def readFraction (c : Cursor) (whole : List Char) : Except SyntaxError (Token × Cursor) :=
  let (fraction, afterPoint) : Option (List Char) × Cursor := match c.rest with
    | '.' :: cs =>
      match digitRun? Char.isDigit cs with
      | none => (none, c)
      | some (ds, used) => (some ds, c.advance (used + 1))
    | _ => (some [], c)
  match fraction, exponent? afterPoint.rest with
  | some fraction, some (power, used) =>
    .ok (.number (Number.ofDecimal false (Number.ofDigits (whole ++ fraction))
      (power - fraction.length)), afterPoint.advance used)
  | _, _ => c.fail

def readDecimal (c : Cursor) : Except SyntaxError (Token × Cursor) :=
  match digitRun? Char.isDigit c.rest with
  | none => c.fail
  | some (whole, used) =>
    let after := c.advance used
    match whole, after.rest with
    | _ :: _, 'n' :: _ => .ok (.bigint (String.ofList whole), after.advance 1)
    | _, _ => readFraction after whole

/-- A number whose leading zero makes it octal, if its digits allow it. No underscores stand between
these digits. -/
def readZeroLed (c : Cursor) : Except SyntaxError (Token × Cursor) :=
  let whole := c.rest.takeWhile Char.isDigit
  let after := c.advance whole.length
  if whole.all isOctalDigit then
    .ok (.number (.ofNat (whole.foldl (fun n d => 8 * n + Number.digitValue d) 0)), after)
  else readFraction after whole

/-- A number ends where no identifier and no digit goes on. -/
def readNumber (c : Cursor) : Except SyntaxError (Token × Cursor) := do
  let (token, after) ← match c.rest with
    | '0' :: x :: _ =>
      if x = 'x' ∨ x = 'X' then readBased 16 (fun d => (hexValue? d).isSome) (c.advance 2)
      else if x = 'o' ∨ x = 'O' then readBased 8 isOctalDigit (c.advance 2)
      else if x = 'b' ∨ x = 'B' then readBased 2 (fun d => d == '0' || d == '1') (c.advance 2)
      else if x.isDigit then readZeroLed c
      else if x = '_' then c.fail
      else readDecimal c
    | _ => readDecimal c
  if after.rest.head?.any fun d => Unicode.continuesIdentifier d || d == '\\' then after.fail
  else return (token, after)

/-! ## Words, marks and regular expressions -/

/-- The characters of an identifier, with the escapes in it decoded. -/
def identifierChars : Nat → List Char → Nat → Bool → List Char → Bool →
    Except SyntaxError ((List Char × Bool) × Cursor)
  | 0, cs, p, _, found, escaped => .ok ((found.reverse, escaped), ⟨cs, p⟩)
  | fuel + 1, cs, p, first, found, escaped =>
    let fits (c : Char) := if first then Unicode.startsIdentifier c
      else Unicode.continuesIdentifier c
    match cs with
    | '\\' :: 'u' :: rest =>
      match unicodeEscape? rest with
      | some (n, used) =>
        let c := Char.ofNat n
        if fits c then
          identifierChars fuel (rest.drop used) (p + 2 + used) false (c :: found) true
        else .error ⟨p⟩
      | none => .error ⟨p⟩
    | '\\' :: _ => .error ⟨p⟩
    | c :: rest =>
      if fits c then identifierChars fuel rest (p + 1) false (c :: found) escaped
      else .ok ((found.reverse, escaped), ⟨cs, p⟩)
    | [] => .ok ((found.reverse, escaped), ⟨cs, p⟩)

def readIdentifier (c : Cursor) : Except SyntaxError ((String × Bool) × Cursor) := do
  let ((chars, escaped), after) ←
    identifierChars (c.rest.length + 1) c.rest c.position true [] false
  if chars = [] then c.fail else return ((String.ofList chars, escaped), after)

/-- Marks of more than one character, the longest first. `>` begins none of them. -/
def longMarks : List String :=
  ["...", "===", "!==", "**=", "<<=", "&&=", "||=", "??=",
   "=>", "==", "!=", "<=", "++", "--", "<<", "&&", "||", "??", "?.", "+=", "-=", "*=", "/=", "%=",
   "&=", "|=", "^=", "**"]

def shortMarks : List Char := "\x7b\x7d()[];,<>+-*/%&|^!~?:=@.".toList

def startsWith (cs : List Char) (s : String) : Bool := s.toList.isPrefixOf cs

/-- A mark. `?.` before a digit is a question mark and a fraction. -/
def readMark (c : Cursor) : Except SyntaxError (Token × Cursor) :=
  let long := longMarks.find? fun m =>
    startsWith c.rest m && !(m == "?." && (c.rest.drop 2).head?.any Char.isDigit)
  match long, c.rest with
  | some m, _ => .ok (.mark m, c.advance m.length)
  | none, x :: _ =>
    if shortMarks.contains x then .ok (.mark x.toString, c.advance 1) else c.fail
  | none, [] => .ok (.endOfFile, c)

/-- Operators that begin with `>`, the longest first. -/
def greaterMarks : List String := [">>>=", ">>>", ">>=", ">>", ">=", ">"]

/-- The longest operator at a `>`. -/
def joinGreater (c : Cursor) : Token × Cursor :=
  match greaterMarks.find? (startsWith c.rest) with
  | some m => (.mark m, c.advance m.length)
  | none => (.mark ">", c.advance 1)

/-- The body of a regular expression after its opening slash: the number of characters up to the
closing one. A slash inside a class does not close. -/
def regexLength : Bool → List Char → Option Nat
  | _, [] => none
  | inClass, '\\' :: c :: cs => if isLineEnd c then none else (regexLength inClass cs).map (· + 2)
  | inClass, c :: cs =>
    if isLineEnd c then none
    else if c = '/' ∧ !inClass then some 0
    else (regexLength (if c = '[' then true else if c = ']' then false else inClass) cs).map (· + 1)

def regexFlags : List Char := "dgimsuvy".toList

/-- A regular expression from its opening slash, with its flags, each at most once, and at most one
of the two kinds of Unicode mode. -/
def readRegex (c : Cursor) : Except SyntaxError (Token × Cursor) :=
  match regexLength false (c.rest.drop 1) with
  | none => c.fail
  | some n =>
    let close := c.advance (n + 2)
    let flags := close.rest.takeWhile Unicode.continuesIdentifier
    let known := flags.all regexFlags.contains && flags.eraseDups.length == flags.length
    if known && !(flags.contains 'u' && flags.contains 'v') then
      let used := n + 2 + flags.length
      .ok (.regex (String.ofList (c.rest.take used)), c.advance used)
    else c.fail

def readToken (c : Cursor) : Except SyntaxError (Token × Cursor) :=
  match c.rest with
  | [] => .ok (.endOfFile, c)
  | '"' :: _ => readString '"' (c.advance 1)
  | '\'' :: _ => readString '\'' (c.advance 1)
  | '\x60' :: _ => readTemplate (c.advance 1)
  | '#' :: _ => (readIdentifier (c.advance 1)).map fun ((name, _), after) =>
    (.privateName name, after)
  | '.' :: d :: _ => if d.isDigit then readNumber c else readMark c
  | x :: _ =>
    if x.isDigit then readNumber c
    else if x = '\\' || Unicode.startsIdentifier x then
      (readIdentifier c).map fun ((name, escaped), after) => (.word name escaped, after)
    else readMark c

structure Lexeme where
  token : Token
  start : Cursor
  after : Cursor
  afterLine : Bool
  deriving Inhabited

def Lexeme.read (c : Cursor) : Except SyntaxError Lexeme := do
  let (line, start) ← skipGaps .blanks c.rest c.position false
  let (token, after) ← readToken start
  return ⟨token, start, after, line⟩

end Routebook.Source
