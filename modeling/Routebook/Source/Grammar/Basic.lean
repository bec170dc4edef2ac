import Routebook.Source.Token
import Routebook.Source.Tree

/-!
# Reading by grammar: the common part

A `Parse` reads from the current token on and either returns a tree or the position where the file
stops following the grammar. Nothing is recovered: **one error makes a file unusable.**

The rules of the language call each other in circles. They are written one by one over a `Rules`,
which answers for every `Goal` that some rule needs before it is defined, and the circle is closed
in one place, where a rule that is called inside another has less fuel than it. Each rule is
therefore a plain definition.
-/

namespace Routebook.Source

/-- Which language a file is written in. -/
structure Dialect where
  typescript : Bool
  markup : Bool
  definition : Bool
  deriving Repr, DecidableEq, Inhabited

/-- What the surroundings of an expression or a type allow. -/
structure Context where
  inOperator : Bool := true
  await : Bool := false
  yield : Bool := false
  returns : Bool := false
  ambient : Bool := false
  conditionalTypes : Bool := true
  arrowReturnTypes : Bool := true
  /-- What stands here decorates something; a bracket after it belongs to what is decorated. -/
  decorates : Bool := false
  deriving Inhabited

structure State where
  lexeme : Lexeme
  /-- Where the token before the current one ends. -/
  lastEnd : Nat
  context : Context
  dialect : Dialect
  isModule : Bool
  /-- How many properties so far can only stand in a pattern, and have not turned out to. -/
  patterns : Nat := 0
  /-- Expressions in the types that are being read, the last first. -/
  typeParts : List Expr := []
  /-- Where a parenthesis is known to begin no arrow function. -/
  notArrows : List Nat := []
  deriving Inhabited

/-- Go back to an earlier state. What was found out about the text since then stays known. -/
def State.backTo (start now : State) : State := { start with notArrows := now.notArrows }

abbrev Parse := EStateM SyntaxError State

/-- A name or pattern that a declaration or parameter binds, with the expressions in it. -/
structure Binding where
  name : Option String
  parts : List Expr

/-- A type that has been read. A question mark that ends it is part of it, except in a tuple, where
it belongs to the element; so the type before the mark is kept as well. -/
structure ReadType where
  type : TypeExpr Unit
  beforeMark : Option (TypeExpr Unit) := none
  isArray : Bool := false
  isTuple : Bool := false

/-- How a value can be assigned to an expression. -/
inductive Target where
  | forbidden
  /-- A variable, or a member or element of an object. -/
  | place
  /-- An array or object literal that is a pattern, with the number of defaults that its properties
  have in short form. -/
  | pattern (defaults : Nat)
  /-- An assignment, which in a pattern is a place with a default. -/
  | withDefault

/-- A literal is a pattern if each of its items can be assigned to. -/
def Target.ofItems : List Target → Target
  | [] => .pattern 0
  | t :: ts =>
    match t, ofItems ts with
    | .place, .pattern n | .withDefault, .pattern n => .pattern n
    | .pattern m, .pattern n => .pattern (m + n)
    | _, _ => .forbidden

structure ReadExpr where
  expr : Expr
  target : Target := .forbidden

namespace ReadExpr

/-- An expression that nothing can be assigned to. -/
def value (e : Expr) : ReadExpr := { expr := e }

/-- A variable, or a member or element of an object. -/
def place (e : Expr) : ReadExpr := { expr := e, target := .place }

/-- Parentheses, casts and assertions make no pattern of what they hold, but leave a place one. -/
def wrapped (e : ReadExpr) (before after : List Expr := []) : ReadExpr :=
  { expr := .wrapped before e.expr after
    target := if e.target matches .place then .place else .forbidden }

end ReadExpr

/-- What some rule needs of a rule defined after it. -/
inductive Goal : Type → Type where
  | type : Goal ReadType
  | expression : Goal ReadExpr
  | assignment : Goal ReadExpr
  | binary (level : Nat) : Goal ReadExpr
  | unary : Goal ReadExpr
  | leftHand (calls : Bool) : Goal ReadExpr
  | binding : Goal Binding
  | statement : Goal Statement
  | markup : Goal Expr

abbrev Rules := (α : Type) → Goal α → Parse α

namespace Rules

variable (self : Rules)

def type : Parse (TypeExpr Unit) := return (← self _ .type).type
def expression : Parse Expr := return (← self _ .expression).expr
def assignment : Parse Expr := return (← self _ .assignment).expr
def binary (level : Nat) : Parse Expr := return (← self _ (.binary level)).expr
def unary : Parse Expr := return (← self _ .unary).expr
def leftHand (calls : Bool) : Parse Expr := return (← self _ (.leftHand calls)).expr
def binding : Parse Binding := self _ .binding
def statement : Parse Statement := self _ .statement
def markup : Parse Expr := self _ .markup

end Rules

namespace Parse

/-! ## Tokens -/

def fail {α : Type} : Parse α := do throw ⟨(← get).lexeme.start.position⟩

def guard (condition : Bool) : Parse Unit := if condition then pure () else fail

def lexeme : Parse Lexeme := return (← get).lexeme
def token : Parse Token := return (← get).lexeme.token
def context : Parse Context := return (← get).context
def dialect : Parse Dialect := return (← get).dialect

def afterLine : Parse Bool := return (← get).lexeme.afterLine

def bump : Parse Unit := do
  let s ← get
  match Lexeme.read s.lexeme.after with
  | .ok next => set { s with lexeme := next, lastEnd := s.lexeme.after.position }
  | .error e => throw e

/-- Replace the current token by one read again from where it stands. -/
def reread (t : Token) (after : Cursor) : Parse Unit :=
  modify fun s => { s with lexeme := { s.lexeme with token := t, after := after } }

def isMark (m : String) : Parse Bool := return (← token) == .mark m

def isWord (w : String) : Parse Bool := return (← token) == .word w false

def isAnyMark (ms : List String) : Parse Bool := do
  let t ← token
  return ms.any fun m => t == .mark m

def isAnyWord (ws : List String) : Parse Bool := do
  let t ← token
  return ws.any fun w => t == .word w false

def eatIf (condition : Parse Bool) : Parse Bool := do
  if ← condition then bump; return true
  else return false

def eat (m : String) : Parse Bool := eatIf (isMark m)
def eatWord (w : String) : Parse Bool := eatIf (isWord w)
def expect (m : String) : Parse Unit := do guard (← eat m)
def expectWord (w : String) : Parse Unit := do guard (← eatWord w)

/-- The braces, as marks. -/
def openBrace : String := "\x7b"
def closeBrace : String := "\x7d"

/-- A statement ends at a semicolon, before a closing brace, at the end of a line or of the
file. -/
def semicolon : Parse Unit := do
  if ← eat ";" then return
  else guard ((← afterLine) || (← isMark closeBrace) || (← token) == .endOfFile)

/-- The source text from a place to the end of the last token read. -/
def textFrom (start : Cursor) : Parse String := do
  let stop := (← get).lastEnd
  return String.ofList (start.rest.take (stop - start.position))

def here : Parse Cursor := return (← get).lexeme.start

/-! ## Looking ahead, contexts and repetition -/

/-- Go back to where an earlier state stood. -/
def rewind (start : State) : Parse Unit := modify fun now => start.backTo now

/-- Ask a question about the tokens ahead without reading them. A question that cannot be read is
answered no. -/
def ahead (p : Parse Bool) : Parse Bool := fun s =>
  match p s with
  | .ok b s' => .ok b (s.backTo s')
  | .error _ s' => .ok false (s.backTo s')

def attempt {α : Type} (p : Parse α) : Parse (Option α) := fun s =>
  match p s with
  | .ok a s' => .ok (some a) s'
  | .error _ s' => .ok none (s.backTo s')

/-- Read in a changed context, and go back to the old one. -/
def within {α : Type} (f : Context → Context) (p : Parse α) : Parse α := do
  let old := (← get).context
  modify fun s => { s with context := f s.context }
  let a ← p
  modify fun s => { s with context := old }
  return a

/-- Keep expressions of a type for whoever reads the type. -/
def keepParts (parts : List Expr) : Parse Unit :=
  modify fun s => { s with typeParts := parts.reverse ++ s.typeParts }

/-- Read types, and the expressions in them as well. -/
def withParts {α : Type} (p : Parse α) : Parse (α × List Expr) := do
  let outer := (← get).typeParts
  modify fun s => { s with typeParts := [] }
  let a ← p
  let parts := (← get).typeParts.reverse
  modify fun s => { s with typeParts := outer }
  return (a, parts)

/-- Read types for the expressions in them alone. -/
def partsIn {α : Type} (p : Parse α) : Parse (List Expr) := return (← withParts p).2

/-- A bound on the number of tokens ahead. -/
def tokensAhead : Parse Nat := return (← get).lexeme.start.rest.length + 2

def repeatUpTo {α : Type} (item : Parse (Option α)) : Nat → Parse (List α)
  | 0 => fail
  | n + 1 => do
    match ← item with
    | none => return []
    | some a => return a :: (← repeatUpTo item n)

/-- Items until there is none. Each reads at least one token. -/
def many {α : Type} (item : Parse (Option α)) : Parse (List α) := do
  repeatUpTo item (← tokensAhead)

def extendUpTo {α : Type} (step : α → Parse (Option α)) : Nat → α → Parse α
  | 0, _ => fail
  | n + 1, a => do
    match ← step a with
    | none => return a
    | some b => extendUpTo step n b

/-- Extend what has been read for as long as it goes on. -/
def extend {α : Type} (step : α → Parse (Option α)) (a : α) : Parse α := do
  extendUpTo step (← tokensAhead) a

/-- Items between commas up to a closing mark, which is read too. A comma may follow the last. -/
def commaList {α : Type} (close : String) (item : Parse α) : Parse (List α) := do
  let items ← many do
    if ← isMark close then return none
    let a ← item
    unless ← isMark close do expect ","
    return some a
  expect close
  return items

/-- At least one item, with a separator between them. -/
def separated {α : Type} (separator : String) (item : Parse α) : Parse (List α) := do
  let first ← item
  let rest ← many do
    if ← eat separator then return some (← item) else return none
  return first :: rest

end Parse

end Routebook.Source
