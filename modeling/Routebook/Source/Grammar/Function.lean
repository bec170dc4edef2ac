import Routebook.Source.Grammar.Type

/-!
# Reading patterns and functions

A function keeps the expressions of its parameters and of its body, in order. Whether `await`,
`yield` and `return` mean anything inside it depends on the function alone, not on what surrounds
it.
-/

namespace Routebook.Source.Parse

variable (self : Rules)

/-! ## Patterns -/

def arrayPatternElement : Parse (List Expr) := do
  if ← isMark "," then return []
  else if ← eat "..." then
    let b ← self.binding
    lastBefore "]"
    return b.parts
  else return (← self.binding).parts ++ (← initializer? self)

def objectPatternProperty : Parse (List Expr) := do
  if ← eat "..." then
    discard name
    lastBefore closeBrace
    return []
  else
    let short ← atName
    let key ← propertyKey self
    if ← eat ":" then
      let b ← self.binding
      return key.computed ++ b.parts ++ (← initializer? self)
    else
      guard short
      initializer? self

def bindingRule : Parse Binding := do
  match ← token with
  | .mark "[" =>
    bump
    return ⟨none, (← commaList "]" (arrayPatternElement self)).flatten⟩
  | .mark "\x7b" =>
    bump
    return ⟨none, (← commaList closeBrace (objectPatternProperty self)).flatten⟩
  | _ => return ⟨some (← name), []⟩

/-! ## Bodies -/

/-- Statements in braces, as the expressions they hold. -/
def block : Parse (List Expr) := do
  expect openBrace
  let parts ← many do
    if ← isMark closeBrace then return none
    return some (← self.statement).parts
  expect closeBrace
  return parts.flatten

/-- The surroundings inside a function. -/
def Context.inFunction (async generator : Bool) (c : Context) : Context :=
  { c with
    inOperator := true, await := async, yield := generator, returns := true
    arrowReturnTypes := true, decorates := false }

/-- Whether a function has a body in the place where it stands. -/
inductive BodyNeed where
  | required | possible | forbidden
  deriving DecidableEq

/-- The body of a function. A semicolon can stand for a body that is not required. -/
def bodyTail (need : BodyNeed) : Parse (List Expr) := do
  if ← isMark openBrace then
    guard (need != .forbidden)
    block self
  else
    guard (need != .required && (← dialect).typescript)
    semicolon
    return []

/-- A function from its type parameters on. -/
def functionTail (async generator : Bool) (need : BodyNeed) : Parse (List Expr) :=
  within (Context.inFunction async generator) do
    return (← signature self).parts ++ (← bodyTail self need)

/-- A function that stands for a property, from its type parameters on. To read the property it
takes nothing, and to write it one value. -/
def accessorTail (reads : Bool) (need : BodyNeed) : Parse (List Expr) :=
  within (Context.inFunction false false) do
    let s ← signature self
    guard (match s.parameters with
      | [] => reads
      | [p] => !reads && !p.isRest && !p.hasDefault
      | _ => false)
    return s.parts ++ (← bodyTail self need)

/-! ## Arrow functions -/

/-- Whether an arrow function can begin at the parenthesis or angle bracket ahead. -/
def canOpenArrow : Parse Bool := ahead do
  if ← eat "(" then
    if ← eat ")" then isAnyMark ["=>", ":", openBrace]
    else if ← isAnyMark ["...", "[", openBrace] then return true
    else if (← isAnyWord parameterModifiers) && (← next atName) then return true
    else if (← atName) || (← isWord "this") then
      bump
      if ← eat "?" then isAnyMark [":", ",", "=", ")"]
      else isAnyMark [":", ",", "=", ")"]
    else isMark "@"
  else
    expect "<"
    guard ((← atName) || (← isWord "const"))
    let const ← eatWord "const"
    if (← dialect).markup then
      bump
      if ← eatWord "extends" then return !(← isAnyMark ["=", ">", "/"])
      else return const || (← isAnyMark [",", "="])
    else return true

/-- An arrow function's parameters and arrow; tells whether it has a result type. An arrow function
takes `this` from outside. -/
def arrowHead : Parse (List Expr × Bool) := do
  let before ← partsIn (typeParameters? self)
  guard !(← next (isWord "this"))
  let ps ← parameters self false
  let typed ← isMark ":"
  let after ← partsIn (resultTypeMark? self)
  guard (!(← afterLine))
  expect "=>"
  return (before ++ ps.parts ++ after, typed)

/-- The body of an arrow function. Whether `in` is an operator depends on what surrounds it, also in
statements. -/
def arrowBody (async : Bool) : Parse (List Expr) := do
  if ← isMark openBrace then
    within (fun c => { Context.inFunction async false c with inOperator := c.inOperator })
      (block self)
  else
    let e ← within (fun c => { c with await := async, yield := false }) self.assignment
    return [e]

/-- An arrow function with parentheses up to its body, with the body as well where only that can
tell: in the middle of a conditional a colon may belong to the conditional instead. -/
def arrowAttempt (async : Bool) : Parse (List Expr × Option (List Expr)) := do
  let (ps, typed) ← within (fun c => { c with await := async }) (arrowHead self)
  if typed && !(← context).arrowReturnTypes then
    let body ← arrowBody self async
    guard (← isMark ":")
    return (ps, some body)
  else return (ps, none)

/-- An arrow function with parentheses, if one begins here. **A place where none begins is
remembered**, for a text is read once more for each parenthesis around it. -/
def parenthesizedArrow? (async : Bool) : Parse (Option Expr) := do
  unless ← canOpenArrow do return none
  let place := (← here).position
  if (← get).notArrows.contains place then return none
  match ← attempt (arrowAttempt self async) with
  | none =>
    modify fun s => { s with notArrows := place :: s.notArrows }
    return none
  | some (ps, some body) => return some (.other (ps ++ body))
  | some (ps, none) => return some (.other (ps ++ (← arrowBody self async)))

def arrowFunction? : Parse (Option Expr) := do
  let arrowNext := nextOnLine (isMark "=>")
  if ← isWord "async" then
    if ← nextOnLine (return (← atName) && (← nextOnLine (isMark "=>"))) then
      bump
      discard (within (fun c => { c with await := true }) name)
      bump
      return some (.other (← arrowBody self true))
    if ← nextOnLine (isAnyMark ["(", "<"]) then
      let start ← get
      bump
      match ← parenthesizedArrow? self true with
      | some e => return some e
      | none => rewind start
  if (← atName) && (← arrowNext) then
    bump
    bump
    return some (.other (← arrowBody self false))
  else if ← isAnyMark ["(", "<"] then parenthesizedArrow? self false
  else return none

end Routebook.Source.Parse
