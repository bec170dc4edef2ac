import Routebook.Source.Grammar.Expression

/-!
# Reading markup

An element in angle brackets keeps the expressions of its attributes and children. The text between
its tags is not made of tokens, so it is skipped character by character, and **the current token
after an element is its closing `>`**: what follows is text again when the element is a child of
another.
-/

namespace Routebook.Source.Parse

variable (self : Rules)

/-- Stand at a mark that is found at a cursor. -/
def standAt (m : String) (c : Cursor) : Parse Unit :=
  modify fun s => { s with lexeme := ⟨.mark m, c, c.advance 1, false⟩ }

/-- Skip text up to the next brace or tag. Closing marks cannot stand in text. -/
def skipMarkupText : List Char → Nat → Option Cursor
  | [], _ => none
  | c :: cs, p =>
    if c = '<' ∨ c = '\x7b' then some ⟨c :: cs, p⟩
    else if c = '>' ∨ c = '\x7d' then none
    else skipMarkupText cs (p + 1)

/-- A name in markup: a word that goes on, without a blank, with hyphens and whatever a word can
hold. -/
def markupWord : Parse String := do
  let more := match (← lexeme).after.rest with
    | '-' :: cs => '-' :: cs.takeWhile fun c => c == '-' || Unicode.continuesIdentifier c
    | _ => []
  match ← token with
  | .word w e =>
    reread (.word (w ++ String.ofList more) e) ((← lexeme).after.advance more.length)
    anyWord
  | _ => fail

/-- The name of an attribute: a name, or two joined by a colon. -/
def attributeName : Parse String := do
  let first ← markupWord
  if ← eat ":" then return first ++ ":" ++ (← markupWord) else return first

/-- The name of an element: that of an attribute, or a member of an object, which has no hyphen. -/
def tagName : Parse String := do
  let first ← attributeName
  if first.toList.contains ':' then return first
  else extend (fun n => do
    if ← eat "." then
      let property ← markupWord
      guard !(property.toList.contains '-')
      return some (n ++ "." ++ property)
    else return none) first

/-- The value of an attribute: a text in quotes, which knows no escapes, an expression in braces,
or an element. -/
def attributeValue : Parse (List Expr) := do
  guard (← isMark "=")
  let c := (← lexeme).after
  match skipGaps .blanks c.rest c.position false with
  | .ok (_, ⟨q :: cs, p⟩) =>
    if q = '"' ∨ q = '\'' then
      let used := (cs.takeWhile (· ≠ q)).length
      guard (used < cs.length)
      standAt "=" ⟨cs.drop used, p + 1 + used⟩
      bump
      return []
    else
      bump
      if ← eat openBrace then
        let e ← within Context.inBrackets self.assignment
        expect closeBrace
        return [e]
      else
        guard (← isMark "<")
        let e ← self.markup
        bump
        return [e]
  | _ => fail

def markupAttribute : Parse (List Expr) := do
  if ← eat openBrace then
    expect "..."
    let e ← within Context.inBrackets self.expression
    expect closeBrace
    return [e]
  else
    discard attributeName
    if ← isMark "=" then attributeValue self else return []

/-- The children of an element, from its opening tag's `>` to the `<` of its closing tag. -/
def markupChildren : Parse (List Expr) := do
  let children ← many do
    let c := (← lexeme).after
    match skipMarkupText c.rest c.position with
    | none => fail
    | some stop =>
      if stop.rest.head? == some '<' then
        standAt "<" stop
        if ← next (isMark "/") then return none
        return some [← self.markup]
      else
        standAt openBrace stop
        bump
        if ← isMark closeBrace then return some []
        discard (eat "...")
        let e ← within Context.inBrackets self.assignment
        guard (← isMark closeBrace)
        return some [e]
  return children.flatten

/-- A closing tag of the given name, up to its `>`. -/
def closingTag (opened : String) : Parse Unit := do
  expect "<"
  expect "/"
  let closed ← if ← isMark ">" then pure "" else tagName
  guard (opened == closed && (← isMark ">"))

def markupRule : Parse Expr := do
  expect "<"
  if ← isMark ">" then
    let children ← markupChildren self
    closingTag ""
    return .other children
  else
    let opened ← tagName
    let arguments ← if ← atAngle then partsIn (typeArguments self) else pure []
    let attributes ← many do
      if ← isAnyMark ["/", ">"] then return none
      return some (← markupAttribute self)
    let parts := arguments ++ attributes.flatten
    if ← eat "/" then
      guard (← isMark ">")
      return .other parts
    else
      let children ← markupChildren self
      closingTag opened
      return .other (parts ++ children)

end Routebook.Source.Parse
