import Routebook.Source.Grammar.Class

/-!
# Reading expressions

Operators bind by level, from `??` up to `**`; casts bind like comparisons. A chain of
accesses and calls is read from the left, and **a chain with a `?.` in it is one unit**: what it
holds is found by looking for calls, but it is no call itself.
-/

namespace Routebook.Source.Parse

variable (self : Rules)

/-! ## Object and array literals -/

/-- How something that gathers the rest can be assigned to: as the last item, and without a
default. -/
def restTarget (close : String) (e : ReadExpr) : Parse Target := do
  let last ← isMark close
  return match e.target with
    | .withDefault => .forbidden
    | t => if last then t else .forbidden

def literalProperty : Parse (Property Expr × Target) := do
  let function (key : Key) (parts : Parse (List Expr)) : Parse (Property Expr × Target) := do
    return (⟨key.name, key.computed, .other (← parts)⟩, .forbidden)
  let method (key : Key) (async generator : Bool) : Parse (Property Expr × Target) :=
    function key (functionTail self async generator .required)
  if ← eat "..." then
    let e ← self _ .assignment
    let target ← restTarget closeBrace e
    return (⟨none, [], e.expr⟩, if target matches .place then .place else .forbidden)
  if (← isAnyWord ["get", "set"]) && (← next atKey) then
    let reads ← isWord "get"
    bump
    function (← propertyKey self) (accessorTail self reads .required)
  else if (← isWord "async") && (← nextOnLine (return (← atKey) || (← isMark "*"))) then
    bump
    let generator ← eat "*"
    method (← propertyKey self) true generator
  else if ← eat "*" then method (← propertyKey self) false true
  else
    let short ← atName
    let word ← token
    let key ← propertyKey self
    if (← isMark "(") || (← atAngle) then method key false false
    else if ← eat ":" then
      let e ← self _ .assignment
      return (⟨key.name, key.computed, e.expr⟩, e.target)
    else
      guard short
      let e : Expr := match word with
        | .word w _ => .name w
        | _ => .other []
      match ← initializer? self with
      | [] => return (⟨key.name, [], e⟩, .place)
      | parts =>
        modify fun s => { s with patterns := s.patterns + 1 }
        return (⟨key.name, [], .other (e :: parts)⟩, .pattern 1)

def objectLiteral : Parse ReadExpr := do
  expect openBrace
  let ps ← within Context.inBrackets (commaList closeBrace (literalProperty self))
  return { expr := .object (ps.map Prod.fst), target := .ofItems (ps.map Prod.snd) }

/-- An element of an array literal; between two commas there can be none. -/
def arrayElement : Parse (Option ReadExpr) := do
  if ← isMark "," then return none
  else if ← eat "..." then
    let e ← self _ .assignment
    return some { expr := .other [e.expr], target := ← restTarget "]" e }
  else return some (← self _ .assignment)

def arrayLiteral : Parse ReadExpr := do
  expect "["
  let es ← within Context.inBrackets (commaList "]" (arrayElement self))
  let es := es.filterMap id
  return { expr := .array (es.map (·.expr)), target := .ofItems (es.map (·.target)) }

/-! ## Calls -/

def argument : Parse (Argument Expr) := do
  let start ← here
  if ← eat "..." then return ⟨start.position, true, ← self.assignment⟩
  else return ⟨start.position, false, ← self.assignment⟩

def arguments : Parse (List (Argument Expr)) := do
  expect "("
  within Context.inBrackets (commaList ")" (argument self))

def substitution : Parse (String × Expr) := do
  let start ← here
  let e ← within Context.inBrackets self.expression
  return (← textFrom start, e)

/-- Words that begin an expression although they name nothing. -/
def expressionWords : List String :=
  ["this", "super", "null", "true", "false", "function", "class", "new", "delete", "void",
   "typeof", "import"]

def expressionMarks : List String :=
  ["(", "[", "\x7b", "+", "-", "~", "!", "++", "--", "<", "@", "/", "/="]

/-- Whether an expression can begin at the current token. -/
def startsExpression : Parse Bool := do
  match ← token with
  | .endOfFile => return false
  | .mark m => return expressionMarks.contains m
  | .word w _ => return expressionWords.contains w || (← atName) || w == "await" || w == "yield"
  | _ => return true

/-- How tightly an operator between two expressions binds. -/
def operatorLevel : String → Nat
  | "??" => 1
  | "||" => 2
  | "&&" => 3
  | "|" => 4
  | "^" => 5
  | "&" => 6
  | "==" | "!=" | "===" | "!==" => 7
  | "<" | ">" | "<=" | ">=" => 8
  | "<<" | ">>" | ">>>" => 9
  | "+" | "-" => 10
  | "*" | "/" | "%" => 11
  | "**" => 12
  | _ => 0

def comparisonLevel : Nat := operatorLevel "<"

/-- Operators that do not mix with `??` without parentheses. -/
def connectives : List String := ["||", "&&"]

/-- Whether type arguments can end before the current token, so that the angle brackets were not
comparisons. -/
def endsTypeArguments : Parse Bool := do
  match ← token with
  | .mark "(" | .template _ _ => return true
  | .mark "<" | .mark ">" | .mark "+" | .mark "-" => return false
  | .word "in" _ => return (← afterLine) || !(← context).inOperator
  | t =>
    let isOperator := match t with
      | .mark m => operatorLevel m > 0
      | .word w _ => ["instanceof", "as", "satisfies"].contains w
      | _ => false
    return (← afterLine) || isOperator || !(← startsExpression)

/-- Type arguments in an expression, if they are not comparisons, with what they compute. `>=` closes
none. -/
def expressionTypeArguments? : Parse (Option (List Expr)) := do
  unless (← dialect).typescript && (← atAngle) do return none
  attempt do
    let parts ← partsIn (typeArguments self)
    let s ← get
    guard !(s.lexeme.start.position == s.lastEnd && s.lexeme.start.rest.head? == some '=')
    guard (← endsTypeArguments)
    return parts

def optionalStep (e : Expr) : Parse Expr := do
  match ← token with
  | .mark "(" => return .call e (← arguments self)
  | .mark "[" =>
    bump
    let key ← within Context.inBrackets self.expression
    expect "]"
    return .element e [key]
  | .mark "<" | .mark "<<" =>
    let parts ← partsIn (typeArguments self)
    return .call (.wrapped [] e parts) (← arguments self)
  | .privateName _ =>
    bump
    return .element e []
  | _ => return .member e (← anyWord)

/-- One step of a chain: an access, a call, a tag or an assertion. The flag tells whether a `?.`
has been seen. -/
def chainStep (calls : Bool) : ReadExpr × Bool → Parse (Option (ReadExpr × Bool))
  | (e, optional) => do
    match ← token with
    | .mark "." =>
      bump
      match ← token with
      | .privateName _ =>
        bump
        return some (.place (.element e.expr []), optional)
      | _ => return some (.place (.member e.expr (← anyWord)), optional)
    | .mark "?." =>
      guard (calls && !(← context).decorates)
      bump
      return some (.value (← optionalStep self e.expr), true)
    | .mark "[" =>
      if (← context).decorates then return none
      bump
      let key ← within Context.inBrackets self.expression
      expect "]"
      return some (.place (.element e.expr [key]), optional)
    | .mark "(" =>
      if calls then return some (.value (.call e.expr (← arguments self)), optional)
      else return none
    | .mark "!" =>
      if (← dialect).typescript && !(← afterLine) then
        bump
        return some (e.wrapped, optional)
      else return none
    | .template _ _ =>
      guard !optional
      let (_, subs) ← templatePieces (substitution self)
      return some (.value (.other (e.expr :: subs.map Prod.snd)), optional)
    | _ =>
      match ← expressionTypeArguments? self with
      | some parts => return some (.value (.wrapped [] e.expr parts), optional)
      | none => return none

/-! ## Simple expressions -/

def parenthesized : Parse ReadExpr := do
  expect "("
  let e ← within Context.inBrackets (self _ .expression)
  expect ")"
  return e.wrapped

def functionExpression (async : Bool) : Parse Expr := do
  expectWord "function"
  let generator ← eat "*"
  let nameContext (c : Context) : Context := { c with await := async, yield := generator }
  if ← within nameContext atName then discard (within nameContext name)
  return .other (← functionTail self async generator .possible)

def regexExpression : Parse Expr := do
  match readRegex (← here) with
  | .ok (.regex text, after) =>
    reread (.regex text) after
    bump
    return .other []
  | _ => fail

/-- The arguments of an import in an expression: a file and perhaps attributes. -/
def importArguments : Parse (List Expr) := do
  let args ← arguments self
  guard ((args.length == 1 || args.length == 2) && !args.any (·.spread))
  return args.map (·.value)

/-- An import in an expression, after its keyword. -/
def importExpression : Parse Expr := do
  if ← eat "." then
    let property ← anyWord
    if property == "meta" then
      modify fun s => { s with isModule := true }
      return .other []
    else guard (["source", "defer"].contains property)
  return .other (← importArguments self)

def wordExpression (w : String) : Parse ReadExpr := do
  match w with
  | "this" | "null" => bump; return .value (.other [])
  | "true" => bump; return .value (.boolean true)
  | "false" => bump; return .value (.boolean false)
  | "function" => return .value (← functionExpression self false)
  | "class" =>
    bump
    return .value (.other (← classTail self).2)
  | "super" =>
    bump
    guard (← isAnyMark ["(", ".", "["])
    return .value (.other [])
  | "import" =>
    bump
    return .value (← importExpression self)
  | _ =>
    if w == "async" && (← nextOnLine (isWord "function")) then
      bump
      return .value (← functionExpression self true)
    else return .place (.name (← name))

/-- An element of markup. Its closing mark is the current token once it has been read. -/
def markupExpression : Parse Expr := do
  let e ← self.markup
  bump
  return e

def simpleExpression : Parse ReadExpr := do
  match ← token with
  | .word w false => wordExpression self w
  | .word _ true => return .place (.name (← name))
  | .string s => bump; return .value (.string s)
  | .number n => bump; return .value (.number n)
  | .bigint _ => bump; return .value (.other [])
  | .template _ _ =>
    let (cooked, subs) ← templatePieces (substitution self)
    match cooked.mapM id with
    | some quasis => return .value (.template quasis subs)
    | none => fail
  | .mark "/" | .mark "/=" => return .value (← regexExpression)
  | .mark "(" => parenthesized self
  | .mark "[" => arrayLiteral self
  | .mark "\x7b" => objectLiteral self
  | .mark "@" =>
    let ds ← decorators self
    expectWord "class"
    return .value (.other (ds ++ (← classTail self).2))
  | .mark "<" =>
    guard (← dialect).markup
    return .value (← markupExpression self)
  | _ => fail

/-- Whether an import in an expression stands here that yields a file. -/
def importsFile : Parse Bool := ahead do
  expectWord "import"
  if ← eat "." then return !(← isWord "meta") else isMark "("

/-- `new` and what it makes; the arguments can be left out. -/
def construction : Parse Expr := do
  expectWord "new"
  if ← eat "." then
    expectWord "target"
    return .other []
  else
    guard !(← importsFile)
    let callee ← self.leftHand false
    if ← isMark "(" then return .construct callee (← arguments self)
    else return .construct callee []

/-- A chain from its first expression on. -/
def leftHandRule (calls : Bool) : Parse ReadExpr := do
  let first ← if ← isWord "new" then pure (.value (← construction self)) else simpleExpression self
  let (e, optional) ← extend (chainStep self calls) (first, false)
  return if optional then .value (.other [e.expr]) else e

/-! ## Operators -/

/-- Only a place can be counted up and down. -/
def expectPlace (e : ReadExpr) : Parse Unit := guard (e.target matches .place)

/-- A value is assigned to what has been read. If that is a pattern, its defaults stand where they
can. -/
def expectTarget (e : ReadExpr) : Parse Unit := do
  match e.target with
  | .place => return
  | .pattern n => modify fun s => { s with patterns := s.patterns - n }
  | _ => fail

def prefixWords : List String := ["delete", "void", "typeof"]

/-- A cast in angle brackets. -/
def angleCast : Parse ReadExpr := do
  guard (← dialect).typescript
  expect "<"
  let parts ← partsIn self.type
  expect ">"
  return (← self _ .unary).wrapped parts

def unaryRule : Parse ReadExpr := do
  if (← isAnyMark ["+", "-", "~", "!"]) || (← isAnyWord prefixWords) then
    bump
    return .value (.other [← self.unary])
  else if (← context).await && (← isWord "await") then
    bump
    return .value (.other [← self.unary])
  else if ← isMark "<" then
    if (← dialect).markup then return .value (← markupExpression self) else angleCast self
  else if ← isAnyMark ["++", "--"] then
    bump
    let e ← self _ .unary
    expectPlace e
    return .value (.other [e.expr])
  else
    let e ← leftHandRule self true
    if !(← afterLine) && (← isAnyMark ["++", "--"]) then
      expectPlace e
      bump
      return .value (.other [e.expr])
    else return e

/-- Read the current `>` together with what belongs to it. -/
def joinGreaterHere : Parse Unit := do
  if ← isMark ">" then
    let (t, after) := joinGreater (← here)
    reread t after

/-- An operator and its right side, if the operator binds tighter than `level`. The text that comes
with the expression is the last operator of this level. -/
def operatorStep (level : Nat) : ReadExpr × String → Parse (Option (ReadExpr × String))
  | (e, last) => do
    joinGreaterHere
    match ← token with
    | .mark m =>
      let here := operatorLevel m
      if here ≤ level then return none
      bump
      if m == "??" then
        guard !(connectives.contains last)
        let right ← self.binary (operatorLevel "&&")
        guard !(← isAnyMark connectives)
        return some (.value (.other [e.expr, right]), m)
      else
        let right ← if m == "**" then self.binary (here - 1) else self.binary here
        return some (.value (.other [e.expr, right]), m)
    | .word w false =>
      if level ≥ comparisonLevel then return none
      else if w == "instanceof" || (w == "in" && (← context).inOperator) then
        bump
        return some (.value (.other [e.expr, ← self.binary comparisonLevel]), w)
      else if (w == "as" || w == "satisfies") && (← dialect).typescript && !(← afterLine) then
        bump
        return some (e.wrapped [] (← partsIn self.type), w)
      else return none
    | _ => return none

/-- A private name, which stands alone only where it is asked whether an object has it. -/
def privateOperand (level : Nat) : Parse ReadExpr := do
  guard (level < comparisonLevel && (← context).inOperator)
  bump
  guard (← isWord "in")
  return .value (.other [])

def binaryRule (level : Nat) : Parse ReadExpr := do
  let isPrefixed := (← isAnyMark ["+", "-", "~", "!"]) || (← isAnyWord prefixWords) ||
    ((← context).await && (← isWord "await"))
  let first ← if (← token) matches .privateName _ then privateOperand level else self _ .unary
  -- A power of a negated or awaited value has to say which comes first.
  guard !(isPrefixed && (← isMark "**"))
  return (← extend (operatorStep self level) (first, "")).1

def assignmentOperators : List String :=
  ["=", "+=", "-=", "*=", "/=", "%=", "**=", "<<=", ">>=", ">>>=", "&=", "|=", "^=",
   "&&=", "||=", "??="]

/-- Whether `yield` can stand without a value here. -/
def endsYield : Parse Bool := do
  return (← afterLine) || (← token) == .endOfFile || (← isWord "in")
    || (← isAnyMark [";", closeBrace, ")", "]", ":", ","])

def yieldExpression : Parse Expr := do
  expectWord "yield"
  if !(← afterLine) && (← eat "*") then return .other [← self.assignment]
  else if ← endsYield then return .other []
  else return .other [← self.assignment]

def assignmentRule : Parse ReadExpr := do
  if (← context).yield && (← isWord "yield") then return .value (← yieldExpression self)
  if let some e ← arrowFunction? self then return .value e
  let left ← self _ (.binary 0)
  match ← token with
  | .mark "?" =>
    bump
    let whenTrue ← within (fun c => { c with inOperator := true, arrowReturnTypes := false })
      self.assignment
    expect ":"
    return .value (.other [left.expr, whenTrue, ← self.assignment])
  | .mark m =>
    if assignmentOperators.contains m then
      expectTarget left
      bump
      return {
        expr := .other [left.expr, ← self.assignment]
        target := if m == "=" then .withDefault else .forbidden }
    else return left
  | _ => return left

/-- Expressions between commas; one alone is itself. -/
def expressionRule : Parse ReadExpr := do
  match ← separated "," (self _ .assignment) with
  | [e] => return e
  | es => return .value (.other (es.map (·.expr)))

end Routebook.Source.Parse
