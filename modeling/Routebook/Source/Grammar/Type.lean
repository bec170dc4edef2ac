import Routebook.Source.Grammar.Name

/-!
# Reading types

Types are read into `TypeExpr` at once. Parentheses and `readonly` leave no trace, `Array<T>` and
`ReadonlyArray<T>` are arrays, and tuple elements lose their names, dots and question marks: all of
these describe the same values. A form that has no constructor of its own keeps its source text.

Parameter lists are read here too, because function types have them.
-/

namespace Routebook.Source.Parse

variable (self : Rules)

/-! ## Annotations and parameters -/

/-- Read the current `<<` as a single `<`. -/
def splitAngle : Parse Unit := do
  match ← token with
  | .mark "<<" | .mark "<<=" => reread (.mark "<") ((← here).advance 1)
  | _ => return

def atAngle : Parse Bool := isAnyMark ["<", "<<"]

def typeArguments : Parse (List (TypeExpr Unit)) := do
  splitAngle
  expect "<"
  let ts ← commaList ">" self.type
  guard !ts.isEmpty
  return ts

/-- A type after the parameters of a function, which may also say what a parameter is. -/
def resultType : Parse (TypeExpr Unit) := do
  if (← atAnyWord) && (← nextOnLine (isWord "is")) then
    let start ← here
    bump
    bump
    discard self.type
    return .other (← textFrom start)
  else self.type

/-- A colon and a type, if there is one. Only a typed language has annotations. -/
def typeMark? : Parse (Option (TypeExpr Unit)) := do
  if ← isMark ":" then
    guard (← dialect).typescript
    bump
    return some (← self.type)
  else return none

def resultTypeMark? : Parse Unit := do
  if ← isMark ":" then
    guard (← dialect).typescript
    bump
    discard (resultType self)

def typeParameters? : Parse (List (TypeParameter Unit)) := do
  unless ← atAngle do return []
  guard (← dialect).typescript
  splitAngle
  bump
  let ps ← commaList ">" do
    discard <| modifiersAt fun w => do
      return ["const", "in", "out"].contains w && (← nextOnLine atAnyWord)
    let n ← name
    if ← eatWord "extends" then discard self.type
    let d ← if ← eat "=" then pure (some (← self.type)) else pure none
    return (⟨n, d⟩ : TypeParameter Unit)
  guard !ps.isEmpty
  return ps

def decorators : Parse (List Expr) := many do
  if ← eat "@" then
    return some (← within (fun c => { c with decorates := true }) (self.leftHand true))
  else return none

/-- The surroundings inside brackets of an expression. -/
def Context.inBrackets (c : Context) : Context :=
  { c with inOperator := true, arrowReturnTypes := true, decorates := false }

/-- The value a parameter or pattern takes when it is given none. -/
def initializer? : Parse (List Expr) := do
  if ← eat "=" then return [← within Context.inBrackets self.assignment] else return []

def parameterModifiers : List String :=
  ["public", "private", "protected", "readonly", "override"]

/-- Modifiers in front of a parameter. A modifier that nothing follows is the parameter's name. -/
def readParameterModifiers : Parse (List String) := modifiersAt fun w => do
  return parameterModifiers.contains w
    && (← next (return (← atAnyWord) || (← isAnyMark [openBrace, "["])))

/-- What gathers the rest is the last of a list. Only where nothing is defined a comma may still
follow. -/
def lastBefore (close : String) : Parse Unit := do
  guard ((← isMark close)
    || ((← context).ambient && (← isMark ",") && (← next (isMark close))))

/-- A parameter: whether it gathers the rest or has a default, and the expressions in it. -/
structure Parameter where
  isRest : Bool
  hasDefault : Bool
  parts : List Expr

/-- A parameter. Only what constructs an object has parameters that are properties as well. One that
can be left out has no default. -/
def parameter (constructs : Bool) : Parse Parameter := do
  let ds ← decorators self
  let ms ← readParameterModifiers
  guard (ms.isEmpty || (constructs && inOrder ms && (← dialect).typescript))
  if ← eat "..." then
    let b ← self.binding
    let parts ← partsIn (typeMark? self)
    lastBefore ")"
    return ⟨true, false, ds ++ b.parts ++ parts⟩
  else
    let b ← self.binding
    let optional ← eat "?"
    guard (!optional || (← dialect).typescript)
    let parts ← partsIn (typeMark? self)
    let value ← initializer? self
    guard (!optional || value.isEmpty)
    return ⟨false, !value.isEmpty, ds ++ b.parts ++ parts ++ value⟩

/-- What a function takes and yields, with all the expressions in it. -/
structure Signature where
  parameters : List Parameter
  parts : List Expr

def parameters (constructs : Bool) : Parse Signature := do
  expect "("
  let ofThis ← if (← dialect).typescript && (← eatWord "this") then
      let parts ← partsIn (typeMark? self)
      unless ← isMark ")" do expect ","
      pure parts
    else pure []
  let ps ← commaList ")" (parameter self constructs)
  return ⟨ps, ofThis ++ ps.flatMap (·.parts)⟩

/-- The parameters and the result of a function, without its body. -/
def signature : Parse Signature := do
  let before ← partsIn (typeParameters? self)
  let ps ← parameters self false
  let after ← partsIn (resultTypeMark? self)
  return { ps with parts := before ++ ps.parts ++ after }

/-- The parameters of something that constructs an object, where `this` has no type of its own. -/
def constructorParameters (constructs : Bool) : Parse Signature := do
  guard ((← isMark "(") && !(← next (isWord "this")))
  parameters self constructs

/-- The signature of a function in a type. -/
def typeSignature (p : Parse Signature) : Parse Unit := do keepParts (← p).parts

/-! ## Templates -/

/-- Go on in a template after a substitution. -/
def continueTemplate : Parse Unit := do
  guard (← isMark closeBrace)
  match readTemplate (← lexeme).after with
  | .ok (t, after) => reread t after
  | .error e => throw e

def templateRest {α : Type} (item : Parse α) : Nat → Parse (List (α × Option String))
  | 0 => fail
  | n + 1 => do
    let a ← item
    continueTemplate
    match ← token with
    | .template cooked last =>
      bump
      if last then return [(a, cooked)] else return (a, cooked) :: (← templateRest item n)
    | _ => fail

/-- The texts and the substitutions of a template. -/
def templatePieces {α : Type} (item : Parse α) : Parse (List (Option String) × List α) := do
  match ← token with
  | .template cooked true =>
    bump
    return ([cooked], [])
  | .template cooked false =>
    bump
    let rest ← templateRest item (← tokensAhead)
    return (cooked :: rest.map Prod.snd, rest.map Prod.fst)
  | _ => fail

/-! ## Members of an object type -/

def atKey : Parse Bool := return match ← token with
  | .word _ _ | .string _ | .number _ | .bigint _ | .privateName _ => true
  | .mark m => m == "["
  | _ => false

/-- Whether the brackets ahead hold the key of an index signature. -/
def atIndexSignature : Parse Bool := ahead do
  expect "["
  guard (← atName)
  bump
  isAnyMark [":", ","]

def memberModifiers : List String :=
  ["readonly", "public", "private", "protected", "static", "override", "abstract", "declare",
   "accessor"]

/-- The modifiers in front of a member. A modifier that no key follows is the member's name. -/
def modifiers : Parse (List String) := modifiersAt fun w => do
  return memberModifiers.contains w && (← nextOnLine atKey)

/-- Members of a type can be set apart by a comma or a semicolon, but need not be. -/
def memberEnd : Parse Unit := do
  unless ← eat "," do discard (eat ";")

/-- An index signature after its modifiers: one key, with its type, and the type of the values. -/
def indexSignature : Parse Unit := do
  expect "["
  discard anyWord
  guard (← isMark ":")
  discard (typeMark? self)
  expect "]"
  guard (← isMark ":")
  discard (typeMark? self)
  memberEnd

/-- The key of a member, with what computes it kept. -/
def typeKey : Parse Key := do
  let key ← propertyKey self
  keepParts key.computed
  return key

/-- A member of an object type that has a name. Only a property whose name is fixed is kept. A
property or index signature can be `readonly` and nothing else; a method cannot be that. -/
def namedMember : Parse (Option (Member (TypeExpr Unit))) := do
  let ms ← modifiers
  if (← isAnyWord ["get", "set"]) && (← next atKey) then
    guard ms.isEmpty
    let getter ← isWord "get"
    bump
    discard (typeKey self)
    typeSignature (parameters self false)
    if getter then resultTypeMark? self
    return none
  else if (← isMark "[") && (← atIndexSignature) then
    guard (ms.all (· == "readonly"))
    indexSignature self
    return none
  else
    let key ← typeKey self
    let optional ← eat "?"
    if (← isMark "(") || (← atAngle) then
      guard !(ms.contains "readonly")
      typeSignature (signature self)
      return none
    else
      guard (ms.all (· == "readonly"))
      let t ← typeMark? self
      return key.name.map fun n => ⟨n, optional, t.getD (.keyword .any)⟩

def typeMember : Parse (Option (Member (TypeExpr Unit))) := do
  if (← isMark "(") || (← atAngle) then
    typeSignature (signature self)
    return none
  else if (← isWord "new") && (← next (return (← isMark "(") || (← atAngle))) then
    bump
    discard (typeParameters? self)
    typeSignature (constructorParameters self false)
    resultTypeMark? self
    return none
  else namedMember self

def typeMembers : Parse (List (Member (TypeExpr Unit))) := do
  expect openBrace
  let ms ← many do
    if ← isMark closeBrace then return none
    let m ← typeMember self
    memberEnd
    return some m
  expect closeBrace
  return ms.filterMap id

/-! ## Types -/

/-- Whether a parameter begins here; reads it up to its name or pattern. -/
def skipParameterStart : Parse Bool := do
  discard readParameterModifiers
  if (← atName) || (← isWord "this") then
    bump
    return true
  else if ← isAnyMark [openBrace, "["] then
    discard self.binding
    return true
  else return false

/-- Whether the parenthesis ahead opens the parameters of a function type. -/
def opensParameters : Parse Bool := ahead do
  bump
  if ← isAnyMark [")", "..."] then return true
  if ← skipParameterStart self then
    if ← isAnyMark [":", ",", "?", "="] then return true
    expect ")"
    isMark "=>"
  else return false

def startsFunctionType : Parse Bool := do
  if ← atAngle then return true
  else if ← isMark "(" then opensParameters self
  else if ← isWord "new" then return true
  else return (← isWord "abstract") && (← next (isWord "new"))

def functionType : Parse (TypeExpr Unit) := do
  let start ← here
  discard (eatWord "abstract")
  let constructs ← eatWord "new"
  discard (typeParameters? self)
  typeSignature (if constructs then constructorParameters self false else parameters self false)
  expect "=>"
  discard (resultType self)
  return .other (← textFrom start)

def startsMappedType : Parse Bool := ahead do
  bump
  if (← eat "+") || (← eat "-") then isWord "readonly"
  else
    discard (eatWord "readonly")
    expect "["
    discard name
    isWord "in"

/-- A type with one property for each member of another type, kept as text. -/
def mappedType : Parse (TypeExpr Unit) := do
  let start ← here
  expect openBrace
  if (← eat "+") || (← eat "-") then expectWord "readonly"
  else discard (eatWord "readonly")
  expect "["
  discard name
  expectWord "in"
  discard self.type
  if ← eatWord "as" then discard self.type
  expect "]"
  if (← eat "+") || (← eat "-") then expect "?"
  else discard (eat "?")
  discard (typeMark? self)
  discard (eat ";")
  expect closeBrace
  return .other (← textFrom start)

/-- How many values an element of a tuple stands for. -/
inductive Occurrence where
  | one | optional
  /-- Any number of values, of an array that is written out. -/
  | rest
  /-- The values of another tuple or array. -/
  | spread
  deriving DecidableEq

/-- Whether elements can follow each other so: after one that can be left out none is required, and
after the rest there is neither another rest nor one that can be left out. -/
def inTupleOrder : List Occurrence → Bool
  | [] => true
  | o :: os =>
    (match o with
      | .optional => !os.contains .one
      | .rest => !os.contains .rest && !os.contains .optional
      | _ => true) && inTupleOrder os

/-- One element of a tuple, without its name and marks. An element with a name is marked at the
name, and not as one that can be left out and as the rest at once. -/
def tupleElement : Parse (Occurrence × TypeExpr Unit) := do
  let rest ← eat "..."
  let gathered (t : ReadType) : Occurrence := if t.isArray then .rest else .spread
  let named ← if ← atAnyWord then
      ahead do
        bump
        discard (eat "?")
        isMark ":"
    else pure false
  if named then
    bump
    let optional ← eat "?"
    guard !(rest && optional)
    expect ":"
    let t ← self _ .type
    guard t.beforeMark.isNone
    return (if rest then gathered t else if optional then .optional else .one, t.type)
  else
    let t ← self _ .type
    if rest then return (gathered t, t.type)
    else match t.beforeMark with
      | some inner => return (.optional, inner)
      | none => return (.one, t.type)

def tupleType : Parse (TypeExpr Unit) := do
  expect "["
  let es ← commaList "]" (tupleElement self)
  guard (inTupleOrder (es.map Prod.fst))
  return .tuple (es.map Prod.snd)

/-- The type of another file's export. -/
def importType : Parse (TypeExpr Unit) := do
  expectWord "import"
  expect "("
  let specifier ← stringText
  if ← eat "," then
    guard (← isMark openBrace)
    keepParts [← self.assignment]
  expect ")"
  let qualifier ← if ← eat "." then some <$> referredName else pure none
  let args ← if !(← afterLine) && (← atAngle) then typeArguments self else pure []
  return .imported specifier qualifier args ()

/-- The type of a value: the value's dotted name. -/
def queryType : Parse (TypeExpr Unit) := do
  let start ← here
  expectWord "typeof"
  if ← isWord "import" then
    discard (importType self)
    return .other (← textFrom start)
  let whole ← referredName
  if !(← afterLine) && (← atAngle) then discard (typeArguments self)
  if whole == "this" then return .other (← textFrom start)
  else return .query whole ()

def keyword? : String → Option Keyword
  | "any" => some .any
  | "unknown" => some .unknown
  | "never" => some .never
  | "undefined" => some .undefined
  | "string" => some .string
  | "number" => some .number
  | "boolean" => some .boolean
  | "bigint" => some .bigint
  | "symbol" => some .symbol
  | "object" => some .object
  | "null" => some .null
  | _ => none

/-- A named type with its arguments. One argument to an array's name is its element. -/
def referenceType : Parse (TypeExpr Unit) := do
  let n ← referredName
  let args ← if !(← afterLine) && (← atAngle) then typeArguments self else pure []
  return match args with
    | [t] => if n == "Array" || n == "ReadonlyArray" then .array t else .reference n [t] ()
    | _ => .reference n args ()

/-- Words that begin a type of their own kind. -/
def typeWords : List String :=
  ["void", "this", "typeof", "true", "false", "import", "keyof", "unique", "readonly", "infer",
   "new"]

/-- A type that begins with a word. A word that means something in types cannot be written with
escapes, unless a point makes it a part of a name. -/
def wordType (w : String) (escaped : Bool) : Parse (TypeExpr Unit) := do
  let start ← here
  if escaped then
    guard (!typeWords.contains w && ((keyword? w).isNone || (← next (isMark "."))))
    referenceType self
  else match w with
    | "void" => bump; return .keyword .void
    | "true" => bump; return .literal (.boolean true)
    | "false" => bump; return .literal (.boolean false)
    | "typeof" => queryType self
    | "import" => importType self
    | "this" =>
      bump
      if !(← afterLine) && (← eatWord "is") then discard self.type
      return .other (← textFrom start)
    | _ =>
      if w == "asserts" && (← nextOnLine (return (← atName) || (← isWord "this"))) then
        bump
        bump
        if ← eatWord "is" then discard self.type
        return .other (← textFrom start)
      else
        match keyword? w with
        | some k =>
          if ← next (isMark ".") then referenceType self
          else
            bump
            return .keyword k
        | none => referenceType self

/-- A negative number. It is kept as text where its digits are not plain decimal ones. -/
def negativeType : Parse (TypeExpr Unit) := do
  let start ← here
  expect "-"
  guard ((← token) matches .number _ | .bigint _)
  bump
  let text ← textFrom start
  return match Number.read? text.toList with
    | some n => .literal (.number n)
    | none => .other text

def atTypeStart : Parse Bool := return match ← token with
  | .word w _ =>
    !reservedWords.contains w
      || ["void", "null", "this", "typeof", "true", "false", "new", "import", "function",
          "break"].contains w
  | .string _ | .number _ | .bigint _ | .template _ _ => true
  | .mark m => ["\x7b", "[", "<", "|", "&", "*", "?", "..."].contains m
  | _ => false

/-- Whether a type can begin here. -/
def startsType : Parse Bool := do
  if ← isMark "-" then next (return (← token) matches .number _ | .bigint _)
  else if ← isMark "(" then
    next (return (← atTypeStart) || (← isAnyMark [")", "@", "(", "-"]))
  else atTypeStart

def simpleType : Parse (TypeExpr Unit) := do
  match ← token with
  | .word w e => wordType self w e
  | .string s => bump; return .literal (.string s)
  | .number n => bump; return .literal (.number n)
  | .bigint _ => bump; return .keyword .bigint
  | .template cooked true =>
    bump
    match cooked with
    | some s => return .literal (.string s)
    | none => fail
  | .template _ false =>
    let start ← here
    discard (templatePieces self.type)
    return .other (← textFrom start)
  | .mark "-" => negativeType
  | .mark "\x7b" =>
    if ← startsMappedType then mappedType self else return .object (← typeMembers self)
  | .mark "[" => tupleType self
  | .mark "(" =>
    bump
    let t ← self.type
    expect ")"
    return t
  | _ => fail

/-- A type that may have marks before it, as documentation writes them: exclamation marks for a type
that cannot be `null`, a question mark for one that can, or alone for any type. -/
def markedType : Parse (TypeExpr Unit) := do
  let start ← here
  let marks ← many do
    if ← eat "!" then return some () else return none
  if ← eat "?" then
    unless ← isAnyMark [",", closeBrace, ")", ">", "=", "|"] do discard self.type
    return .other (← textFrom start)
  else
    let t ← simpleType self
    if marks.isEmpty then return t else return .other (← textFrom start)

/-- Arrays, indexed types and types with a mark after them, as long as they go on in the same line.
A question mark before another type belongs to a conditional type instead. -/
def postfixType : Parse ReadType := do
  let start ← here
  let isTuple ← isMark "["
  let t ← within (fun c => { c with conditionalTypes := true }) (markedType self)
  extend (fun t => do
    if ← afterLine then return none
    match ← token with
    | .mark "[" =>
      bump
      if ← eat "]" then return some { type := .array t.type, isArray := true }
      guard (← startsType)
      discard (within (fun c => { c with conditionalTypes := true }) self.type)
      expect "]"
      return some { type := .other (← textFrom start) }
    | .mark "!" =>
      bump
      return some { type := .other (← textFrom start) }
    | .mark "?" =>
      if ← next startsType then return none
      bump
      return some { type := .other (← textFrom start), beforeMark := some t.type }
    | _ => return none) { type := t, isTuple := isTuple }

/-- A part of a type to be found by matching, kept as text. -/
def inferType : Parse (TypeExpr Unit) := do
  let start ← here
  expectWord "infer"
  discard name
  if ← isWord "extends" then
    discard <| attempt do
      bump
      discard (within (fun c => { c with conditionalTypes := false }) self.type)
      guard (!(← context).conditionalTypes || !(← isMark "?"))
  return .other (← textFrom start)

/-- Operators in front of a type. All but `readonly` make it a form that is kept as text, and
`readonly` stands only before an array or a tuple that is written as one. -/
def operatorType : Parse ReadType := do
  let operators ← many do
    match ← token with
    | .word w false =>
      if w == "keyof" || w == "unique" || w == "readonly" then
        let start ← here
        bump
        return some (w, start)
      else return none
    | _ => return none
  let t ← if ← isWord "infer" then pure { type := ← inferType self } else postfixType self
  let isList := t.isArray || t.isTuple
  guard ((operators.dropLast.all (·.1 != "readonly"))
    && (operators.getLast?.all fun o => o.1 != "readonly" || isList))
  match operators.find? (·.1 != "readonly") with
  | some (_, start) => return { type := .other (← textFrom start) }
  | none => return if operators.isEmpty then t else { type := t.type }

/-- Types joined by an operator. A leading operator makes a list even of one. -/
def joinedType (operator : String) (item : Parse ReadType)
    (join : List (TypeExpr Unit) → TypeExpr Unit) : Parse ReadType := do
  let leading ← eat operator
  let first ← item
  if leading || (← isMark operator) then
    let rest ← many do
      if ← eat operator then return some (← item).type else return none
    return { type := join (first.type :: rest) }
  else return first

def unionType : Parse ReadType :=
  joinedType "|" (joinedType "&" (operatorType self) .intersection) .union

def typeRule : Parse ReadType := do
  if ← startsFunctionType self then return { type := ← functionType self }
  else
    let start ← here
    let t ← unionType self
    if (← context).conditionalTypes && !(← afterLine) && (← isWord "extends") then
      bump
      discard (within (fun c => { c with conditionalTypes := false }) self.type)
      let branch := within (fun c => { c with conditionalTypes := true }) self.type
      expect "?"
      discard branch
      expect ":"
      discard branch
      return { type := .other (← textFrom start) }
    else return t

end Routebook.Source.Parse
