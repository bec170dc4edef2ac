import Routebook.Source.Grammar.Markup

/-!
# Reading declarations

Declarations that other statements and other files can refer to keep what they declare. Functions
and namespaces declare nothing that a type could be looked up in; they keep their expressions.
-/

namespace Routebook.Source

def Statement.ofParts (parts : List Expr) : Statement := ⟨.nothing, parts⟩

def Statement.ofDeclared (d : Declared) (parts : List Expr) : Statement :=
  ⟨.declares false d, parts⟩

/-- A declaration of variables, each with the expressions in it. -/
def Statement.ofVariables (ds : List (Declarator × List Expr)) : Statement :=
  .ofDeclared (.variables (ds.map Prod.fst)) (ds.flatMap Prod.snd)

def Statement.exported (s : Statement) : Statement :=
  match s.meaning with
  | .declares _ d => ⟨.declares true d, s.parts⟩
  | _ => s

namespace Parse

variable (self : Rules)

/-! ## Variables -/

def declarator : Parse (Declarator × List Expr) := do
  let b ← self.binding
  let assured ← eat "!"
  let (t, parts) ← withParts (typeMark? self)
  guard (!assured || t.isSome)
  if ← eat "=" then
    guard !assured
    let e ← self.assignment
    return (⟨b.name, t, some e⟩, b.parts ++ parts ++ [e])
  else return (⟨b.name, t, none⟩, b.parts ++ parts)

/-- Variables after their keyword. -/
def declarators : Parse (List (Declarator × List Expr)) := separated "," (declarator self)

/-- A constant and a pattern need a value, unless they are defined elsewhere. -/
def expectValues (constant : Bool) (ds : List (Declarator × List Expr)) : Parse Unit := do
  let ambient := (← context).ambient
  guard (ds.all fun (d, _) => ambient || d.value.isSome || (!constant && d.name.isSome))

/-- Whether a declaration begins at `using`, perhaps after `await`. -/
def startsUsing : Parse Bool := do
  if ← isWord "using" then nextOnLine atName
  else return (← isWord "await")
    && (← nextOnLine (return (← isWord "using") && (← nextOnLine atName)))

/-- Whether `let` goes on as an expression: before an operator, an access or a semicolon. -/
def letIsName : Parse Bool := next do
  match ← token with
  | .mark m => return operatorLevel m > 0 || assignmentOperators.contains m ||
      [".", "(", ";"].contains m
  | _ => isAnyWord ["in", "instanceof"]

/-- Whether a declaration of variables begins here that can be exported. -/
def startsVariables : Parse Bool := do
  return (← isAnyWord ["var", "const"]) || ((← isWord "let") && !(← letIsName))

/-- The keyword of a variable declaration; tells whether the variables are constants. -/
def variableKeyword : Parse Bool := do
  discard (eatWord "await")
  let constant ← isAnyWord ["const", "using"]
  bump
  return constant

def variableDeclaration : Parse Statement := do
  let constant ← variableKeyword
  let ds ← declarators self
  expectValues constant ds
  semicolon
  return .ofVariables ds

/-! ## Types and enumerations -/

def typeAliasDeclaration : Parse Statement := do
  expectWord "type"
  let n ← name
  let (ps, before) ← withParts (typeParameters? self)
  expect "="
  let (body, after) ← if (← isWord "intrinsic") && !(← next (isMark ".")) then
      bump
      pure (.other "intrinsic", [])
    else withParts self.type
  semicolon
  return .ofDeclared (.typeAlias n ps body) (before ++ after)

/-- A parent of an interface: a dotted name with its arguments. Any other expression is no type, but
can hold calls. -/
def interfaceParent : Parse (Option (TypeExpr Unit) × List Expr) := do
  let start ← get
  if ← atName then
    let n ← dottedName
    let (args, parts) ← if ← atAngle then withParts (typeArguments self) else pure ([], [])
    if ← isAnyMark [",", openBrace] then return (some (.reference n args ()), parts)
    rewind start
  let e ← self.leftHand true
  let (args, parts) ← if ← atAngle then withParts (typeArguments self) else pure ([], [])
  return (e.dottedName?.map fun n => .reference n args (), e :: parts)

def interfaceDeclaration : Parse Statement := do
  expectWord "interface"
  let n ← name
  let (ps, before) ← withParts (typeParameters? self)
  let parents ← if ← eatWord "extends" then separated "," (interfaceParent self) else pure []
  let (ms, after) ← withParts (typeMembers self)
  return .ofDeclared (.interface n ps (parents.filterMap Prod.fst) ms)
    (before ++ parents.flatMap Prod.snd ++ after)

def enumerationMember : Parse (Option Literal × List Expr) := do
  guard !((← token) matches .number _ | .bigint _)
  let key ← propertyKey self
  guard (key.computed.all fun e => e matches .string _ | .template [_] [])
  if ← eat "=" then
    let e ← self.assignment
    let value := match e with
      | .string s => some (Literal.string s)
      | .number n => some (Literal.number n)
      | _ => none
    return (value, key.computed ++ [e])
  else return (none, key.computed)

def enumerationDeclaration : Parse Statement := do
  guard (← dialect).typescript
  discard (eatWord "const")
  expectWord "enum"
  let n ← name
  expect openBrace
  let ms ← commaList closeBrace (enumerationMember self)
  return .ofDeclared (.enumeration n (ms.map Prod.fst)) (ms.flatMap Prod.snd)

/-! ## Functions, classes and namespaces -/

def functionDeclaration (needsName : Bool) (body : BodyNeed) : Parse Statement := do
  let async ← eatWord "async"
  expectWord "function"
  let generator ← eat "*"
  if (← atName) || needsName then discard name
  return .ofParts (← functionTail self async generator body)

/-- The words that can say more about a class before its keyword. -/
def classWords : Parse (List String) := modifiersAt fun w => do
  return ["abstract", "declare"].contains w && (← nextOnLine atAnyWord)

def startsClass : Parse Bool := ahead do
  discard classWords
  isWord "class"

def classDeclaration : Parse Statement := do
  let ds ← decorators self
  let ms ← classWords
  guard (ms.isEmpty || (← dialect).typescript)
  expectWord "class"
  let ambient := ms.contains "declare"
  let (n, parts) ← within (fun c => { c with ambient := c.ambient || ambient }) (classTail self)
  match n with
  | some n => return .ofDeclared (.classType n) (ds ++ parts)
  | none => return .ofParts (ds ++ parts)

def namespaceDeclaration : Parse Statement := do
  let wasModule := (← get).isModule
  let body : Parse Statement := do
    let parts ← block self
    -- What a namespace exports leaves the file as it is.
    modify fun s => { s with isModule := wasModule }
    return .ofParts parts
  if ← eatWord "global" then body
  else
    bump
    match ← token with
    | .string _ =>
      bump
      if ← isMark openBrace then body
      else
        semicolon
        return .ofParts []
    | _ =>
      discard (separated "." name)
      body

def startsFunction : Parse Bool := do
  return (← isWord "function") || ((← isWord "async") && (← nextOnLine (isWord "function")))

/-- The surroundings where `await` is a name again. -/
def outsideAwait (c : Context) : Context := { c with await := false }

/-- Whether a word that has another use as well begins a declaration here. -/
def startsContextual : Parse Bool := do
  match ← token with
  | .word w false =>
    let atName := within outsideAwait atName
    if ["type", "interface", "namespace"].contains w then nextOnLine atName
    else match w with
      | "module" => nextOnLine (return (← atName) || (← token) matches .string _)
      | "global" => next (isMark openBrace)
      | "abstract" => startsClass
      | _ => return false
  | _ => return false

/-- Whether a declaration begins here that `declare` can stand before. -/
def startsDeclarable : Parse Bool := do
  return (← startsVariables) || (← startsFunction) || (← isAnyWord ["class", "enum", "import"])
    || (← startsContextual)

/-- Whether an import is an alias of something. -/
def importsAlias : Parse Bool := ahead do
  bump
  discard anyWord
  if ← atAnyWord then bump
  isMark "="

/-- A declaration of something defined elsewhere, after `declare`. -/
def declareTail : Parse Statement :=
  within (fun c => { c with ambient := true, await := false }) do
    guard (!(← isWord "import") || (← importsAlias))
    if ← startsFunction then functionDeclaration self true .forbidden else self.statement

/-- A declaration, if one begins at a word that has another use as well. Nothing in it awaits. -/
def contextualDeclaration? : Parse (Option Statement) := do
  unless (← dialect).typescript do return none
  if ← startsContextual then
    let declaration := match ← token with
      | .word "type" _ => typeAliasDeclaration self
      | .word "interface" _ => interfaceDeclaration self
      | .word "abstract" _ => classDeclaration self
      | _ => namespaceDeclaration self
    return some (← within outsideAwait declaration)
  else if (← isWord "declare") && (← nextOnLine startsDeclarable) then
    bump
    return some (← declareTail self)
  else return none

/-- A declaration that can follow `export`. -/
def exportableDeclaration : Parse Statement := do
  if (← isWord "const") && (← next (isWord "enum")) then enumerationDeclaration self
  else if ← startsVariables then variableDeclaration self
  else if ← isWord "enum" then enumerationDeclaration self
  else if ← startsFunction then functionDeclaration self true .possible
  else if (← isWord "class") || (← isMark "@") then classDeclaration self
  else
    match ← contextualDeclaration? self with
    | some s => return s
    | none => fail

end Parse

end Routebook.Source
