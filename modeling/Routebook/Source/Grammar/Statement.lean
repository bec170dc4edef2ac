import Routebook.Source.Grammar.Declaration

/-!
# Reading statements

Statements that neither declare nor import anything keep their expressions, those of the statements
inside them included.
-/

namespace Routebook.Source.Parse

variable (self : Rules)

/-! ## Imports and exports -/

def markModule : Parse Unit := modify fun s => { s with isModule := true }

/-- The name of an attribute: a word or a string. -/
def attributeKey : Parse String := do
  match ← token with
  | .string _ => stringText
  | _ => anyWord

/-- Attributes after the file an import or export names. None is there twice. -/
def attributes : Parse Unit := do
  if (← isWord "with") || ((← isWord "assert") && !(← afterLine)) then
    bump
    expect openBrace
    let keys ← commaList closeBrace do
      let key ← attributeKey
      expect ":"
      discard stringText
      return key
    guard (keys.all fun k => keys.count k == 1)

/-- The file that something is imported or exported from, and the end of the statement. -/
def fromFile : Parse String := do
  expectWord "from"
  let file ← stringText
  attributes
  semicolon
  return file

/-- How the names in braces are written: the first of a pair, the second of a pair, and one that
stands alone for both. -/
structure Naming where
  first : Parse String
  second : Parse String
  alone : Parse String

/-- A word that a file can have declared, so that it can be exported. -/
def declaredName : Parse String := do
  let w ← anyWord
  guard (!(reservedWords ++ strictWords).contains w)
  return w

/-- Imported names are bound in the file. -/
def Naming.imports : Naming := ⟨moduleName, name, name⟩

/-- Names that are handed on from one file to another can be anything. -/
def Naming.handedOn : Naming := ⟨moduleName, moduleName, moduleName⟩

/-- Names that the file itself declares. -/
def Naming.exports : Naming := ⟨declaredName, moduleName, declaredName⟩

/-- A name, and the name it is bound to if another follows. -/
def boundName (n : Naming) : Parse (String × String) := do
  if ← next (isWord "as") then
    let first ← n.first
    bump
    return (first, ← n.second)
  else
    let only ← n.alone
    return (only, only)

/-- A name in braces with the name it is bound to. Whether `type` and `as` are such names themselves
shows only by what comes after them. Where everything in the braces is a type, no name says so
again. -/
def specifier (n : Naming) (typeOnly : Bool) : Parse (String × String) := do
  let atModuleName : Parse Bool := return (← token) matches .word _ _ | .string _
  if (← isWord "type") && (← next atModuleName) then
    bump
    if !(← isWord "as") then
      guard !typeOnly
      boundName n
    else
      bump
      if ← eatWord "as" then
        unless ← atModuleName do return ("type", "as")
        guard !typeOnly
        return ("as", ← n.second)
      else if ← atModuleName then return ("type", ← n.second)
      else
        guard !typeOnly
        return ("as", "as")
  else boundName n

def specifiers (n : Naming) (typeOnly : Bool) : Parse (List (String × String)) := do
  expect openBrace
  commaList closeBrace (specifier n typeOnly)

/-- Whether a name is ahead after a word that says how it is imported. -/
def beforeImported : Parse Bool := ahead do
  bump
  if ← isWord "from" then next (return (← isWord "from") || (← isMark "=")) else atName

/-- `import type` rather than an import of something called `type`. -/
def atTypeModifier : Parse Bool := do
  return (← isWord "type") && ((← next (isAnyMark [openBrace, "*"])) || (← beforeImported))

/-- An alias of another file or of a name in a namespace. -/
def importAlias : Parse Statement := do
  discard name
  expect "="
  if (← isWord "require") && (← next (isMark "(")) then
    bump
    bump
    discard stringText
    expect ")"
  else discard referredName
  semicolon
  return .ofParts []

/-- The names that an import binds, each with the name it is exported by. Types are imported one by
one or under one name. -/
def importedNames (typeOnly : Bool) : Parse (List (String × Option String)) := do
  let default ← if ← atName then some <$> name else pure none
  let first := default.toList.map fun n => (n, some "default")
  if default.isSome && !(← eat ",") then return first
  guard !(typeOnly && default.isSome)
  if ← eat "*" then
    expectWord "as"
    return first ++ [(← name, none)]
  else
    let names ← specifiers .imports typeOnly
    return first ++ names.map fun (imported, bound) => (bound, some imported)

def importDeclaration : Parse Statement := do
  expectWord "import"
  markModule
  match ← token with
  | .string file =>
    bump
    attributes
    semicolon
    return ⟨.imports file [], []⟩
  | _ =>
    if (← isWord "source") && (← beforeImported) then
      bump
      let n ← name
      return ⟨.imports (← fromFile) [(n, some "default")], []⟩
    let typeOnly ← atTypeModifier
    if typeOnly then bump
    else if (← isWord "defer") && (← next (isMark "*")) then bump
    if (← atName) && (← next (isMark "=")) then
      guard (← dialect).typescript
      importAlias
    else
      let names ← importedNames typeOnly
      return ⟨.imports (← fromFile) names, []⟩

/-- What stands after `export default`. -/
def defaultExport : Parse Statement := do
  if ← startsFunction then
    return .ofParts (← functionDeclaration self false .possible).parts
  else if (← isWord "class") || (← isMark "@")
      || ((← isWord "abstract") && (← nextOnLine (isWord "class"))) then
    return .ofParts (← classDeclaration self).parts
  else if (← isWord "interface") && (← nextOnLine atName) && (← dialect).typescript then
    return .ofParts (← interfaceDeclaration self).parts
  else
    let e ← self.assignment
    semicolon
    return .ofParts [e]

/-- Whether `from` stands here and names a file. Before anything but a literal it ends the export of
names of this file. -/
def namesFile : Parse Bool := do
  if ← eatWord "from" then
    return match ← token with
      | .string _ | .number _ | .bigint _ | .regex _ => true
      | .word w _ => ["null", "true", "false"].contains w
      | _ => false
  else return false

def exportDeclaration : Parse Statement := do
  expectWord "export"
  markModule
  let typeOnly ← (return (← isWord "type") && (← next (isAnyMark ["*", openBrace])))
  if typeOnly then bump
  if ← eat "*" then
    if ← eatWord "as" then discard moduleName
    discard fromFile
    return .ofParts []
  else if ← isMark openBrace then
    if ← ahead (do discard (specifiers .handedOn typeOnly); namesFile) then
      let names ← specifiers .handedOn typeOnly
      return ⟨.exports (some (← fromFile)) names, []⟩
    else
      let names ← specifiers .exports typeOnly
      discard (eatWord "from")
      semicolon
      return ⟨.exports none names, []⟩
  else if ← eatWord "default" then defaultExport self
  else if ← eat "=" then
    let e ← self.assignment
    semicolon
    return .ofParts [e]
  else if (← isWord "as") && (← next (isWord "namespace")) then
    bump
    bump
    discard name
    semicolon
    return .ofParts []
  else if ← eatWord "import" then
    if ← atTypeModifier then bump
    importAlias
  else return (← exportableDeclaration self).exported

/-! ## Control flow -/

def condition : Parse (List Expr) := do
  expect "("
  let e ← self.expression
  expect ")"
  return [e]

/-- An expression up to a mark, which may stand here at once. -/
def expressionBefore (m : String) : Parse (List Expr) := do
  if ← eat m then return []
  else
    let e ← self.expression
    expect m
    return [e]

/-- The rest of a loop's head after what it begins with. Only a loop over all of something waits. -/
def loopHeadTail (waits : Bool) : Parse (List Expr) := do
  if ← eatWord "of" then
    let e ← self.assignment
    expect ")"
    return [e]
  guard !waits
  if ← eatWord "in" then
    let e ← self.expression
    expect ")"
    return [e]
  else
    expect ";"
    return (← expressionBefore self ";") ++ (← expressionBefore self ")")

/-- The one statement that a loop, a condition or a label holds. It declares nothing of its own,
except that a plain function can stand here, and `let` is a name. -/
def heldStatement : Parse (List Expr) := do
  guard !((← isWord "class") || (← startsUsing))
  guard !((← isWord "const") && !(← next (isWord "enum")))
  guard !((← isWord "function") && (← next (isMark "*")))
  guard !((← isWord "async") && (← nextOnLine (isWord "function")))
  if (← isWord "let") && !(← letIsName) then
    guard !(← next (isMark "["))
    bump
    semicolon
    return [.name "let"]
  else return (← self.statement).parts

/-- The variables at the head of a loop. Where the loop does not give them their values, they have to
have them. -/
def loopVariables : Parse (List Expr) := do
  let constant ← variableKeyword
  let ds ← declarators self
  unless ← isAnyWord ["of", "in"] do expectValues constant ds
  return ds.flatMap Prod.snd

/-- What a loop's head begins with if it declares nothing. `let` and `async` cannot stand before
`of`: they would read like the start of a declaration or of a function. -/
def loopTarget (waits : Bool) : Parse (List Expr) := do
  let atLet ← isWord "let"
  let atAsync ← isWord "async"
  let e ← self _ .expression
  if ← isAnyWord ["of", "in"] then
    expectTarget e
    guard !((← isWord "of") && (atLet || (atAsync && !waits && (e.expr matches .name _))))
  return [e.expr]

def startsLoopVariables : Parse Bool := do
  if ← isWord "let" then
    next (return ((← atAnyWord) && !(← isWord "in")) || (← isAnyMark ["[", openBrace]))
  else if ← isAnyWord ["var", "const"] then return true
  else return (← startsUsing) && !(← next (isWord "of"))

def forStatement : Parse (List Expr) := do
  expectWord "for"
  let waits ← eatWord "await"
  guard (!waits || (← context).await)
  expect "("
  let head ← if ← isMark ";" then pure []
    else within (fun c => { c with inOperator := false }) do
      if ← startsLoopVariables then loopVariables self else loopTarget self waits
  let rest ← loopHeadTail self waits
  return head ++ rest ++ (← heldStatement self)

def tryStatement : Parse (List Expr) := do
  expectWord "try"
  let body ← block self
  let handler ← if ← eatWord "catch" then
      let parts ← if ← eat "(" then
          let b ← self.binding
          let parts ← partsIn (typeMark? self)
          expect ")"
          pure (b.parts ++ parts)
        else pure []
      pure (some (parts ++ (← block self)))
    else pure none
  let finalizer ← if ← eatWord "finally" then some <$> block self else pure none
  guard (handler.isSome || finalizer.isSome)
  return body ++ handler.getD [] ++ finalizer.getD []

def switchCase : Parse (List Expr) := do
  let test ← if ← eatWord "default" then
      expect ":"
      pure []
    else
      expectWord "case"
      let e ← self.expression
      expect ":"
      pure [e]
  let body ← many do
    if (← isAnyWord ["case", "default"]) || (← isMark closeBrace) then return none
    guard !(← startsUsing)
    return some (← self.statement).parts
  return test ++ body.flatten

def switchStatement : Parse (List Expr) := do
  expectWord "switch"
  let subject ← condition self
  expect openBrace
  let cases ← many do
    if ← isMark closeBrace then return none
    return some (← switchCase self)
  expect closeBrace
  return subject ++ cases.flatten

def ifStatement : Parse (List Expr) := do
  expectWord "if"
  let test ← condition self
  let consequent ← heldStatement self
  if ← eatWord "else" then return test ++ consequent ++ (← heldStatement self)
  else return test ++ consequent

def jump : Parse (List Expr) := do
  bump
  if (← atName) && !(← afterLine) then discard name
  semicolon
  return []

def returnStatement : Parse (List Expr) := do
  guard (← context).returns
  bump
  if (← afterLine) || (← isAnyMark [";", closeBrace]) || (← token) == .endOfFile then
    semicolon
    return []
  else
    let e ← self.expression
    semicolon
    return [e]

/-- A statement that begins with a keyword of control flow. -/
def controlStatement? (w : String) : Parse (Option (List Expr)) := do
  match w with
  | "if" => some <$> ifStatement self
  | "for" => some <$> forStatement self
  | "while" =>
    bump
    return some ((← condition self) ++ (← heldStatement self))
  | "do" =>
    bump
    let body ← heldStatement self
    expectWord "while"
    let test ← condition self
    discard (eat ";")
    return some (body ++ test)
  | "with" =>
    bump
    return some ((← condition self) ++ (← heldStatement self))
  | "switch" => some <$> switchStatement self
  | "try" => some <$> tryStatement self
  | "return" => some <$> returnStatement self
  | "break" | "continue" => some <$> jump
  | "throw" =>
    bump
    guard !(← afterLine)
    let e ← self.expression
    semicolon
    return some [e]
  | "debugger" =>
    bump
    semicolon
    return some []
  | _ => return none

/-! ## Statements -/

/-- A statement that only holds an expression, or one with a label before it. -/
def expressionStatement : Parse Statement := do
  if (← atName) && (← next (isMark ":")) then
    bump
    bump
    return .ofParts (← heldStatement self)
  let e ← self.expression
  semicolon
  return .ofParts [e]

def wordStatement (w : String) : Parse Statement := do
  match ← controlStatement? self w with
  | some parts => return .ofParts parts
  | none =>
    if w == "import" && !(← next (isAnyMark ["(", "."])) then importDeclaration
    else if w == "export" then exportDeclaration self
    else if ["const", "var", "let", "using", "await", "enum", "function", "class"].contains w
        || (w == "async" && (← nextOnLine (isWord "function"))) then
      if ← startsUsing then variableDeclaration self
      else if (w == "let" && !(← startsVariables)) || w == "using" || w == "await" then
        expressionStatement self
      else exportableDeclaration self
    else
      match ← contextualDeclaration? self with
      | some s => return s
      | none => expressionStatement self

/-- A class after decorators. It can be exported, but then no more decorators follow. -/
def decoratedClass : Parse Statement := do
  let ds ← decorators self
  let s ← if ← isWord "export" then
      guard (← ahead do
        bump
        discard (eatWord "default")
        startsClass)
      exportDeclaration self
    else classDeclaration self
  return ⟨s.meaning, ds ++ s.parts⟩

def statementRule : Parse Statement := do
  match ← token with
  | .word w false => wordStatement self w
  | .mark "\x7b" => return .ofParts (← block self)
  | .mark ";" =>
    bump
    return .ofParts []
  | .mark "@" => decoratedClass self
  | _ => expressionStatement self

end Routebook.Source.Parse
