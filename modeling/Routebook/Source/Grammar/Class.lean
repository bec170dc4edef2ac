import Routebook.Source.Grammar.Function

/-!
# Reading classes

A class keeps the expressions of its decorators, its parent, its computed keys, and the bodies and
initial values of its members.
-/

namespace Routebook.Source.Parse

variable (self : Rules)

/-- Whether a member's name, or a star before it, stands here. -/
def atMember : Parse Bool := return (← atKey) || (← isMark "*")

def classModifiers : Parse (List String) := do
  let ms ← modifiersAt fun w => do
    if w == "static" then next atMember
    else return memberModifiers.contains w && (← nextOnLine atMember)
  guard (inOrder ms && (ms.all ["static", "accessor"].contains || (← dialect).typescript))
  return ms

/-- The value of a property of a class, and the end of the member. An abstract property has no value
here, and one that is read and written by functions cannot be left out. -/
def fieldTail (modifiers : List String) : Parse (List Expr) := do
  if (← isAnyMark ["?", "!"]) then
    guard ((← dialect).typescript && !(modifiers.contains "accessor" && (← isMark "?")))
    bump
  let parts ← partsIn (typeMark? self)
  let value ← within (Context.inFunction false false) (initializer? self)
  guard !(modifiers.contains "abstract" && !value.isEmpty)
  semicolon
  return parts ++ value

/-- Whether a key is this name, written as it is or as a string. -/
def Key.isPlain (k : Key) (n : String) : Bool := k.name == some n && k.computed.isEmpty

/-- The key of a member of a class. A private name can be any but that of the constructor, and says
already who has access; what belongs to the class itself is not called `prototype`. -/
def classKey (modifiers : List String) : Parse Key := do
  match ← token with
  | .privateName n =>
    guard !(n == "constructor" || modifiers.any accessModifiers.contains)
    bump
    return ⟨none, []⟩
  | _ =>
    let key ← propertyKey self
    guard !(modifiers.contains "static" && key.isPlain "prototype")
    return key

/-- Whether the body of a method with these modifiers can stand here. -/
def methodBody (modifiers : List String) : BodyNeed :=
  if modifiers.contains "abstract" then .forbidden else .possible

/-- What constructs an object, after its name. -/
def constructorTail (modifiers : List String) : Parse (List Expr) := do
  guard (modifiers.all accessModifiers.contains)
  within (Context.inFunction false false) do
    let ps ← constructorParameters self true
    guard !(← isMark ":")
    return ps.parts ++ (← bodyTail self .possible)

/-- A member of a class, after its decorators and modifiers. A field cannot be `constructor`, and
neither can a method with a special role. -/
def classMemberTail (modifiers : List String) : Parse (List Expr) := do
  let static := modifiers.contains "static"
  let isFieldOnly := modifiers.any ["readonly", "declare", "accessor"].contains
  if (← isAnyWord ["get", "set"]) && (← next atMember) then
    let reads ← isWord "get"
    bump
    let key ← classKey self modifiers
    guard !(isFieldOnly || (!static && key.isPlain "constructor"))
    return key.computed ++ (← accessorTail self reads (methodBody modifiers))
  let async ← (return (← isWord "async") && (← nextOnLine atMember))
  if async then bump
  let generator ← eat "*"
  let key ← classKey self modifiers
  let isConstructor := !static && key.isPlain "constructor"
  if (← isMark "?") && (← next (return (← isMark "(") || (← atAngle))) then
    guard !isConstructor
    bump
  if (← isMark "(") || (← atAngle) then
    guard !isFieldOnly
    if isConstructor then
      guard (!async && !generator)
      constructorTail self modifiers
    else return key.computed ++ (← functionTail self async generator (methodBody modifiers))
  else
    guard !(async || generator || key.isPlain "constructor")
    return key.computed ++ (← fieldTail self modifiers)

/-- A member of a class. An index signature has no decorators, and says only whether it belongs to
the class itself and whether its values can be written. -/
def classMember : Parse (List Expr) := do
  if ← eat ";" then return []
  let ds ← decorators self
  if (← isWord "static") && (← next (isMark openBrace)) then
    guard ds.isEmpty
    bump
    let inStatic (c : Context) : Context :=
      { c with
        await := true, yield := false, returns := false, arrowReturnTypes := true
        decorates := false }
    within inStatic (block self)
  else
    let ms ← classModifiers
    if (← isMark "[") && (← dialect).typescript && (← atIndexSignature) then
      guard (ds.isEmpty && ms.all ["static", "readonly"].contains)
      partsIn (indexSignature self)
    else return ds ++ (← classMemberTail self ms)

def classInterface : Parse Unit := do
  discard referredName
  if ← atAngle then discard (typeArguments self)

/-- A class after its keyword: its name, if it has one, and its expressions. -/
def classTail : Parse (Option String × List Expr) := do
  let n ← if (← atName) && !(← isWord "implements") then some <$> name else pure none
  let parameters ← partsIn (typeParameters? self)
  let parent ← if ← eatWord "extends" then
      let e ← self.leftHand true
      let arguments ← if ← isMark "<" then partsIn (typeArguments self) else pure []
      pure (e :: arguments)
    else pure []
  let interfaces ← partsIn do
    if ← eatWord "implements" then
      guard (← dialect).typescript
      discard (separated "," (classInterface self))
  expect openBrace
  let members ← many do
    if ← isMark closeBrace then return none
    return some (← classMember self)
  expect closeBrace
  return (n, parameters ++ parent ++ interfaces ++ members.flatten)

end Routebook.Source.Parse
