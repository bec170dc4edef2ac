import Routebook.Source.Grammar.Basic

/-!
# Names

A word names something unless the language keeps it for itself. After a point, before a colon and
where a type refers to something any word will do.
-/

namespace Routebook.Source.Parse

/-- Words that never name a variable or a type. -/
def reservedWords : List String :=
  ["break", "case", "catch", "class", "const", "continue", "debugger", "default", "delete", "do",
   "else", "enum", "export", "extends", "false", "finally", "for", "function", "if", "import",
   "in", "instanceof", "new", "null", "return", "super", "switch", "this", "throw", "true", "try",
   "typeof", "var", "void", "while", "with"]

/-- Words that name nothing in strict code. -/
def strictWords : List String :=
  ["implements", "interface", "let", "package", "private", "protected", "public", "static"]

def isName (c : Context) : Token → Bool
  | .word w _ =>
    !reservedWords.contains w && !(c.await && w == "await") && !(c.yield && w == "yield")
  | _ => false

def atName : Parse Bool := return isName (← context) (← token)

def name : Parse String := do
  match ← token with
  | .word w e =>
    guard (isName (← context) (.word w e))
    bump
    return w
  | _ => fail

def anyWord : Parse String := do
  match ← token with
  | .word w _ =>
    bump
    return w
  | _ => fail

def atAnyWord : Parse Bool := return (← token) matches .word _ _

/-- Words joined by points after a first name. -/
def dottedAfter (first : String) : Parse String :=
  extend (fun n => do
    if ← eat "." then return some (n ++ "." ++ (← anyWord)) else return none) first

/-- Names joined by points; after the first point any word will do. -/
def dottedName : Parse String := do dottedAfter (← name)

def referredName : Parse String := do dottedAfter (← anyWord)

/-- A name of an import or export: a word or a string. -/
def moduleName : Parse String := do
  match ← token with
  | .string s =>
    bump
    return s
  | _ => anyWord

def stringText : Parse String := do
  match ← token with
  | .string s =>
    bump
    return s
  | _ => fail

def nextOnLine (test : Parse Bool) : Parse Bool := ahead do
  bump
  return !(← afterLine) && (← test)

def next (test : Parse Bool) : Parse Bool := ahead do
  bump
  test

/-- The key of a property: the name it has when the text fixes it, and the expression that computes
it. -/
structure Key where
  name : Option String
  computed : List Expr

/-- A property key. A key in brackets has a fixed name when the brackets hold a literal. -/
def propertyKey (self : Rules) : Parse Key := do
  match ← token with
  | .word w _ => bump; return ⟨some w, []⟩
  | .string s => bump; return ⟨some s, []⟩
  | .number n => bump; return ⟨some n.plain, []⟩
  | .bigint ds => bump; return ⟨some ds, []⟩
  | .mark "[" =>
    bump
    let first ← token
    let e ← within (fun c => { c with inOperator := true }) self.assignment
    expect "]"
    let fixed := match e, first with
      | .string s, _ => some s
      | .template [s] [], _ => some s
      | .number n, _ => some n.plain
      | .other [], .bigint ds => some ds
      | .other [], .word "null" _ => some "null"
      | .other [], .regex r => some r
      | _, _ => none
    return ⟨fixed, [e]⟩
  | _ => fail

def accessModifiers : List String := ["public", "private", "protected"]

/-- The modifiers that another one cannot come after. -/
def neverBefore : String → List String
  | "public" | "private" | "protected" =>
    accessModifiers ++ ["override", "static", "accessor", "readonly"]
  | "static" => ["readonly", "accessor", "override"]
  | "override" => ["readonly", "accessor"]
  | "abstract" => ["override", "accessor"]
  | _ => []

/-- Whether modifiers are in an order that members and parameters allow. -/
def inOrder : List String → Bool
  | [] => true
  | m :: ms => ms.all (fun n => !(neverBefore n).contains m) && inOrder ms

/-- The words that `place` takes for modifiers, as long as it does. None can be there twice. -/
def modifiersAt (place : String → Parse Bool) : Parse (List String) := do
  let ms ← many do
    match ← token with
    | .word w false =>
      if ← place w then
        bump
        return some w
      else return none
    | _ => return none
  guard (ms.all fun m => ms.count m == 1)
  return ms

end Routebook.Source.Parse
