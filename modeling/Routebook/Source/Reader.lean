import Routebook.Source.Grammar.Statement
import Routebook.Text.Cut

/-!
# Reading a file

The name of a file decides its language, and its first import or export decides whether `await`
means anything outside functions: **a file is read as a module first, and read again as a script if
it turns out to import and export nothing.**
-/

namespace Routebook.Source

/-- The rules of the language. A rule inside another has less fuel than it. -/
def rules : Nat → Rules
  | 0, _, _ => Parse.fail
  | n + 1, _, .type => Parse.typeRule (rules n)
  | n + 1, _, .expression => Parse.expressionRule (rules n)
  | n + 1, _, .assignment => Parse.assignmentRule (rules n)
  | n + 1, _, .binary level => Parse.binaryRule (rules n) level
  | n + 1, _, .unary => Parse.unaryRule (rules n)
  | n + 1, _, .leftHand calls => Parse.leftHandRule (rules n) calls
  | n + 1, _, .binding => Parse.bindingRule (rules n)
  | n + 1, _, .statement => Parse.statementRule (rules n)
  | n + 1, _, .markup => Parse.markupRule (rules n)

/-- Fuel for any file of this length: between two tokens only a few rules nest. -/
def fuelFor (text : List Char) : Nat := 8 * text.length + 64

namespace Parse

/-- Statements up to the end of the file. Strings that stand alone at the start are directions to
the engine and no statements. -/
def statements (self : Rules) : Parse (List Statement) := do
  let directives ← many do
    let start ← get
    unless (← token) matches .string _ do return none
    let s ← self.statement
    match s.parts with
    | [.string _] => return some ()
    | _ =>
      rewind start
      return none
  discard (pure directives)
  let ss ← many do
    if (← token) == .endOfFile then return none
    return some (← self.statement)
  guard ((← get).patterns == 0)
  return ss

end Parse

/-- The text of a file without a first line that names its interpreter. -/
def withoutInterpreter (text : List Char) : Cursor :=
  let text := match text with
    | c :: cs => if c.toNat = 0xFEFF then cs else c :: cs
    | [] => []
  match text with
  | '#' :: '!' :: cs => ⟨cs.dropWhile fun c => !isLineEnd c, 0⟩
  | cs => ⟨cs, 0⟩

/-- Read a file with `await` allowed outside functions or not; tells whether it is a module. -/
def readAs (dialect : Dialect) (await : Bool) (text : List Char) :
    Except SyntaxError (List Statement × Bool) := do
  let first ← Lexeme.read (withoutInterpreter text)
  let state : State :=
    { lexeme := first
      lastEnd := 0
      context := { await := await, ambient := dialect.definition }
      dialect := dialect
      isModule := false }
  match (Parse.statements (rules (fuelFor text))).run state with
  | .ok statements final => return (statements, final.isModule)
  | .error e _ => throw e

/-- How a file's name says it is to be read. -/
structure FileKind where
  dialect : Dialect
  /-- The name says whether the file is a module; otherwise its text does. -/
  isModule : Option Bool

def typed (markup definition : Bool) : Dialect := ⟨true, markup, definition⟩
def untyped (markup : Bool) : Dialect := ⟨false, markup, false⟩

/-- The parts of a file's name between its dots, the last first. -/
def nameParts (path : String) : List String :=
  let name := (Text.cutAt '/' path.toList).getLast?.getD []
  ((Text.cutAt '.' name).map String.ofList).reverse

/-- The kind of a file by its extension; any other file is typed and has no markup. A dot at the
start of a name begins no extension. A file that only declares has a `d` before its extension; in
front of `ts` another extension may stand between them. -/
def FileKind.ofName (path : String) : FileKind :=
  let other : FileKind := ⟨typed false false, none⟩
  match nameParts path with
  | [] | [_] | [_, ""] => other
  | extension :: stem =>
    let declares := stem.head? == some "d" && stem.length > 1
    match extension with
    | "ts" => ⟨typed false ((stem.take 2).contains "d"), none⟩
    | "mts" => ⟨typed false declares, some true⟩
    | "cts" => ⟨typed false declares, some false⟩
    | "tsx" => ⟨typed true false, none⟩
    | "js" => ⟨untyped false, none⟩
    | "jsx" => ⟨untyped true, none⟩
    | "mjs" => ⟨untyped false, some true⟩
    | "cjs" => ⟨untyped false, some false⟩
    | _ => other

def Program.read (name : String) (text : String) : Except SyntaxError Program := do
  let kind := FileKind.ofName name
  let program (ss : List Statement) : Program := ⟨ss, kind.dialect.definition⟩
  let read (await : Bool) := readAs kind.dialect await text.toList
  match kind.isModule with
  | some await => return program (← read await).1
  | none =>
    match read true with
    | .ok (statements, true) => return program statements
    | _ =>
      let (statements, isModule) ← read false
      if isModule then throw ⟨0⟩ else return program statements

end Routebook.Source
