import Routebook.Document.Basic
import Routebook.Session.Expand
import Routebook.TypeExpr.Text

/-!
# The schema of a type

Every type has a schema; a shape that schemas cannot express has the empty one. Named types are
expanded through the session, and **a named type inside itself is cut off with the empty schema.**
Names are told apart by their text and by the module they are written in.

In a union, `null` and `undefined` are no alternatives, names of unions and literals are seen
through, and strings alone make an enumeration.
-/

namespace Routebook.Session

open Disk (Files)

/-- A named type as it is remembered while it is expanded. -/
abbrev NameKey := ModuleId × String

/-- The key of a type that has a name. -/
def nameKey? (t : TypeExpr ModuleId) : Option NameKey :=
  match t with
  | .reference _ _ m | .imported _ _ _ m | .query _ m => some (m, t.text)
  | _ => none

/-- The members of a union, with nested unions spliced in and the names of literals and keywords
replaced by them. -/
def flattenUnion (ms : List (TypeExpr ModuleId)) (fs : Files) (s : Session) :
    Option (List (TypeExpr ModuleId) × Session) := Analysis.on (do
  let inner : List (TypeExpr ModuleId) → Analysis (List (TypeExpr ModuleId)) :=
    fun ms fs s => s |>.flattenUnion ms fs
  let parts ← ms.mapM fun t => do
    match t with
    | .reference .. | .imported .. =>
      match ← resolve t with
      | .union ms => inner ms
      | .literal l => return [.literal l]
      | .keyword k => return [.keyword k]
      | _ => return [t]
    | .union ms => inner ms
    | _ => return [t]
  return parts.flatten) fs s
partial_fixpoint

/-- The enumeration of a union of strings, which may be nullable. -/
def enumerationSchema (values : List String) (nullable : Bool) : Schema :=
  { type := some "string"
    enumeration := some values
    nullable := if nullable then some true else none }

def literalSchema : Literal → Schema
  | .string s => { type := some "string", enumeration := some [s] }
  | .number _ => .ofType "number"
  | .boolean _ => .ofType "boolean"

def boolean? : TypeExpr ModuleId → Option Bool
  | .literal (.boolean b) => some b
  | _ => none

/-- The members of a union that get a schema of their own. `null` and `undefined` get none, and
where both truth values are there, `false` gets none because `true` stands for both. -/
def alternatives (ms : List (TypeExpr ModuleId)) : List (TypeExpr ModuleId) :=
  let has (b : Bool) : Bool := ms.any fun t => boolean? t == some b
  let both := has true && has false
  ms.filter fun t => !t.isNullish && !(both && boolean? t == some false)

/-- The schema of an object from the schemas of its members. A name that comes twice is one
property, but is required as often as it comes. -/
def objectSchema (members : List (String × Bool × Schema)) : Schema :=
  let required := (members.filter fun m => !m.2.1).map Prod.fst
  { type := some "object"
    properties := some (Table.ofEntries (members.map fun m => (m.1, m.2.2)))
    required := if required.isEmpty then none else some required }

/-- What the schema of a type without a name of its own is made of. -/
inductive SchemaPlan where
  | leaf (schema : Schema)
  | array (element : TypeExpr ModuleId)
  | object (members : List (Member (TypeExpr ModuleId)))
  | alternatives (types : List (TypeExpr ModuleId))

namespace SchemaPlan

/-- The types of which the schemas are the parts. -/
def parts : SchemaPlan → List (TypeExpr ModuleId)
  | leaf _ => []
  | array t => [t]
  | object ms => ms.map Member.type
  | alternatives ts => ts

/-- What the schemas of the parts come to. -/
def assemble : SchemaPlan → List Schema → Schema
  | leaf x, _ => x
  | array _, xs => { type := some "array", items := xs.head? }
  | object ms, xs => objectSchema ((ms.zip xs).map fun (m, x) => (m.name, m.optional, x))
  | alternatives _, xs => .ofAlternatives xs

end SchemaPlan

def planOf : TypeExpr ModuleId → Analysis SchemaPlan
  | .union ms => do
    let flat ← flattenUnion ms
    let present := flat.filter fun m => !m.isNullish
    match present.mapM TypeExpr.string? with
    | some values => return .leaf (enumerationSchema values (flat.any TypeExpr.isNullish))
    | none => return .alternatives (alternatives flat)
  | .keyword .string => return .leaf (.ofType "string")
  | .keyword .number => return .leaf (.ofType "number")
  | .keyword .boolean => return .leaf (.ofType "boolean")
  | .literal l => return .leaf (literalSchema l)
  | .array element => return .array element
  | .object ms => return .object ms
  | _ => return .leaf {}

/-- The schema of a type inside the named types that are being expanded. -/
def schemaWithin (open_ : List NameKey) (t : TypeExpr ModuleId) (fs : Files) (s : Session) :
    Option (Schema × Session) := Analysis.on (do
  let inner : List NameKey → TypeExpr ModuleId → Analysis Schema :=
    fun open_ t fs s => s |>.schemaWithin open_ t fs
  match nameKey? t with
  | some key => do
    if open_.contains key then return {}
    match ← expand t with
    | some expanded => inner (key :: open_) expanded
    | none => return {}
  | none => do
    let plan ← planOf t
    return plan.assemble (← plan.parts.mapM (inner open_))) fs s
partial_fixpoint

def schemaOf (t : TypeExpr ModuleId) : Analysis Schema := schemaWithin [] t

end Routebook.Session
