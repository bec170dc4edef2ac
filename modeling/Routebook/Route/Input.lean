import Routebook.Document.SchemaOf
import Routebook.Route.Signature

/-!
# The input of a route

The input of a branch is an object type whose members say where values come from. Those in the
query, the path, the headers and the cookies are parameters; the others are the body, as Json or as
a form.
-/

namespace Routebook

open Disk (Files)

/-- The members of an input that hold parameters, in the order in which these are listed. -/
def parameterSources : List (String × ParameterPlace) :=
  [("query", .query), ("param", .path), ("header", .header), ("cookie", .cookie)]

/-- The members of an input that hold a body, with their media types. -/
def bodySources : List (String × String) :=
  [("json", "application/json"), ("form", "multipart/form-data")]

namespace Session

/-- The members of an object type or of an intersection, whose parts that are no objects have
none. -/
def inputMembers? (t : TypeExpr ModuleId) (fs : Files) (s : Session) :
    Option (Option (List (Member (TypeExpr ModuleId))) × Session) := Analysis.on (do
  let inner : TypeExpr ModuleId → Analysis (Option (List (Member (TypeExpr ModuleId)))) :=
    fun t fs s => s |>.inputMembers? t fs
  match ← resolve t with
  | .object ms => return some ms
  | .intersection parts => return some ((← parts.mapM inner).flatMap (·.getD []))
  | _ => return none) fs s
partial_fixpoint

/-- The members of an optional type. -/
def membersOf? (t : Option (TypeExpr ModuleId)) :
    Analysis (Option (List (Member (TypeExpr ModuleId)))) := do
  match t with
  | none => return none
  | some t => inputMembers? t

def parametersIn (input : List (Member (TypeExpr ModuleId))) (source : String)
    (place : ParameterPlace) : Analysis (List Parameter) := do
  match ← membersOf? ((Member.find? input source).map (·.type)) with
  | none => return []
  | some fields => fields.mapM fun f => do
    return ⟨f.name, place, !f.optional, ← schemaOf f.type⟩

def parameters (b : Branch) : Analysis (List Parameter) := do
  match ← membersOf? b.input with
  | none => return []
  | some input =>
    return (← parameterSources.mapM fun (source, place) => parametersIn input source place).flatten

def requestBody (b : Branch) : Analysis (Option RequestBody) := do
  match ← membersOf? b.input with
  | none => return none
  | some input =>
    let content ← bodySources.filterMapM fun (source, mediaType) => do
      match Member.find? input source with
      | none => return none
      | some m => return some (mediaType, ← schemaOf m.type)
    return if content.isEmpty then none else some ⟨true, content⟩

end Session

end Routebook
