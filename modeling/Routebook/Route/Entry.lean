import Routebook.Route.Path
import Routebook.Session.Expand
import Routebook.TypeExpr.Text

/-!
# Routes in the type of an application

The type of an application has its route table as second argument. A table is an object type keyed
by path, an intersection or a union of tables, or a table mounted at a path
(`MergeSchemaPath<Table, "/path">`). Walking it gives one *entry* for each object type, with the
path it is mounted at. **A mounted table whose path is not a string has no routes, and neither has
anything else that is no table.**

An application that no routes were chained to has the empty table; then there is nothing to walk,
and the routes have to be found in the source.
-/

namespace Routebook

open Disk (Files)

/-- An object type of a route table and the path it is mounted at. -/
structure RouteEntry where
  mount : String
  routes : List (Member (TypeExpr ModuleId))

inductive RouteNode where
  | table (routes : List (Member (TypeExpr ModuleId)))
  | joined (parts : List (TypeExpr ModuleId))
  | mounted (table path : TypeExpr ModuleId)
  | blank
  | other (type : TypeExpr ModuleId)

namespace Session

/-- The framework's own types, told by the names they are declared under. -/
def frameworkNode? (s : Session) (t : TypeExpr ModuleId) : Option RouteNode :=
  match s.canonicalName? t, t.args with
  | some "MergeSchemaPath", table :: path :: _ => some (.mounted table path)
  | some "BlankSchema", _ => some .blank
  | _, _ => none

/-- What a part of a route table is, before or after its names are resolved. -/
def routeNode (t : TypeExpr ModuleId) : Analysis RouteNode := do
  match frameworkNode? (← get) t with
  | some node => return node
  | none =>
    let shape ← resolve t
    match frameworkNode? (← get) shape with
    | some node => return node
    | none =>
      match shape with
      | .object ms => return .table ms
      | .intersection ts | .union ts => return .joined ts
      | _ => return .other shape

/-- The entries of a part of a route table that is mounted at a path. -/
def walk (mount : String) (node : RouteNode) (fs : Files) (s : Session) :
    Option (List RouteEntry × Session) := Analysis.on (do
  let inner : String → RouteNode → Analysis (List RouteEntry) :=
    fun mount node fs s => s |>.walk mount node fs
  match node with
  | .table ms => return [⟨mount, ms⟩]
  | .joined parts => do
    return (← parts.mapM fun t => do inner mount (← routeNode t)).flatten
  | .mounted table path => do
    match (← resolve path).string? with
    | none => return []
    | some p => inner (Path.join mount p) (← routeNode table)
  | .blank | .other _ => return []) fs s
partial_fixpoint

def entriesOf (table : TypeExpr ModuleId) : Analysis (Except Error (List RouteEntry)) := do
  match ← routeNode table with
  | .other t => return .error (.unsupportedRouteShape t.kind t.text)
  | node => return .ok (← walk "" node)

/-- The route table of an application's type; nothing when it is the empty one. -/
def routeTable (app : TypeExpr ModuleId) :
    Analysis (Except Error (Option (TypeExpr ModuleId))) := do
  let app ← resolve app
  match app with
  | .query .. => return .ok none
  | .reference .. | .imported .. =>
    match app.args with
    | _ :: table :: _ =>
      match ← routeNode table with
      | .blank | .table [] => return .ok none
      | _ => return .ok (some table)
    | args => return .error (.tooFewArguments app.text args.length)
  | _ => return .error (.notAnApp app.kind app.text)

/-- The entries of an application's type; nothing when its route table is the empty one. -/
def entries (app : TypeExpr ModuleId) : Analysis (Except Error (Option (List RouteEntry))) := do
  match ← routeTable app with
  | .error e => return .error e
  | .ok none => return .ok none
  | .ok (some table) =>
    match ← entriesOf table with
    | .error e => return .error e
    | .ok es => return .ok (some es)

end Session

end Routebook
