import Routebook.Document.Status
import Routebook.Route.Doc
import Routebook.Route.Entry
import Routebook.Route.Input

/-!
# The document of one application

Routes become operations: the path with its parameters in braces, summary and tags from the route's
documentation, parameters and body from its first branch, and one response for each status. **Of two
operations for one path and method the last counts.** Documentation belongs to the path as it is
written in the route's own table.
-/

namespace Routebook

abbrev Paths := Table PathItem

def Paths.put (ps : Paths) (path : String) (m : Method) (o : Operation) : Paths :=
  Table.update path (fun item => (item.getD .empty).put m o) ps

/-- An operation with what its documentation says. Without documentation it has a summary of its
own and the group's tag. -/
def documentedOperation (docs : RouteDocs) (group : String) (m : Method) (written path : String) :
    Operation :=
  let summary := "Auto-generated " ++ m.upper ++ " " ++ path
  match docs.get? ⟨m, written⟩ with
  | some d =>
    { summary := some (d.summary.getD summary)
      description := d.description
      tags := d.tags
      deprecated := d.deprecated }
  | none => { summary := some summary, tags := some [group] }

/-- The responses of a route that says nothing of them. -/
def defaultResponses : Table Response := [(defaultStatus, ⟨defaultDescription, none⟩)]

/-! ## Responses -/

/-- Schemas by status and media type, in order of first occurrence. -/
abbrev ResponseGroups := Table (Table (List Schema))

/-- The key of a branch's status. -/
def Branch.statusKey (b : Branch) : String :=
  match b.status with
  | some code => toString code
  | none => defaultStatus

def Branch.mediaType (b : Branch) : String :=
  if b.format = some "text" then "text/plain" else "application/json"

/-- Outputs that are no content. -/
def isNoContent : TypeExpr ModuleId → Bool
  | .keyword .null | .keyword .undefined | .keyword .void | .keyword .never => true
  | _ => false

/-- A status that is there, with no schema more than it has. -/
def ResponseGroups.addStatus (gs : ResponseGroups) (status : String) : ResponseGroups :=
  Table.update status (·.getD []) gs

/-- One more schema of a status and media type. -/
def ResponseGroups.addSchema (gs : ResponseGroups) (status mediaType : String) (s : Schema) :
    ResponseGroups :=
  Table.update status (fun content =>
    Table.update mediaType (fun ss => ss.getD [] ++ [s]) (content.getD [])) gs

/-- The schema of a media type: the only one, or a choice between all. -/
def choice : List Schema → Schema
  | [s] => s
  | ss => .ofAlternatives ss

def responseOf (status : String) (content : Table (List Schema)) : Response :=
  let content := content.map fun (mediaType, ss) => (mediaType, choice ss)
  ⟨statusDescription status, if content.isEmpty then none else some content⟩

namespace Session

/-- Add what a branch answers to the groups of responses. -/
def addBranch (gs : ResponseGroups) (b : Branch) : Analysis ResponseGroups := do
  let gs := gs.addStatus b.statusKey
  match b.output with
  | none => return gs
  | some output =>
    let output ← resolve output
    if isNoContent output then return gs
    else return gs.addSchema b.statusKey b.mediaType (← schemaOf output)

/-- The responses of some branches, one for each status in order of first occurrence. -/
def responses (branches : List Branch) : Analysis (Table Response) := do
  let groups ← branches.foldlM addBranch []
  return groups.map fun (status, content) => (status, responseOf status content)

/-! ## Operations -/

def operation (docs : RouteDocs) (group written path : String) (s : Signature) :
    Analysis Operation := do
  let base := documentedOperation docs group s.method written path
  let base ← match s.branches.head? with
    | none => pure base
    | some first => do
      let ps ← parameters first
      pure { base with parameters := ps, requestBody := ← requestBody first }
  let rs ← responses s.branches
  return { base with responses := if rs.isEmpty then defaultResponses else rs }

def addRoute (docs : RouteDocs) (group mount : String) (ps : Paths)
    (route : Member (TypeExpr ModuleId)) : Analysis Paths := do
  let path := Path.normalize (Path.join mount route.name)
  (← signatures route.type).foldlM (fun ps s => do
    return ps.put path s.method (← operation docs group route.name path s)) ps

def pathsOfEntries (docs : RouteDocs) (group : String) (es : List RouteEntry) : Analysis Paths :=
  es.foldlM (fun ps e => e.routes.foldlM (addRoute docs group e.mount) ps) []

end Session

/-- The paths of routes that were found in the source: each has the default response. -/
def pathsOfRoutes (docs : RouteDocs) (group : String) (routes : List FoundRoute) : Paths :=
  routes.foldl (fun ps r =>
    let path := Path.normalize r.path
    let o := documentedOperation docs group r.method r.path path
    ps.put path r.method { o with responses := defaultResponses }) []

end Routebook
