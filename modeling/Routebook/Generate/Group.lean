import Routebook.Config.Basic
import Routebook.Document.Build
import Routebook.Generate.Basic
import Routebook.Route.DocFiles
import Routebook.Route.Scan

/-!
# The document of a group

The routes of a group are those of its application's type. **Where the type says nothing of them,
the group's source is searched for routes instead.**
-/

namespace Routebook

/-- The document of some paths, under a configuration's headings. -/
def Config.documentOf (c : Config) (paths : Paths) : Document :=
  ⟨c.openapi, c.info, c.servers, none, paths⟩

namespace Generation

/-- The routes of the group's source. -/
def foundPaths (docs : RouteDocs) (g : Group) : Generation Paths := do
  let program ← ofExcept (Session.readProgram (← get).files g.routesSource)
  return pathsOfRoutes docs g.name program.routes

/-- The document of a group, and whether its routes were found by searching. -/
def group (c : Config) (g : Group) : Generation (Document × Bool) := do
  let m ← ofExcept (← analyse (Session.addFile g.appTypePath))
  let app ← ofExcept ((← get).session.appType m g.appTypeName)
  let docs := RouteDocs.ofFiles (← get).files c.docMarker g.docSources
  match ← ofExcept (← analyse (Session.entries app)) with
  | some es =>
    let paths ← analyse (Session.pathsOfEntries docs g.name es)
    return (c.documentOf paths, false)
  | none => return (c.documentOf (← foundPaths docs g), true)

end Generation

end Routebook
