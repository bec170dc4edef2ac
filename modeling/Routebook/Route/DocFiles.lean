import Routebook.Route.Doc
import Routebook.Session.Basic

/-!
# Documentation from files

The documentation of a group is collected from several source files. A file that cannot be read
documents nothing; it is not an error.
-/

namespace Routebook.RouteDocs

open Disk

/-- The documentation in some files; what a later file says of a route counts. -/
def ofFiles (fs : Files) (marker : String) (paths : List Path) : RouteDocs :=
  paths.foldl (fun docs p =>
    match Session.readProgram fs p with
    | .ok program => docs.extend (ofProgram marker program)
    | .error _ => docs) empty

end Routebook.RouteDocs
