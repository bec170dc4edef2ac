import Routebook.Disk.Path
import Routebook.Document.Basic
import Routebook.Unicode.Case

/-!
# Configurations

What a run is asked to do: the groups of routes to document, in order, and the document they are
merged into. Each group has an intermediate file of its own, named after the group (`fileName`):
**a word of small letters, digits and single hyphens,** so that it never leaves its directory.
-/

namespace Routebook

open Disk (Path)

/-- What is said by hand of one operation. It takes the place of what is known otherwise. -/
structure ManualEntry where
  path : String
  method : String
  summary : Option String
  description : Option String
  tags : Option (List String)
  deriving Repr, DecidableEq, Inhabited

/-- Paths that are left out: one path, or all that hold a pattern. -/
inductive Exclusion where
  | literal (path : String)
  | pattern (text : String)
  deriving Repr, DecidableEq, Inhabited

structure Group where
  name : String
  appTypePath : Path
  appTypeName : Option String := none
  routesPath : Option Path := none
  docPaths : List Path := []
  manual : List ManualEntry := []
  exclusions : List Exclusion := []
  /-- What is put before every path of the group. -/
  mount : Option String := none
  deriving Repr, DecidableEq, Inhabited

structure Config where
  tsConfig : Option Path := none
  openapi : String
  info : Info
  servers : Option (List Server) := none
  output : Path
  tempDirectory : Option Path := none
  /-- The function whose calls document routes. -/
  docMarker : String
  groups : List Group
  deriving Repr, DecidableEq, Inhabited

/-- The function whose calls document routes when nothing else is said. -/
def defaultDocMarker : String := "describeRoute"

namespace Group

/-- The source that is searched for routes, and first for documentation. -/
def routesSource (g : Group) : Path := g.routesPath.getD g.appTypePath

/-- The sources that are searched for documentation, each once. -/
def docSources (g : Group) : List Path :=
  g.docPaths.foldl (fun ps p => if ps.any fun q => q.key = p.key then ps else ps ++ [p])
    [g.routesSource]

/-! ## The intermediate file -/

/-- The runs of letters and digits of ASCII, in order. -/
def wordsFrom : List Char → List Char → List (List Char)
  | word, [] => if word = [] then [] else [word]
  | word, c :: cs =>
    if c.isAlphanum then wordsFrom (word ++ [c]) cs
    else if word = [] then wordsFrom [] cs
    else word :: wordsFrom [] cs

/-- Words with a hyphen between each and the next. -/
def hyphenated : List (List Char) → List Char
  | [] => []
  | [w] => w
  | w :: ws => w ++ '-' :: hyphenated ws

/-- The words of a name in small letters; a name without any counts as one word. -/
def nameWords (name : String) : List (List Char) :=
  match wordsFrom [] (Unicode.lower name.toList) with
  | [] => ["group".toList]
  | ws => ws

def fileName (g : Group) : String := String.ofList (hyphenated (nameWords g.name)) ++ ".json"

end Group

namespace Config

/-- The directory of the intermediate files: beside the output unless another is given. -/
def intermediateDirectory (c : Config) : Path :=
  c.tempDirectory.getD ((c.output.parent?.getD ⟨"."⟩).join ".openapi-groups")

def intermediateFile (c : Config) (g : Group) : Path := c.intermediateDirectory.join g.fileName

/-- The same configuration with its paths from a directory. -/
def fromDirectory (base : Path) (c : Config) : Config :=
  let place (p : Path) : Path := base.join p.text
  { c with
    tsConfig := c.tsConfig.map place
    output := place c.output
    tempDirectory := c.tempDirectory.map place
    groups := c.groups.map fun g =>
      { g with
        appTypePath := place g.appTypePath
        routesPath := g.routesPath.map place
        docPaths := g.docPaths.map place } }

end Config

end Routebook
