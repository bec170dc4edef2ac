import Routebook.Document.Json
import Routebook.Document.Status
import Routebook.Disk.Files
import Routebook.Error
import Routebook.Json.Reader
import Routebook.Merge.Exclusions

/-!
# Merging groups

The documents of the groups become one. Each group's paths go under its mount point, without those
it leaves out; what is said by hand of an operation takes the place of what the document says, and
an operation without tags gets the group's name. **Of two operations for one path and method the
later counts, and a path keeps the place where it first occurred.** A group that fails leaves
nothing but its tag.
-/

namespace Routebook

structure Merged where
  tags : List String
  paths : Table PathItem

/-! ## What is said by hand -/

/-- How an operation is looked up: its method and its path, whose last slashes do not count. -/
def manualKey (method path : String) : String :=
  let path := Path.withoutTrailingSlashes path
  method ++ " " ++ if path = "" then "/" else path

def ManualEntry.key (e : ManualEntry) : String :=
  manualKey (String.ofList (Unicode.lower e.method.toList)) (Path.normalize e.path)

/-- The last entry for an operation. -/
def Group.manualEntry? (g : Group) (m : Method) (path : String) : Option ManualEntry :=
  g.manual.reverse.find? fun e => e.key = manualKey m.lower path

/-- An operation with what an entry says in place of what it said before. -/
def ManualEntry.apply (e : ManualEntry) (o : Operation) : Operation :=
  { o with
    summary := e.summary.or o.summary
    description := e.description.or o.description
    tags := e.tags.or o.tags }

/-! ## One operation -/

/-- Whether a text holds another. -/
def holdsText (part : List Char) : List Char → Bool
  | [] => part.isEmpty
  | c :: cs => part.isPrefixOf (c :: cs) || holdsText part cs

/-- A type that was written where a description should be is known by an import in it. -/
def Response.isTypeDump (r : Response) : Bool :=
  holdsText "import(".toList r.description.toList

/-- A response whose description is a type gets the default description, or goes if it has no
content. -/
def Response.cleaned? (r : Response) : Option Response :=
  if !r.isTypeDump then some r
  else if (r.content.getD []).isEmpty then none
  else some { r with description := defaultDescription }

/-- The responses that are left, each in its place. -/
def cleanedResponses (rs : Table Response) : Table Response :=
  rs.filterMap fun (status, r) => r.cleaned?.map fun r => (status, r)

/-- An operation with tags; without any it gets the given one. -/
def Operation.withTag (tag : String) (o : Operation) : Operation :=
  if (o.tags.getD []).isEmpty then { o with tags := some [tag] } else o

/-- An operation as a group contributes it. -/
def Group.contribute (g : Group) (path : String) (m : Method) (o : Operation) : Operation :=
  let o := match g.manualEntry? m path with
    | some e => e.apply o
    | none => o
  let o := o.withTag g.name
  { o with responses := cleanedResponses o.responses }

/-! ## Groups -/

/-- A path of a group's document in the merged document. -/
def Group.fullPath (g : Group) (path : String) : String :=
  Path.normalize (Path.join ((g.mount.map Path.normalize).getD "") path)

namespace Merged

def empty : Merged := ⟨[], []⟩

def addTag (m : Merged) (name : String) : Merged :=
  if m.tags.contains name then m else { m with tags := m.tags ++ [name] }

def addPath (g : Group) (rules : Exclusions) (ps : Table PathItem) (entry : String × PathItem) :
    Table PathItem :=
  let path := g.fullPath entry.1
  if rules.excludes path then ps
  else
    let item := entry.2.mapOperations (g.contribute path)
    Table.update path (fun old => (old.getD .empty).merge item) ps

def addGroup [PatternEngine] (m : Merged) (g : Group) (d : Document) : Merged × Option Error :=
  let m := m.addTag g.name
  match Exclusions.ofList g.exclusions with
  | .error pattern => (m, some (.invalidConfig (.badPattern none pattern)))
  | .ok rules => ({ m with paths := d.paths.foldl (addPath g rules) m.paths }, none)

/-- Merge the document in a file. A file that is not there is passed over. -/
def addFile [PatternEngine] (fs : Disk.Files) (m : Merged) (g : Group) (file : Disk.Path) :
    Merged × Option Error :=
  let m := m.addTag g.name
  if !fs.exists? file then (m, none)
  else match fs.read? file with
    | none => (m, some (.io file))
    | some text =>
      match (Json.read? text).bind Document.ofJson? with
      | none => (m, some (.malformedDocument .json))
      | some d => m.addGroup g d

def document (m : Merged) (openapi : String) (info : Info) (servers : Option (List Server)) :
    Document :=
  ⟨openapi, info, servers, some m.tags, m.paths⟩

end Merged

end Routebook
