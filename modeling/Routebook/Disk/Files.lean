import Routebook.Disk.Path

/-!
# A tree of files

`Files` is what a run sees of the disk: directories and text files by their location, a list of
names from the root. There are no links, so **every file has one location**, which is what
`canonical?` finds; a path reaches it by walking name by name, and `..` goes back only from a
directory that is there.
-/

namespace Routebook.Disk

abbrev Location := List String

inductive Entry where
  | directory
  | file (text : String)
  deriving Repr, DecidableEq

structure Files where
  /-- Where paths that are not absolute begin. -/
  workingDirectory : Location
  entries : List (Location × Entry)

namespace Files

/-- What is at a location. The root is always a directory. -/
def entry? (fs : Files) (l : Location) : Option Entry :=
  if l = [] then some .directory else fs.entries.lookup l

def isDirectoryAt (fs : Files) (l : Location) : Bool := fs.entry? l == some .directory

/-- A name that a directory can hold: at most 255 bytes, and no null character. -/
def isLegalName (n : String) : Bool := n.utf8ByteSize ≤ 255 && !n.toList.contains '\x00'

/-- Follow names from a location. The last name need not exist. -/
def walk (fs : Files) : Location → List String → Option Location
  | l, [] => some l
  | l, n :: ns =>
    if !fs.isDirectoryAt l then none
    else if n == "." then walk fs l ns
    else if n == ".." then walk fs l.dropLast ns
    else if isLegalName n then walk fs (l ++ [n]) ns
    else none

/-- The names a path is followed by. A slash at the end asks for a directory. -/
def steps (p : Path) : List String :=
  let parts := (Text.cutAt '/' p.text.toList).map String.ofList
  let names := parts.filter (· != "")
  if parts.getLast? == some "" && !names.isEmpty then names ++ ["."] else names

/-- Where a path leads; its last name need not exist. -/
def locate (fs : Files) (p : Path) : Option Location :=
  if p.text == "" then none
  else fs.walk (if p.isAbsolute then [] else fs.workingDirectory) (steps p)

def lookup (fs : Files) (p : Path) : Option Entry := (fs.locate p).bind fs.entry?

/-- The location of something that exists. -/
def canonical? (fs : Files) (p : Path) : Option Location :=
  (fs.locate p).filter fun l => (fs.entry? l).isSome

def exists? (fs : Files) (p : Path) : Bool := (fs.lookup p).isSome

def read? (fs : Files) (p : Path) : Option String :=
  match fs.lookup p with
  | some (.file text) => some text
  | _ => none

def isFile (fs : Files) (p : Path) : Bool := (fs.read? p).isSome

/-! ## Changes -/

/-- Put an entry at a location, in the place of what is there. -/
def put (fs : Files) (l : Location) (e : Entry) : Files :=
  let replace (x : Location × Entry) : Location × Entry := if x.1 = l then (l, e) else x
  if fs.entries.any (·.1 = l) then { fs with entries := fs.entries.map replace }
  else { fs with entries := fs.entries ++ [(l, e)] }

/-- Write a file into a directory that is there. -/
def write? (fs : Files) (p : Path) (text : String) : Option Files := do
  let l ← fs.locate p
  if fs.isDirectoryAt l then none else some (fs.put l (.file text))

def remove? (fs : Files) (p : Path) : Option Files := do
  let l ← fs.locate p
  match fs.entry? l with
  | some (.file _) => some { fs with entries := fs.entries.filter fun e => e.1 ≠ l }
  | _ => none

/-- Follow names and make the directories that are missing on the way. -/
def makeFrom (fs : Files) : Location → List String → Option Files
  | l, [] => if fs.isDirectoryAt l then some fs else none
  | l, n :: ns =>
    if !fs.isDirectoryAt l then none
    else if n == "." then makeFrom fs l ns
    else if n == ".." then makeFrom fs l.dropLast ns
    else if !isLegalName n then none
    else match fs.entry? (l ++ [n]) with
      | some .directory => makeFrom fs (l ++ [n]) ns
      | some (.file _) => none
      | none => makeFrom (fs.put (l ++ [n]) .directory) (l ++ [n]) ns

/-- Make a directory and the directories it is in. -/
def makeDirectories? (fs : Files) (p : Path) : Option Files :=
  if p.text == "" then some fs
  else fs.makeFrom (if p.isAbsolute then [] else fs.workingDirectory) (steps p)

/-- Write a file, and make the directories it is in. -/
def include? (fs : Files) (p : Path) (text : String) : Option Files := do
  (← fs.makeDirectories? (p.parent?.getD ⟨""⟩)).write? p text

/-- What is there now and was not there like this before. -/
def changesSince (now before : Files) : List (Location × Entry) :=
  now.entries.filter fun (l, e) => before.entry? l != some e

/-- The absolute path of a location. -/
def pathOf (l : Location) : Path := ⟨"/" ++ "/".intercalate l⟩

end Files

end Routebook.Disk
