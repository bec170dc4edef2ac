import Routebook.Disk.Files
import Routebook.Error
import Routebook.Session.Module
import Routebook.Source.Reader

/-!
# Sessions

A session holds the modules that have been loaded so far. **Modules are only ever appended and
never change,** so a number stands for the same module for good. A file is loaded once, whatever
path leads to it; a file that cannot be read leaves the session as it was.

An `Analysis` may look at the files and add to the session. **One that goes on for ever has no
outcome**: a type can be written so that it has no finite form. An analysis that calls itself is the
least solution of its equation, and before its first step it names itself as an analysis.
-/

namespace Routebook

open Disk

/-- Names under which files can be imported besides their paths: patterns with at most one star that
counts, and the paths each can stand for. -/
structure PathAliases where
  base : Path
  patterns : List (String × List String)
  deriving Repr, DecidableEq, Inhabited

def PathAliases.empty : PathAliases := ⟨⟨""⟩, []⟩

structure Session where
  aliases : PathAliases
  modules : List Module
  /-- The modules by the location of their files. -/
  locations : List (List String × ModuleId)
  /-- The interfaces that are being expanded, innermost first. -/
  expanding : List (ModuleId × String)

def Session.start (aliases : PathAliases) : Session := ⟨aliases, [], [], []⟩

abbrev Analysis := ReaderT Files (StateT Session Option)

/-- What an analysis comes to, and the session as it is then. -/
abbrev Analysis.on {α : Type} (a : Analysis α) (fs : Files) (s : Session) : Option (α × Session) :=
  (a.run fs).run s

namespace Session

/-- The name under which a session remembers a file: its location, or its path where nothing is
found. -/
def fileKey (fs : Files) (p : Path) : List String :=
  match fs.canonical? p with
  | some l => "/" :: l
  | none => p.key

def readProgram (fs : Files) (p : Path) : Except Error Source.Program :=
  match fs.read? p with
  | none => .error (.io p)
  | some text =>
    match Source.Program.read (p.fileName?.getD "") text with
    | .ok program => .ok program
    | .error _ => .error (.parse p)

/-- Add a source file, unless it is there already. -/
def addFile (p : Path) : Analysis (Except Error ModuleId) := do
  let fs ← read
  let s ← get
  let key := fileKey fs p
  match s.locations.lookup key with
  | some id => return .ok id
  | none =>
    match readProgram fs p with
    | .error e => return .error e
    | .ok program =>
      let id := s.modules.length
      set { s with
        modules := s.modules ++ [Module.ofProgram id p program]
        locations := s.locations ++ [(key, id)] }
      return .ok id

def module? (m : ModuleId) : Analysis (Option Module) := return (← get).modules[m]?

/-- The body of the type alias that a module exports as its application's type. Without a name it is
the alias exported as `AppType`, or else the first that is exported. -/
def appType (s : Session) (m : ModuleId) (name : Option String) :
    Except Error (TypeExpr ModuleId) :=
  match s.modules[m]? with
  | none => .error (.missingAppType ⟨""⟩ "")
  | some x =>
    let name := name.or <|
      if x.exportedAliases.contains "AppType" then some "AppType" else x.exportedAliases.head?
    match name with
    | none => .error (.missingAppType x.path "<exported type alias>")
    | some name =>
      match x.declarations.get? ((x.renames.get? name).getD name) with
      | some (.typeAlias _ body) => .ok body
      | _ => .error (.missingAppType x.path name)

end Session

end Routebook
