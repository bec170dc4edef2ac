import Routebook.Disk.Files
import Routebook.Document.Json
import Routebook.Error
import Routebook.Json.Writer
import Routebook.Session.Basic
import Routebook.Yaml.Writer

/-!
# Steps of a run

A run reads sources into a session and writes documents to files. A `Generation` is a step of it:
**a step that fails leaves the files and the session as they are at that point,** and the failure
says what the run was doing. A step whose analysis goes on for ever has no outcome.
-/

namespace Routebook

open Disk (Path Files)

structure Workspace where
  files : Files
  session : Session

abbrev Generation := ExceptT Failure (StateT Workspace Option)

/-- The outcome of a step, and the workspace as it is then. -/
def Workspace.perform {α : Type} (w : Workspace) (step : Generation α) :
    Option (Except Failure α × Workspace) :=
  (ExceptT.run step).run w

/-! ## Documents as text -/

/-- The format of a file, by the ending of its name in any case: Yaml for `yaml` and `yml`. -/
def Format.ofPath (p : Path) : Format :=
  match (p.extension?).map fun e => e.toList.map Char.toLower with
  | some cs => if cs = "yaml".toList ∨ cs = "yml".toList then .yaml else .json
  | none => .json

def Document.text (d : Document) : Format → String
  | .json => d.toJson.pretty
  | .yaml => Yaml.write d.toJson

namespace Generation

def fail {α : Type} (f : Failure) : Generation α := throw f

/-- The outcome of something that has causes of its own to fail. -/
def ofExcept {α : Type} : Except Error α → Generation α
  | .ok a => pure a
  | .error e => fail (.ofError e)

/-- A step whose failures say what it was for. -/
def inside {α : Type} (purpose : String) (step : Generation α) : Generation α := fun w => do
  match ← w.perform step with
  | (.ok a, w) => return (.ok a, w)
  | (.error f, w) => return (.error (f.inside purpose), w)

/-- Look at the files and add to the session. -/
def analyse {α : Type} (a : Analysis α) : Generation α := fun w => do
  let (x, s) ← a.on w.files w.session
  return (.ok x, { w with session := s })

/-- Put changed files in the place of the old, or fail. -/
def change (purpose : String) (files : Option Files) : Generation Unit := do
  match files with
  | some fs => modify fun w => { w with files := fs }
  | none => fail ⟨[purpose], .disk⟩

/-- Write a file, and make the directories it is in. -/
def writeFile (p : Path) (text : String) : Generation Unit := do
  match p.parent? with
  | some dir =>
    change ("Failed to create directory: " ++ dir.text) ((← get).files.makeDirectories? dir)
  | none => pure ()
  change ("Failed to write to file: " ++ p.text) ((← get).files.write? p text)

end Generation

end Routebook
