import Routebook.CommandLine.Arguments
import Routebook.Generate.Run
import Routebook.Pattern.Reader

/-!
# The program

What the program does with its arguments and the files it finds, and what it says if it fails. **Here
patterns get their engine:** nothing before this module depends on which one it is.
-/

namespace Routebook.CommandLine

open Disk (Path Files)

/-- Run `generate` on some files: the outcome and the files as they are then. -/
def generate [PatternEngine] (fs : Files) (config : String) :
    Option (Except Failure Summary × Files) :=
  let p : Path := ⟨config⟩
  if !fs.isFile p then some (.error ⟨["Config file does not exist: " ++ config], .refused⟩, fs)
  else match Config.load fs p with
    | .error e => some (.error ((Failure.ofError e).inside ("Failed to load config " ++ config)), fs)
    | .ok c => do
      let (outcome, w) ← (Workspace.start c fs).perform c.run
      return (outcome, w.files)

/-- What a failed run says first: the outermost thing it was doing, or the error itself. -/
def headline (f : Failure) : String :=
  "Error: " ++ match f.context, f.cause with
    | step :: _, _ => step
    | [], .error e => e.message
    | [], _ => ""

structure Ending where
  code : UInt32
  headline : Option String
  files : Files

def program [PatternEngine] (fs : Files) (args : List String) : Option Ending :=
  match Arguments.read args with
  | .error e => some ⟨e.exitCode, none, fs⟩
  | .ok a => do
    match ← generate fs a.config with
    | (.ok _, fs) => return ⟨0, none, fs⟩
    | (.error f, fs) => return ⟨1, some (headline f), fs⟩

-- From here on patterns are read by the engine that the program is run with.
attribute [instance] Pattern.engine

end Routebook.CommandLine
