import Std.Data.HashSet
import Routebook.CommandLine.Run
import Routebook.CommandLine.Sources

/-!
# The executable

Reads from the disk what a run wants to see, lets the program run on that, and writes what it
changed.
-/

namespace Routebook.CommandLine

open Disk (Path Files)

/-- Add what the disk has at a path. Where nothing can be read there is nothing to add. -/
def observe (fs : Files) (p : Path) : IO Files := do
  let place := (← IO.currentDir) / p.text
  if ← place.isDir then return (fs.makeDirectories? p).getD fs
  try
    let text ← IO.FS.readFile place
    return (fs.include? p text).getD fs
  catch _ => return fs

/-- Add what is wanted until nothing new is. -/
partial def gather (config : Path) (seen : Std.HashSet String) (fs : Files) : IO Files := do
  let new := (wanted fs config).filter fun p => !seen.contains p.text
  if new.isEmpty then return fs
  gather config (seen.insertMany (new.map Path.text)) (← new.foldlM observe fs)

/-- The working directory, with nothing in it known yet. -/
def workingFiles : IO Files := do
  let here : Path := ⟨toString (← IO.currentDir)⟩
  let names := here.names
  return { ((⟨[], []⟩ : Files).makeDirectories? here).getD ⟨[], []⟩ with workingDirectory := names }

def commit (before after : Files) : IO Unit :=
  for (l, e) in after.changesSince before do
    let place := (Files.pathOf l).text
    match e with
    | .directory => IO.FS.createDirAll place
    | .file text => IO.FS.writeFile place text

def usage : String := "Usage: generate --config <FILE> [--verbose]"

end Routebook.CommandLine

open Routebook CommandLine in
def main (args : List String) : IO UInt32 := do
  match Arguments.read args with
  | .error e =>
    if e.exitCode = 0 then IO.println usage else IO.eprintln usage
    return e.exitCode
  | .ok a =>
    let before ← gather ⟨a.config⟩ {} (← workingFiles)
    -- A run without an outcome does not come back here.
    let some ending := program before args | return 1
    commit before ending.files
    if let some line := ending.headline then IO.eprintln line
    return ending.code
