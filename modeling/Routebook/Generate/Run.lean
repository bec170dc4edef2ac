import Routebook.Config.Load
import Routebook.Generate.Group
import Routebook.Merge.Basic

/-!
# Runs

A run documents the groups one after another in one session, each into its intermediate file, then
merges these files and writes the result. **The output is written last, and only if everything
before it went well.**
-/

namespace Routebook

open Disk (Files)

structure Summary where
  groups : Nat := 0
  /-- Groups whose routes were found by searching. -/
  searched : Nat := 0
  operations : Nat := 0
  paths : Nat := 0
  deriving Repr, DecidableEq, Inhabited

/-- A workspace in which nothing has been read yet. -/
def Workspace.start (c : Config) (files : Files) : Workspace :=
  ⟨files, Session.start (c.pathAliases files)⟩

def Config.mergeGroup [PatternEngine] (c : Config) (fs : Files) (m : Merged) (g : Group) :
    Except Failure Merged :=
  match m.addFile fs g (c.intermediateFile g) with
  | (_, some e) => .error ((Failure.ofError e).inside ("Failed to merge group `" ++ g.name ++ "`"))
  | (m, none) => .ok m

/-- The document that the intermediate files come to. -/
def Config.merge [PatternEngine] (c : Config) (fs : Files) : Except Failure Document :=
  (c.groups.foldlM (c.mergeGroup fs) .empty).map fun m => m.document c.openapi c.info c.servers

namespace Generation

/-- Document a group into its intermediate file. -/
def groupFile (c : Config) (s : Summary) (g : Group) : Generation Summary := do
  let (d, searched) ← inside ("Failed to generate group `" ++ g.name ++ "`") (group c g)
  writeFile (c.intermediateFile g) (d.text .json)
  return { s with
    groups := s.groups + 1
    searched := s.searched + if searched then 1 else 0
    operations := s.operations + d.operationCount }

end Generation

open Generation in
/-- Do what a configuration asks for. -/
def Config.run [PatternEngine] (c : Config) : Generation Summary := do
  let s ← c.groups.foldlM (groupFile c) {}
  let d ← match c.merge (← get).files with
    | .ok d => pure d
    | .error f => fail f
  writeFile c.output (d.text (.ofPath c.output))
  return { s with paths := d.paths.length }

end Routebook
