import Routebook.Config.Decode
import Routebook.Disk.Files
import Routebook.Error
import Routebook.Json.Reader
import Routebook.Pattern.Engine
import Routebook.Session.Basic
import Routebook.Text.Blank

/-!
# Loading configurations

A configuration is read from its file, its paths are taken from the directory of the file, and it
is checked (`check`) before anything is done: **names and intermediate files of groups are distinct,
types are in files that are there, and patterns can be read.**
-/

namespace Routebook

open Disk

section

variable [PatternEngine]

/-! ## Checks -/

/-- The first pattern of some exclusions that cannot be read. -/
def badPattern? (es : List Exclusion) : Option String :=
  es.findSome? fun
    | .pattern t => if (PatternEngine.read? t).isNone then some t else none
    | .literal _ => none

/-- What is wrong with a group after some others. -/
def Group.problem? (fs : Files) (before : List Group) (g : Group) : Option ConfigProblem :=
  if Text.isAllBlank g.name.toList then some .emptyGroupName
  else if before.any fun h => h.name = g.name then some (.duplicateGroupName g.name)
  else match before.find? fun h => h.fileName = g.fileName with
    | some h => some (.sameFile h.name g.name g.fileName)
    | none =>
      if !fs.isFile g.appTypePath then some (.missingAppType g.name g.appTypePath)
      else (badPattern? g.exclusions).map (.badPattern (some g.name))

/-- The first thing that is wrong with some groups after some others. -/
def groupsProblem? (fs : Files) : List Group → List Group → Option ConfigProblem
  | _, [] => none
  | before, g :: gs =>
    match g.problem? fs before with
    | some p => some p
    | none => groupsProblem? fs (before ++ [g]) gs

end

namespace Config

/-- The first thing that is wrong with a configuration. -/
def problem? [PatternEngine] (fs : Files) (c : Config) : Option ConfigProblem :=
  if c.groups.isEmpty then some .noGroups else groupsProblem? fs [] c.groups

def check [PatternEngine] (fs : Files) (c : Config) : Except Error Config :=
  match c.problem? fs with
  | some p => .error (.invalidConfig p)
  | none => .ok c

/-! ## Files -/

/-- The configuration in a text. Files with the ending `json` are read as Json, others as Yaml. -/
def parse? (p : Path) (text : String) : Option Config := do
  let setting ← if p.extension? = some "json" then (Json.read? text).map Setting.ofJson
    else (Yaml.Node.read? text).map Setting.ofYaml
  Config.ofSetting? setting

def load [PatternEngine] (fs : Files) (p : Path) : Except Error Config :=
  match fs.read? p with
  | none => .error (.io p)
  | some text =>
    match parse? p text with
    | none => .error (.malformedConfig p)
    | some c => (c.fromDirectory (p.parent?.getD ⟨"."⟩)).check fs

/-! ## Import aliases -/

/-- The aliases that a project's options give, in the order of their patterns. -/
def aliasesOf (p : Path) (project : Json) : PathAliases :=
  let options := (project.field? "compilerOptions").getD .null
  let base := ((options.field? "baseUrl").bind Json.string?).getD "."
  let targets (j : Json) : List String := ((j.items?.getD []).filterMap Json.string?)
  let patterns := match (options.field? "paths").bind Json.fields? with
    | none => []
    | some fs => (Table.ofEntries fs).map fun (e : String × Json) => (e.1, targets e.2)
  ⟨(p.parent?.getD ⟨"."⟩).join base, patterns.mergeSort fun a b => a.1 ≤ b.1⟩

/-- The import aliases of the project that a configuration names. A project file that cannot be
read gives none. -/
def pathAliases (fs : Files) (c : Config) : PathAliases :=
  match c.tsConfig with
  | none => .empty
  | some p => ((fs.read? p).bind Json.read?).elim .empty (aliasesOf p)

end Config

end Routebook
