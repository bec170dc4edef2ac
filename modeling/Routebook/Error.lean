import Routebook.Disk.Path

/-!
# What can go wrong

Each error is a cause; `Error.message` is its wording. Errors of a run also carry the steps they
happened in, outermost first (`Failure`).
-/

namespace Routebook

open Disk (Path)

/-- Why a configuration that can be read is refused. -/
inductive ConfigProblem where
  | noGroups
  | emptyGroupName
  | duplicateGroupName (name : String)
  | sameFile (first second file : String)
  | missingAppType (group : String) (path : Path)
  /-- The group is known when the configuration is checked, and not when groups are merged. -/
  | badPattern (group : Option String) (pattern : String)
  deriving Repr, DecidableEq

inductive Format where
  | json | yaml
  deriving Repr, DecidableEq, Inhabited

inductive Error where
  | io (path : Path)
  | malformedConfig (path : Path)
  | invalidConfig (problem : ConfigProblem)
  | parse (file : Path)
  | missingAppType (file : Path) (name : String)
  | notAnApp (kind text : String)
  | tooFewArguments (text : String) (count : Nat)
  | unsupportedRouteShape (kind text : String)
  | malformedDocument (format : Format)
  deriving Repr, DecidableEq

def ConfigProblem.message : ConfigProblem → String
  | noGroups => "`apis` must list at least one group"
  | emptyGroupName => "group name must not be empty"
  | duplicateGroupName n => "duplicate group name `" ++ n ++ "`"
  | sameFile a b f => "groups `" ++ a ++ "` and `" ++ b ++ "` both write " ++ f
  | missingAppType g p => "group `" ++ g ++ "`: appTypePath " ++ p.text ++ " does not exist"
  | badPattern none p => "invalid exclude pattern `" ++ p ++ "`"
  | badPattern (some g) p => "group `" ++ g ++ "`: invalid exclude pattern `" ++ p ++ "`"

def Format.name : Format → String
  | json => "JSON"
  | yaml => "YAML"

def Error.message : Error → String
  | io p => "IO error on " ++ p.text
  | malformedConfig p => "invalid configuration: " ++ p.text
  | invalidConfig p => "invalid configuration: " ++ p.message
  | parse f => "parse error in " ++ f.text
  | missingAppType f n => "type alias `" ++ n ++ "` not found in " ++ f.text
  | notAnApp kind text =>
    "malformed app type: expected a Hono application type, found " ++ kind ++ " `" ++ text ++ "`"
  | tooFewArguments text count =>
    "malformed app type: `" ++ text ++ "` has " ++ toString count
      ++ " type argument(s), expected at least 2"
  | unsupportedRouteShape kind text =>
    "unsupported route type shape (" ++ kind ++ "): " ++ text
  | malformedDocument f => "serialization error: " ++ f.name

/-- What ended a run: an error, the disk, or a check of the command line, with the steps it
happened in. -/
inductive Cause where
  | error (error : Error)
  | disk
  | refused
  deriving Repr, DecidableEq

structure Failure where
  /-- The steps, outermost first. -/
  context : List String
  cause : Cause
  deriving Repr, DecidableEq

def Failure.ofError (e : Error) : Failure := ⟨[], .error e⟩

/-- The same failure inside one more step. -/
def Failure.inside (step : String) (f : Failure) : Failure :=
  { f with context := step :: f.context }

end Routebook
