import Routebook.Route.Method
import Routebook.Session.Expand

/-!
# Signatures in a route table

The value of a path in a route table says, for each method, what goes in and what comes out. A
method can answer in several ways; each is a *branch* with its input, its output, its format and its
status. Intersections of object types count as one object, unions as several branches, and keys that
are no method are passed over.
-/

namespace Routebook

open Disk (Files)

/-- One way in which a route answers. -/
structure Branch where
  input : Option (TypeExpr ModuleId)
  output : Option (TypeExpr ModuleId)
  format : Option String
  /-- The status, when it is one number. -/
  status : Option Nat

structure Signature where
  method : Method
  branches : List Branch

namespace Session

/-- The members of a type with the shape of an object or of an intersection of objects. -/
def objectMembers (t : TypeExpr ModuleId) (fs : Files) (s : Session) :
    Option (List (Member (TypeExpr ModuleId)) × Session) := Analysis.on (do
  let inner : TypeExpr ModuleId → Analysis (List (Member (TypeExpr ModuleId))) :=
    fun t fs s => s |>.objectMembers t fs
  match ← resolve t with
  | .object ms => return ms
  | .intersection parts => return (← parts.mapM inner).flatten
  | _ => return []) fs s
partial_fixpoint

/-- The objects that the branches of a method are written as. -/
def branchObjects (t : TypeExpr ModuleId) (fs : Files) (s : Session) :
    Option (List (List (Member (TypeExpr ModuleId))) × Session) := Analysis.on (do
  let inner : TypeExpr ModuleId → Analysis (List (List (Member (TypeExpr ModuleId)))) :=
    fun t fs s => s |>.branchObjects t fs
  match ← resolve t with
  | .union ms => return (← ms.mapM inner).flatten
  | .object ms => return [ms]
  | .intersection _ => return [← objectMembers t]
  | _ => return []) fs s
partial_fixpoint

def resolvedMember (ms : List (Member (TypeExpr ModuleId))) (name : String) :
    Analysis (Option (TypeExpr ModuleId)) := do
  match Member.find? ms name with
  | none => return none
  | some m => return some (← resolve m.type)

/-- A branch from the object it is written as. -/
def branchOf (ms : List (Member (TypeExpr ModuleId))) : Analysis Branch := do
  let format ← resolvedMember ms "outputFormat"
  let status ← resolvedMember ms "status"
  return {
    input := (Member.find? ms "input").map (·.type)
    output := (Member.find? ms "output").map (·.type)
    format := format.bind TypeExpr.string?
    status := status.bind TypeExpr.status? }

/-- Branches of a method, after those it has already. -/
def addBranches (m : Method) (branches : List Branch) : List Signature → List Signature
  | [] => [⟨m, branches⟩]
  | s :: ss =>
    if s.method = m then ⟨m, s.branches ++ branches⟩ :: ss else s :: addBranches m branches ss

/-- The signatures in the value of a path, one for each method in order of its first key. -/
def signatures (value : TypeExpr ModuleId) : Analysis (List Signature) := do
  let members ← objectMembers value
  members.foldlM (fun found m => do
    match Method.ofVerbKey? m.name with
    | none => return found
    | some method =>
      let objects ← branchObjects m.type
      return addBranches method (← objects.mapM branchOf) found) []

end Session

end Routebook
