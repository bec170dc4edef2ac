import Routebook.Session.Lookup

/-!
# Expanding names

`expand` replaces a named type by what its declaration says, one step: the body of an alias, the
members of an interface with those it inherits, the values of an enumeration, the declared type of a
variable. `resolve` expands until the type has a shape of its own or cannot be expanded.

**An interface that is being expanded is not expanded again inside itself,** so a circle of parents
ends; a circle of aliases ends because `resolve` takes a limited number of steps.
-/

namespace Routebook

open Disk (Files)

namespace Session

/-- How many steps `resolve` takes. -/
def resolveLimit : Nat := 32

/-- What the parameters of a declaration stand for: the arguments in order, then the defaults. Of
two parameters of one name the later counts. -/
def bind : List (TypeParameter ModuleId) → List (TypeExpr ModuleId) → TypeExpr.Bindings ModuleId
  | [], _ => fun _ => none
  | p :: ps, args => fun n =>
    (bind ps args.tail n).or <|
      if n = p.name then some (args.head?.getD (p.default.getD (.keyword .unknown))) else none

/-- Members after which one of the same name replaces the earlier ones. -/
def addOwnMember (ms : List (Member (TypeExpr ModuleId))) (own : Member (TypeExpr ModuleId)) :
    List (Member (TypeExpr ModuleId)) :=
  ms.filter (·.name != own.name) ++ [own]

/-- The members that the shapes of an interface's parents hand down. Only an object has any. -/
def inherited (shapes : List (TypeExpr ModuleId)) : List (Member (TypeExpr ModuleId)) :=
  shapes.flatMap fun t => t.members?.getD []

def enter (s : Session) (name : ModuleId × String) : Session :=
  { s with expanding := name :: s.expanding }

def leave (s : Session) : Session := { s with expanding := s.expanding.tail }

/-- The type of an application that no routes have been chained to. -/
def placeholderApp (m : ModuleId) : TypeExpr ModuleId :=
  .reference "Hono"
    [.reference "BlankEnv" [] m, .reference "BlankSchema" [] m, .literal (.string "/")] m

/-- The declared type of a variable. An application that is constructed and left as it is has the
placeholder's. -/
def expandVariable (m : ModuleId) : Declaration → Analysis (Option (TypeExpr ModuleId))
  | .variableOf (some t) _ => return some t
  | .variableOf none (some callee) => do
    if (← get).canonicalName? (.reference callee [] m) == some "Hono" then
      return some (placeholderApp m)
    else return none
  | _ => return none

mutual
/-- One step of a named type towards its shape; nothing for a type that has no further step. -/
def expand (t : TypeExpr ModuleId) (fs : Files) (s : Session) :
    Option (Option (TypeExpr ModuleId) × Session) := Analysis.on (do
  let declared : ModuleId → String → List (TypeExpr ModuleId) → Declaration →
      Analysis (Option (TypeExpr ModuleId)) :=
    fun m name args d fs s => s |>.expandDeclaration m name args d fs
  match t with
  | .reference n args m => do
    let some (target, d) ← lookup m n | return none
    declared target n args d
  | .imported specifier (some q) args m => do
    let some file ← loadSpecifier m specifier | return none
    let some (target, d) ← lookup file q | return none
    declared target q args d
  | .query n m => do
    let some (target, d) ← lookup m n | return none
    expandVariable target d
  | _ => return none) fs s
partial_fixpoint
/-- What a declaration says of a name that is used with arguments. -/
def expandDeclaration (m : ModuleId) (name : String) (args : List (TypeExpr ModuleId))
    (d : Declaration) (fs : Files) (s : Session) :
    Option (Option (TypeExpr ModuleId) × Session) := Analysis.on (do
  let resolved : Nat → TypeExpr ModuleId → Analysis (TypeExpr ModuleId) :=
    fun n t fs s => s |>.resolveWithin n t fs
  match d with
  | .typeAlias ps body => return some (body.substitute (bind ps args))
  | .interface ps parents members => do
    if (← get).expanding.contains (m, name) then return none
    modify (·.enter (m, name))
    let shapes ← (parents.map (·.substitute (bind ps args))).mapM (resolved resolveLimit)
    modify Session.leave
    return some ((TypeExpr.object (members.foldl addOwnMember (inherited shapes))).substitute
      (bind ps args))
  | .enumeration values => return some (.union (values.map .literal))
  | .classType | .variableOf .. => return none) fs s
partial_fixpoint
/-- Expand for a number of steps, or until nothing is left to expand. -/
def resolveWithin (n : Nat) (t : TypeExpr ModuleId) (fs : Files) (s : Session) :
    Option (TypeExpr ModuleId × Session) := Analysis.on (do
  let step : TypeExpr ModuleId → Analysis (Option (TypeExpr ModuleId)) :=
    fun t fs s => s |>.expand t fs
  let inner : Nat → TypeExpr ModuleId → Analysis (TypeExpr ModuleId) :=
    fun n t fs s => s |>.resolveWithin n t fs
  match n with
  | 0 => return t
  | n + 1 =>
    match ← step t with
    | some next => inner n next
    | none => return t) fs s
partial_fixpoint
end

/-- A type's shape, or the last name on the way to it. -/
def resolve (t : TypeExpr ModuleId) : Analysis (TypeExpr ModuleId) :=
  resolveWithin resolveLimit t

end Session

end Routebook
