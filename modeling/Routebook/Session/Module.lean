import Routebook.Disk.Path
import Routebook.Source.Tree
import Routebook.Table

/-!
# Modules

A module is what a session keeps of a source file: its top-level declarations, the names it
imports, and the names it exports under another name. Everything a declaration mentions carries the
module's number as its scope (`Declaration.inModule`), because that is where its names are to be
looked up.

Declarations are taken in the order of the file. A later declaration of a name replaces an earlier
one, except that **interfaces of one name are one interface** with the parents and members of all.
-/

namespace Routebook

open Source

/-- The number of a module in its session, in order of loading. -/
abbrev ModuleId := Nat

inductive Declaration where
  | typeAlias (params : List (TypeParameter ModuleId)) (body : TypeExpr ModuleId)
  | interface (params : List (TypeParameter ModuleId)) (parents : List (TypeExpr ModuleId))
      (members : List (Member (TypeExpr ModuleId)))
  | classType
  | enumeration (values : List Literal)
  /-- A variable with its declared type, and what it is constructed from by `new`. -/
  | variableOf (declaredType : Option (TypeExpr ModuleId)) (constructed : Option String)
  deriving Inhabited

/-- A name of another file. A whole namespace is imported under no name. -/
structure ImportedName where
  specifier : String
  name : Option String
  deriving Repr, DecidableEq

structure Module where
  path : Disk.Path
  declarations : Table Declaration
  imports : Table ImportedName
  /-- Local names by the different names they are exported under. -/
  renames : Table String
  /-- The exported names of type aliases, in the order they are exported. -/
  exportedAliases : List String
  deriving Inhabited

/-! ## Scopes -/

/-- A type as it stands in a file, in the scope of the file's module. -/
def TypeExpr.inModule (m : ModuleId) (t : TypeExpr Unit) : TypeExpr ModuleId :=
  t.map fun _ => m

def Member.inModule (m : ModuleId) (x : Member (TypeExpr Unit)) : Member (TypeExpr ModuleId) :=
  ⟨x.name, x.optional, x.type.inModule m⟩

def TypeParameter.inModule (m : ModuleId) (p : TypeParameter Unit) : TypeParameter ModuleId :=
  ⟨p.name, p.default.map (·.inModule m)⟩

/-! ## Declarations -/

/-- The values of an enumeration. A member that is not set to a literal is the number after the
last one. -/
def enumerationValues : Number → List (Option Literal) → List Literal
  | _, [] => []
  | _, some (.number n) :: vs => .number n :: enumerationValues n.succ vs
  | next, some l :: vs => l :: enumerationValues next vs
  | next, none :: vs => .number next :: enumerationValues next.succ vs

/-- What a variable is constructed from, when its value is written as `new X(…)`. -/
def constructedName? (value : Expr) : Option String :=
  match value.inner with
  | .construct callee _ => callee.dottedName?
  | _ => none

namespace Module

def empty (path : Disk.Path) : Module := ⟨path, [], [], [], []⟩

def declare (name : String) (d : Declaration) (x : Module) : Module :=
  { x with declarations := x.declarations.insert name d }

def declareVariable (m : ModuleId) (x : Module) (d : Declarator) : Module :=
  match d.name with
  | none => x
  | some n =>
    x.declare n (.variableOf (d.declaredType.map (·.inModule m)) (d.value.bind constructedName?))

/-- An interface, joined to what the module already has of it. -/
def declareInterface (name : String) (params : List (TypeParameter ModuleId))
    (parents : List (TypeExpr ModuleId)) (members : List (Member (TypeExpr ModuleId)))
    (x : Module) : Module :=
  match x.declarations.get? name with
  | some (.interface params₀ parents₀ members₀) =>
    x.declare name (.interface params₀ (parents₀ ++ parents) (members₀ ++ members))
  | _ => x.declare name (.interface params parents members)

def addDeclared (m : ModuleId) (exported : Bool) (x : Module) : Declared → Module
  | .typeAlias n ps body =>
    let x := if exported then { x with exportedAliases := x.exportedAliases ++ [n] } else x
    x.declare n (.typeAlias (ps.map (·.inModule m)) (body.inModule m))
  | .interface n ps parents ms =>
    x.declareInterface n (ps.map (·.inModule m)) (parents.map (·.inModule m))
      (ms.map (·.inModule m))
  | .classType n => x.declare n .classType
  | .enumeration n vs => x.declare n (.enumeration (enumerationValues Number.zero vs))
  | .variables ds => ds.foldl (declareVariable m) x

def isAlias (x : Module) (name : String) : Bool :=
  match x.declarations.get? name with
  | some (.typeAlias ..) => true
  | _ => false

/-- An exported name: from another file it is an import under the exported name, and otherwise a
renaming if the names differ. A type alias declared so far is exported under the name. -/
def addExport (specifier : Option String) (x : Module) (names : String × String) : Module :=
  let (local_, exported) := names
  let x := match specifier with
    | some s => { x with imports := x.imports.insert exported ⟨s, some local_⟩ }
    | none =>
      if local_ = exported then x else { x with renames := x.renames.insert exported local_ }
  if x.isAlias local_ then { x with exportedAliases := x.exportedAliases ++ [exported] } else x

def addStatement (m : ModuleId) (x : Module) (s : Statement) : Module :=
  match s.meaning with
  | .declares exported d => x.addDeclared m exported d
  | .imports file names =>
    { x with imports := names.foldl (fun t n => t.insert n.1 ⟨file, n.2⟩) x.imports }
  | .exports file names => names.foldl (addExport file) x
  | .nothing => x

/-- The module of a file under the number it gets. -/
def ofProgram (m : ModuleId) (path : Disk.Path) (p : Program) : Module :=
  p.statements.foldl (addStatement m) (empty path)

end Module

end Routebook
