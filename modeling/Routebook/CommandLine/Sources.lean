import Routebook.Config.Load
import Routebook.Session.Lookup

/-!
# The files of a run

Which paths a run may look at (`wanted`), as far as the files that are known so far can tell: the
configuration; once that is known what it names; and once a source is known what its specifiers
could mean. **A run sees no more of the disk than these,** so whoever adds the files at the wanted
paths until none is new knows all that the run needs.
-/

namespace Routebook

open Disk

/-! ## Specifiers -/

mutual
/-- The specifiers that a type mentions. -/
def TypeExpr.specifiers {σ : Type} : TypeExpr σ → List String
  | .array t => t.specifiers
  | .tuple ts | .union ts | .intersection ts | .reference _ ts _ => specifiersOfList ts
  | .object ms => specifiersOfMembers ms
  | .imported specifier _ ts _ => specifier :: specifiersOfList ts
  | .keyword _ | .literal _ | .query .. | .other _ => []
def TypeExpr.specifiersOfList {σ : Type} : List (TypeExpr σ) → List String
  | [] => []
  | t :: ts => t.specifiers ++ specifiersOfList ts
def TypeExpr.specifiersOfMembers {σ : Type} : List (Member (TypeExpr σ)) → List String
  | [] => []
  | ⟨_, _, t⟩ :: ms => t.specifiers ++ specifiersOfMembers ms
end

def TypeParameter.specifiers (ps : List (TypeParameter ModuleId)) : List String :=
  ps.flatMap fun p => (p.default.map (·.specifiers)).getD []

def Declaration.specifiers : Declaration → List String
  | .typeAlias ps body => TypeParameter.specifiers ps ++ body.specifiers
  | .interface ps parents members =>
    TypeParameter.specifiers ps ++ TypeExpr.specifiersOfList parents
      ++ TypeExpr.specifiersOfMembers members
  | .variableOf declaredType _ => (declaredType.map (·.specifiers)).getD []
  | .classType | .enumeration _ => []

/-- The specifiers of other files that a module imports from or mentions. -/
def Module.specifiers (x : Module) : List String :=
  x.imports.map (·.2.specifier) ++ x.declarations.flatMap (·.2.specifiers)

namespace CommandLine

/-! ## Paths -/

/-- A path and the directories it is in, as many as it has characters at most. -/
def withDirectories : Nat → Path → List Path
  | 0, p => [p]
  | n + 1, p => p :: (p.parent?.map (withDirectories n)).getD []

/-- The paths that a configuration names, and those that have to be directories. -/
def configured (c : Config) : List Path :=
  let written := c.output :: c.groups.map c.intermediateFile
  c.tsConfig.toList ++ c.groups.flatMap (fun g => g.appTypePath :: g.docSources)
    ++ written.flatMap fun p => withDirectories p.text.length p

/-- The configuration at a path as it is written there, whether anything is wrong with it or not. -/
def configAt? (fs : Files) (p : Path) : Option Config := do
  let c ← Config.parse? p (← fs.read? p)
  return c.fromDirectory (p.parent?.getD ⟨"."⟩)

/-- The files that the specifiers of a known file could mean. -/
def mentioned (fs : Files) (aliases : PathAliases) (p : Path) : List Path :=
  match Session.readProgram fs p with
  | .error _ => []
  | .ok program =>
    let x := Module.ofProgram 0 p program
    x.specifiers.flatMap fun specifier =>
      (specifierBases aliases p specifier).flatMap candidates

/-- The paths that a run may look at. -/
def wanted (fs : Files) (config : Path) : List Path :=
  config :: match configAt? fs config with
    | none => []
    | some c =>
      let aliases := c.pathAliases fs
      configured c ++ fs.entries.flatMap fun (l, _) => mentioned fs aliases (Files.pathOf l)

end CommandLine

end Routebook
