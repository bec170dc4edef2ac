import Mathlib.Logic.Basic
import Routebook.Session.Expand

/-!
# One round of expansion

Expanding a type, reading a declaration and resolving a type call each other. What each of them does
around its calls is a function of what is called (`expandBy`, `declarationBy`, `resolveBy`): with
the calls themselves in their place it is the function again (`expand_eq` and the like).

**What a round says of its outcomes whenever the calls in it say it of theirs is true of every
outcome** (`expansion_induction`). So what is shown of all outcomes is shown in one lemma for each
kind of round, and this is the only place where the three are unfolded together.
-/

namespace Routebook
namespace Session

open Disk (Files)

/-- Ways of taking a step, of reading a declaration that is used with arguments, and of resolving a
type in a number of steps. -/
abbrev Expander := TypeExpr ModuleId → Analysis (Option (TypeExpr ModuleId))

abbrev DeclarationReader := ModuleId → String → List (TypeExpr ModuleId) → Declaration →
  Analysis (Option (TypeExpr ModuleId))

abbrev Resolver := Nat → TypeExpr ModuleId → Analysis (TypeExpr ModuleId)

/-! ## Rounds -/

/-- What becomes of a name: what its declaration comes to, and nothing where it leads to none. -/
def foundBy (next : ModuleId → Declaration → Analysis (Option (TypeExpr ModuleId))) (m : ModuleId)
    (name : String) : Analysis (Option (TypeExpr ModuleId)) := do
  let some (target, d) ← lookup m name | return none
  next target d

/-- One step of a type, with declarations read in some way. -/
def expandBy (declared : DeclarationReader) : Expander := fun t => do
  match t with
  | .reference n args m => foundBy (fun target d => declared target n args d) m n
  | .imported specifier (some q) args m => do
    let some file ← loadSpecifier m specifier | return none
    foundBy (fun target d => declared target q args d) file q
  | .query n m => foundBy expandVariable m n
  | _ => return none

/-- The shape of an interface whose parents have the shapes given. -/
def interfaceShape (b : TypeExpr.Bindings ModuleId) (members : List (Member (TypeExpr ModuleId)))
    (shapes : List (TypeExpr ModuleId)) : TypeExpr ModuleId :=
  (TypeExpr.object (members.foldl addOwnMember (inherited shapes))).substitute b

/-- An interface whose parents are resolved inside it. -/
def interfaceBy (resolved : TypeExpr ModuleId → Analysis (TypeExpr ModuleId))
    (name : ModuleId × String) (b : TypeExpr.Bindings ModuleId)
    (parents : List (TypeExpr ModuleId)) (members : List (Member (TypeExpr ModuleId))) :
    Analysis (Option (TypeExpr ModuleId)) := do
  modify (·.enter name)
  let shapes ← (parents.map (·.substitute b)).mapM resolved
  modify Session.leave
  return some (interfaceShape b members shapes)

/-- What a declaration says, with types resolved in some way. -/
def declarationBy (resolved : Resolver) : DeclarationReader := fun m name args d => do
  match d with
  | .typeAlias ps body => return some (body.substitute (bind ps args))
  | .interface ps parents members => do
    if (← get).expanding.contains (m, name) then return none
    interfaceBy (resolved resolveLimit) (m, name) (bind ps args) parents members
  | .enumeration values => return some (.union (values.map .literal))
  | .classType | .variableOf .. => return none

/-- A step, and then what is left of the number of steps. -/
def resolveBy (step : Expander) (inner : Resolver) : Resolver := fun k t => do
  match k with
  | 0 => return t
  | k + 1 =>
    match ← step t with
    | some next => inner k next
    | none => return t

/-! ## The rounds are those of the functions -/

theorem expand_eq (t : TypeExpr ModuleId) :
    (expand t : Analysis _) = expandBy expandDeclaration t := by
  refine (funext₂ (expand.eq_def t)).trans ?_
  cases t with
  | imported specifier qualifier args m => cases qualifier <;> rfl
  | _ => rfl

theorem expandDeclaration_eq (m : ModuleId) (name : String) (args : List (TypeExpr ModuleId))
    (d : Declaration) :
    (expandDeclaration m name args d : Analysis _) = declarationBy resolveWithin m name args d := by
  refine (funext₂ (expandDeclaration.eq_def m name args d)).trans ?_
  cases d <;> rfl

theorem resolveWithin_eq (k : Nat) (t : TypeExpr ModuleId) :
    (resolveWithin k t : Analysis _) = resolveBy expand resolveWithin k t := by
  refine (funext₂ (resolveWithin.eq_def k t)).trans ?_
  cases k <;> rfl

/-- The outcomes of all three have what every round hands on from its calls. -/
theorem expansion_induction
    {E : TypeExpr ModuleId → Files → Session → Option (TypeExpr ModuleId) × Session → Prop}
    {D : ModuleId → String → List (TypeExpr ModuleId) → Declaration → Files → Session →
      Option (TypeExpr ModuleId) × Session → Prop}
    {R : Nat → TypeExpr ModuleId → Files → Session → TypeExpr ModuleId × Session → Prop}
    (hexpand : ∀ declared : DeclarationReader,
      (∀ m name args d fs s r, (declared m name args d).on fs s = some r →
        D m name args d fs s r) →
      ∀ t fs s r, (expandBy declared t).on fs s = some r → E t fs s r)
    (hdeclaration : ∀ resolved : Resolver,
      (∀ k t fs s r, (resolved k t).on fs s = some r → R k t fs s r) →
      ∀ m name args d fs s r, (declarationBy resolved m name args d).on fs s = some r →
        D m name args d fs s r)
    (hresolve : ∀ step inner, (∀ t fs s r, (step t).on fs s = some r → E t fs s r) →
      (∀ k t fs s r, (inner k t).on fs s = some r → R k t fs s r) →
      ∀ k t fs s r, (resolveBy step inner k t).on fs s = some r → R k t fs s r) :
    (∀ t fs s r, expand t fs s = some r → E t fs s r) ∧
      (∀ m name args d fs s r, expandDeclaration m name args d fs s = some r →
        D m name args d fs s r) ∧
      ∀ k t fs s r, resolveWithin k t fs s = some r → R k t fs s r := by
  refine expand.mutual_partial_correctness E D R ?_ ?_ ?_
  · intro declared ih t fs s r h
    refine hexpand declared ih t fs s r (Eq.trans ?_ h)
    cases t with
    | imported specifier qualifier args m => cases qualifier <;> rfl
    | _ => rfl
  · intro resolved ih m name args d fs s r h
    refine hdeclaration resolved ih m name args d fs s r (Eq.trans ?_ h)
    cases d <;> rfl
  · intro step inner ihstep ih k t fs s r h
    refine hresolve step inner ihstep ih k t fs s r (Eq.trans ?_ h)
    cases k <;> rfl

end Session
end Routebook
