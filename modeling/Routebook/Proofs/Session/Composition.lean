import Routebook.Proofs.Session.Inheritance
import Routebook.Route.Input

/-!
# Types that are made of objects

A type is made of objects if it resolves to one, or to an intersection of such types (`Composed`).
**An input that is made of objects has the members of all of them, one object after another, whether
or not they share names** (`inputMembers?_of_composed`).
-/

namespace Routebook
namespace Session

open Disk (Files)

/-- The members of one of the objects that a type is made of. -/
abbrev ObjectPart := List (Member (TypeExpr ModuleId))

/-- An object whose members are texts, optional or not. -/
def textMembers (members : List (String × Bool)) : ObjectPart :=
  members.map fun x => ⟨x.1, x.2, .keyword .string⟩

variable {fs : Files} {s s' : Session} {t : TypeExpr ModuleId}

/-! ## Composition -/

mutual
/-- A type resolves to an object, or to an intersection of such types. -/
inductive Composed (fs : Files) :
    Session → TypeExpr ModuleId → List ObjectPart → Session → Prop where
  | object {s s' : Session} {t : TypeExpr ModuleId} {ms : ObjectPart}
    (hshape : (resolve t).on fs s = some (.object ms, s')) : Composed fs s t [ms] s'
  | intersection {s s₁ s' : Session} {t : TypeExpr ModuleId} {ts : List (TypeExpr ModuleId)}
    {parts : List ObjectPart} (hshape : (resolve t).on fs s = some (.intersection ts, s₁))
    (hparts : ComposedAll fs s₁ ts parts s') : Composed fs s t parts s'
/-- The types of a list are made of objects, the next one where the one before it leaves the
session. -/
inductive ComposedAll (fs : Files) :
    Session → List (TypeExpr ModuleId) → List ObjectPart → Session → Prop where
  | nil {s : Session} : ComposedAll fs s [] [] s
  | cons {s s₁ s' : Session} {t : TypeExpr ModuleId} {ts : List (TypeExpr ModuleId)}
    {parts rest : List ObjectPart} (ht : Composed fs s t parts s₁)
    (hts : ComposedAll fs s₁ ts rest s') :
    ComposedAll fs s (t :: ts) (parts ++ rest) s'
end

theorem composed_object (ms : ObjectPart) : Composed fs s (.object ms) [ms] s :=
  .object (resolve_of_shape rfl)

theorem composed_intersection {ts : List (TypeExpr ModuleId)} {parts : List ObjectPart}
    (h : ComposedAll fs s ts parts s') : Composed fs s (.intersection ts) parts s' :=
  .intersection (resolve_of_shape rfl) h

/-! ## Inputs -/

theorem inputMembers?_of_object {ms : ObjectPart}
    (h : (resolve t).on fs s = some (.object ms, s')) :
    inputMembers? t fs s = some (some ms, s') := by
  rw [inputMembers?.eq_def]
  exact Analysis.on_bind h

theorem inputMembers?_of_intersection {ts : List (TypeExpr ModuleId)} {s₁ : Session}
    {mss : List (Option ObjectPart)} (h : (resolve t).on fs s = some (.intersection ts, s₁))
    (hparts : (ts.mapM fun t => membersOf? (some t)).on fs s₁ = some (mss, s')) :
    inputMembers? t fs s = some (some (mss.flatMap (·.getD [])), s') := by
  rw [inputMembers?.eq_def]
  exact (Analysis.on_bind h).trans (Analysis.on_bind hparts)

mutual
/-- **An input has the members of all its objects.** -/
theorem inputMembers?_of_composed : ∀ {s s' : Session} {t : TypeExpr ModuleId}
    {parts : List ObjectPart}, Composed fs s t parts s' →
      inputMembers? t fs s = some (some parts.flatten, s')
  | _, _, _, _, .object hshape => by
    rw [inputMembers?_of_object hshape, List.flatten_singleton]
  | _, _, _, _, .intersection hshape hparts => by
    obtain ⟨mss, hmss, hflat⟩ := mapM_inputMembers?_of_composedAll hparts
    rw [inputMembers?_of_intersection hshape hmss, hflat]
theorem mapM_inputMembers?_of_composedAll : ∀ {s s' : Session} {ts : List (TypeExpr ModuleId)}
    {parts : List ObjectPart}, ComposedAll fs s ts parts s' → ∃ mss : List (Option ObjectPart),
      (ts.mapM fun t => membersOf? (some t)).on fs s = some (mss, s') ∧
        mss.flatMap (·.getD []) = parts.flatten
  | _, _, _, _, .nil => ⟨[], rfl, rfl⟩
  | _, _, _, _, .cons ht hts => by
    obtain ⟨mss, hmss, hflat⟩ := mapM_inputMembers?_of_composedAll hts
    refine ⟨_, Analysis.on_mapM_cons.mpr
      ⟨_, _, mss, inputMembers?_of_composed ht, hmss, rfl⟩, ?_⟩
    rw [List.flatMap_cons, hflat, List.flatten_append]
    rfl
end

end Session
end Routebook
