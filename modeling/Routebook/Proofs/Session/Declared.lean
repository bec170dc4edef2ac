import Routebook.Proofs.Session.Growth
import Routebook.Proofs.TypeExpr.Substitution

/-!
# Types that name a declaration

A reference and an import type each lead to a declaration, the one from the module it is written in
and the other from the file it mentions (`NamesDeclaration`). From there on both are expanded alike:
**what such a type expands to is what its declaration says of it** (`expand_of_namesDeclaration`).
-/

namespace Routebook
namespace Session

open Disk (Files)

/-- A type names a declaration of a module with some arguments. What has to be loaded for it is in
the last session. -/
inductive NamesDeclaration (fs : Files) (s : Session) : TypeExpr ModuleId → ModuleId → String →
    List (TypeExpr ModuleId) → Declaration → Session → Prop where
  | reference {name args m target d s₁} :
    (lookup m name).on fs s = some (some (target, d), s₁) →
    NamesDeclaration fs s (.reference name args m) target name args d s₁
  | imported {specifier name args m file s₀ target d s₁} :
    (loadSpecifier m specifier).on fs s = some (some file, s₀) →
    (lookup file name).on fs s₀ = some (some (target, d), s₁) →
    NamesDeclaration fs s (.imported specifier (some name) args m) target name args d s₁

variable {fs : Files} {s s' s₁ : Session} {m target : ModuleId} {name : String} {d : Declaration}
  {t r : TypeExpr ModuleId} {args : List (TypeExpr ModuleId)}

theorem expand_of_namesDeclaration
    (h : NamesDeclaration fs s t target name args d s₁) :
    expand t fs s = expandDeclaration target name args d fs s₁ := by
  rw [expand.eq_def]
  cases h with
  | reference hlookup => exact Analysis.on_bind hlookup
  | imported hload hlookup => exact (Analysis.on_bind hload).trans (Analysis.on_bind hlookup)

/-! ## What declarations say -/

theorem expandDeclaration_typeAlias (ps : List (TypeParameter ModuleId))
    (body : TypeExpr ModuleId) :
    expandDeclaration m name args (.typeAlias ps body) fs s =
      some (some (body.substitute (bind ps args)), s) := by
  rw [expandDeclaration.eq_def]
  rfl

/-- An alias without parameters is its body, whatever arguments it is given. -/
theorem expand_of_alias {body : TypeExpr ModuleId}
    (h : NamesDeclaration fs s t target name args (.typeAlias [] body) s₁) :
    expand t fs s = some (some body, s₁) := by
  rw [expand_of_namesDeclaration h, expandDeclaration_typeAlias]
  exact congrArg (fun t => some (some t, s₁)) body.substitute_unbound

theorem expandDeclaration_enumeration (values : List Literal) :
    expandDeclaration m name args (.enumeration values) fs s =
      some (some (.union (values.map .literal)), s) := by
  rw [expandDeclaration.eq_def]
  rfl

/-- An interface that is expanded resolves its parents inside itself, in order. -/
theorem expandDeclaration_interface_eq_some {ps : List (TypeParameter ModuleId)}
    {parents : List (TypeExpr ModuleId)} {members : List (Member (TypeExpr ModuleId))} :
    expandDeclaration m name args (.interface ps parents members) fs s = some (some r, s') ↔
      s.expanding.contains (m, name) = false ∧ ∃ shapes s₁,
        ((parents.map (·.substitute (bind ps args))).mapM resolve).on fs (s.enter (m, name)) =
          some (shapes, s₁) ∧ s' = s₁.leave ∧
        r = (TypeExpr.object (members.foldl addOwnMember (inherited shapes))).substitute
          (bind ps args) := by
  rw [expandDeclaration.eq_def]
  refine Analysis.on_bind_eq_some.trans ⟨?_, ?_⟩
  · rintro ⟨now, s₀, hnow, h⟩
    obtain ⟨rfl, rfl⟩ := Prod.mk.inj (Option.some.inj hnow)
    cases hcontains : s.expanding.contains (m, name) with
    | true =>
      rw [hcontains, if_pos rfl] at h
      exact absurd (Analysis.on_pure_eq_some.mp h).1 (by simp)
    | false =>
      rw [hcontains, if_neg (by simp)] at h
      obtain ⟨_, s₀, henter, h⟩ := Analysis.on_bind_eq_some.mp h
      obtain ⟨-, rfl⟩ := Prod.mk.inj (Option.some.inj henter)
      obtain ⟨shapes, s₁, hshapes, h⟩ := Analysis.on_bind_eq_some.mp h
      obtain ⟨_, s₂, hleave, h⟩ := Analysis.on_bind_eq_some.mp h
      obtain ⟨-, rfl⟩ := Prod.mk.inj (Option.some.inj hleave)
      obtain ⟨hr, rfl⟩ := Analysis.on_pure_eq_some.mp h
      exact ⟨rfl, shapes, s₁, hshapes, rfl, Option.some.inj hr⟩
  · rintro ⟨hcontains, shapes, s₁, hshapes, rfl, rfl⟩
    refine ⟨s, s, rfl, ?_⟩
    rw [hcontains, if_neg (by simp)]
    exact (Analysis.on_bind (a := ⟨⟩) rfl).trans ((Analysis.on_bind hshapes).trans rfl)

/-! ## Resolving step by step -/

theorem resolveWithin_of_expand {next : TypeExpr ModuleId}
    (h : expand t fs s = some (some next, s₁)) (n : Nat) :
    resolveWithin (n + 1) t fs s = resolveWithin n next fs s₁ := by
  rw [resolveWithin.eq_def]
  exact Analysis.on_bind h

end Session
end Routebook
