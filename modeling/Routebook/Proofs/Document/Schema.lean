import Routebook.Proofs.Document.Keyed
import Routebook.Proofs.Document.Plan

/-!
# Schemas of types are without repetition

No schema of a type has a property twice (`keyed_of_schemaOf`), however its members are named: the
properties of an object are put into a table one after another.
-/

namespace Routebook

theorem Schema.keyed_empty : ({} : Schema).Keyed := .leaf rfl rfl rfl

theorem Schema.keyed_ofAlternatives {ss : List Schema} (h : ∀ s ∈ ss, s.Keyed) :
    (Schema.ofAlternatives ss).Keyed := by
  refine .mk (fun ss' hss => ?_) nofun nofun nofun
  obtain rfl := Option.some.inj hss
  exact h

namespace Session

open Disk (Files)

variable {fs : Files} {s s' : Session}

theorem keyed_literalSchema (l : Literal) : (literalSchema l).Keyed := by
  cases l <;> exact .leaf rfl rfl rfl

theorem keyed_objectSchema {members : List (String × Bool × Schema)}
    (h : ∀ m ∈ members, m.2.2.Keyed) : (objectSchema members).Keyed := by
  have htable : Table.Keyed Schema.Keyed (Table.ofEntries (members.map fun m => (m.1, m.2.2))) := by
    refine Table.Keyed.ofEntries fun e he => ?_
    obtain ⟨m, hm, rfl⟩ := List.mem_map.mp he
    exact h m hm
  refine .mk nofun nofun (fun ps hps => ?_) fun ps hps => ?_
  · obtain rfl := Option.some.inj hps
    exact htable.nodup
  · obtain rfl := Option.some.inj hps
    exact htable.values

/-- A plan is put together without repetition, if its parts are. -/
theorem Planned.keyed_assemble {t : TypeExpr ModuleId} {plan : SchemaPlan} {xs : List Schema}
    (h : Planned fs s t plan s') (hxs : ∀ x ∈ xs, x.Keyed) : (plan.assemble xs).Keyed := by
  cases h with
  | array t =>
    refine .mk nofun (fun x hx => hxs x ?_) nofun nofun
    exact List.mem_of_mem_head? hx
  | object ms =>
    refine keyed_objectSchema fun m hm => ?_
    obtain ⟨⟨_, x⟩, hx, rfl⟩ := List.mem_map.mp hm
    exact hxs x (List.of_mem_zip hx).2
  | alternatives _ _ => exact Schema.keyed_ofAlternatives hxs
  | literal l => exact keyed_literalSchema l
  | enumeration _ _ | keyword _ _ => exact .leaf rfl rfl rfl
  | unknown _ => exact Schema.keyed_empty

theorem keyed_of_schemaWithin {open_ : List NameKey} {t : TypeExpr ModuleId} {x : Schema}
    (h : schemaWithin open_ t fs s = some (x, s')) : x.Keyed := by
  refine schemaWithin.partial_correctness (fun _ _ _ _ r => r.1.Keyed) ?_ open_ t fs s (x, s') h
  intro schemaWithin ih open_ t fs s ⟨x, s'⟩ h
  cases hkey : nameKey? t with
  | some key =>
    simp only [hkey] at h
    split at h
    · obtain ⟨rfl, rfl⟩ := Analysis.on_pure_eq_some.mp h
      exact Schema.keyed_empty
    · obtain ⟨expanded, s₁, -, h⟩ := Analysis.on_bind_eq_some.mp h
      cases expanded with
      | none =>
        obtain ⟨rfl, rfl⟩ := Analysis.on_pure_eq_some.mp h
        exact Schema.keyed_empty
      | some u => exact ih (key :: open_) u fs s₁ (x, s') h
  | none =>
    simp only [hkey] at h
    obtain ⟨plan, s₁, xs, hplan, hxs, rfl⟩ := on_shapeSchema_eq_some.mp h
    exact (planOf_cases hplan).keyed_assemble (Analysis.on_mapM_forall
      (fun u _ s y s₂ hy => ih open_ u fs s (y, s₂) hy) hxs)

theorem keyed_of_schemaOf {t : TypeExpr ModuleId} {x : Schema}
    (h : (schemaOf t).on fs s = some (x, s')) : x.Keyed := keyed_of_schemaWithin h

end Session

end Routebook
