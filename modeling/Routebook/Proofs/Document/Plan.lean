import Routebook.Document.SchemaOf
import Routebook.Proofs.Session.Analysis

/-!
# Plans for schemas

The schema of a type without a name of its own is planned; then the schemas of its parts are asked
for, one after another, and put together. **What a plan can be is said once** (`planOf_cases`), so
nothing else has to look at the shapes of types.
-/

namespace Routebook
namespace Session

open Disk (Files)

variable {fs : Files} {s s' s₁ : Session} {t : TypeExpr ModuleId} {plan : SchemaPlan}
  {open_ : List NameKey}

/-- The plan for a type, and the session as it is then. Only a union has to look at what its members
are. -/
inductive Planned (fs : Files) (s : Session) :
    TypeExpr ModuleId → SchemaPlan → Session → Prop where
  | array (t : TypeExpr ModuleId) : Planned fs s (.array t) (.array t) s
  | object (ms : List (Member (TypeExpr ModuleId))) : Planned fs s (.object ms) (.object ms) s
  | enumeration {ms flat : List (TypeExpr ModuleId)} {values : List String} {s' : Session}
      (hflat : flattenUnion ms fs s = some (flat, s'))
      (hvalues : (flat.filter fun m => !m.isNullish).mapM TypeExpr.string? = some values) :
      Planned fs s (.union ms) (.leaf (enumerationSchema values (flat.any TypeExpr.isNullish))) s'
  | alternatives {ms flat : List (TypeExpr ModuleId)} {s' : Session}
      (hflat : flattenUnion ms fs s = some (flat, s'))
      (hmixed : (flat.filter fun m => !m.isNullish).mapM TypeExpr.string? = none) :
      Planned fs s (.union ms) (.alternatives (alternatives flat)) s'
  | literal (l : Literal) : Planned fs s (.literal l) (.leaf (literalSchema l)) s
  | keyword (k : Keyword) (type : String) : Planned fs s (.keyword k) (.leaf (.ofType type)) s
  /-- A type that schemas cannot express. -/
  | unknown (t : TypeExpr ModuleId) : Planned fs s t (.leaf {}) s

theorem planOf_cases (h : (planOf t).on fs s = some (plan, s')) : Planned fs s t plan s' := by
  cases t with
  | union ms =>
    obtain ⟨flat, s₁, hflat, h⟩ := Analysis.on_bind_eq_some.mp h
    cases hvalues : (flat.filter fun m => !m.isNullish).mapM TypeExpr.string? with
    | some values =>
      simp only [hvalues] at h
      obtain ⟨rfl, rfl⟩ := Analysis.on_pure_eq_some.mp h
      exact .enumeration hflat hvalues
    | none =>
      simp only [hvalues] at h
      obtain ⟨rfl, rfl⟩ := Analysis.on_pure_eq_some.mp h
      exact .alternatives hflat hvalues
  | array t =>
    obtain ⟨rfl, rfl⟩ := Analysis.on_pure_eq_some.mp h
    exact .array t
  | object ms =>
    obtain ⟨rfl, rfl⟩ := Analysis.on_pure_eq_some.mp h
    exact .object ms
  | literal l =>
    obtain ⟨rfl, rfl⟩ := Analysis.on_pure_eq_some.mp h
    exact .literal l
  | keyword k =>
    cases k with
    | string | number | boolean =>
      obtain ⟨rfl, rfl⟩ := Analysis.on_pure_eq_some.mp h
      exact .keyword _ _
    | _ =>
      obtain ⟨rfl, rfl⟩ := Analysis.on_pure_eq_some.mp h
      exact .unknown _
  | _ =>
    obtain ⟨rfl, rfl⟩ := Analysis.on_pure_eq_some.mp h
    exact .unknown _

/-! ## Schemas of shapes -/

/-- The schema of a type without a name of its own, from the schemas of its parts. -/
def shapeSchema (inner : TypeExpr ModuleId → Analysis Schema) (t : TypeExpr ModuleId) :
    Analysis Schema := do
  let plan ← planOf t
  return plan.assemble (← plan.parts.mapM inner)

/-- A shape has a schema if there is a plan for it that can be carried out. -/
theorem on_shapeSchema_eq_some {inner : TypeExpr ModuleId → Analysis Schema} {x : Schema} :
    (shapeSchema inner t).on fs s = some (x, s') ↔
      ∃ plan s₁ xs, (planOf t).on fs s = some (plan, s₁) ∧
        (plan.parts.mapM inner).on fs s₁ = some (xs, s') ∧ x = plan.assemble xs := by
  rw [shapeSchema, Analysis.on_bind_eq_some]
  refine exists_congr fun plan => exists_congr fun s₁ => ?_
  rw [Analysis.on_bind_eq_some]
  constructor
  · rintro ⟨hplan, xs, s₂, hxs, hx⟩
    obtain ⟨rfl, rfl⟩ := Analysis.on_pure_eq_some.mp hx
    exact ⟨xs, hplan, hxs, rfl⟩
  · rintro ⟨xs, hplan, hxs, rfl⟩
    exact ⟨hplan, xs, s', hxs, rfl⟩

theorem schemaWithin_of_shape (hshape : nameKey? t = none) :
    schemaWithin open_ t fs s = (shapeSchema (schemaWithin open_) t).on fs s := by
  rw [schemaWithin.eq_def]
  simp only [hshape]
  rfl

/-- A plan that has been made is carried out. -/
theorem schemaWithin_of_plan (hshape : nameKey? t = none)
    (hplan : (planOf t).on fs s = some (plan, s₁)) {xs : List Schema}
    (hxs : (plan.parts.mapM (m := Analysis) (schemaWithin open_)).on fs s₁ = some (xs, s')) :
    schemaWithin open_ t fs s = some (plan.assemble xs, s') := by
  rw [schemaWithin_of_shape hshape]
  exact on_shapeSchema_eq_some.mpr ⟨plan, s₁, xs, hplan, hxs, rfl⟩

/-- A plan without parts is a schema. -/
theorem schemaWithin_of_leaf (hshape : nameKey? t = none) {x : Schema}
    (hplan : (planOf t).on fs s = some (.leaf x, s')) :
    schemaWithin open_ t fs s = some (x, s') :=
  schemaWithin_of_plan hshape hplan (Analysis.on_pure [])

end Session
end Routebook
