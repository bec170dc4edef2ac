import Mathlib
import Routebook.Proofs.Document.Schema
import Routebook.Proofs.Session.Resolution

/-!
# Names in unions

A union sees through the names of its members: **a reference or an import type that resolves to a
union, a literal or a keyword may as well be replaced by what it resolves to**
(`schemaWithin_of_seesThrough`), and so may such names in the unions that it is seen through to.
Every member that is left in the flattened list is settled (`Settled`): it is no union, and no name
of a union, a literal or a keyword.

A `typeof` is a name too, but a union does not see through it: it is left in the list, whatever the
type of its variable is.
-/

namespace Routebook

open Disk (Files)

/-- A reference or an import type. -/
def TypeExpr.isTypeName {σ : Type} : TypeExpr σ → Bool
  | reference .. | imported .. => true
  | _ => false

namespace Session

open Analysis (Grows grows_pure)

variable {fs : Files} {s s' : Session} {t u : TypeExpr ModuleId} {ms ns : List (TypeExpr ModuleId)}
  {inner : List (TypeExpr ModuleId) → Analysis (List (TypeExpr ModuleId))}

/-! ## The parts of a member -/

/-- What a member of a union is replaced by in the flattened list, if unions in it are flattened in
some way. -/
def memberParts (inner : List (TypeExpr ModuleId) → Analysis (List (TypeExpr ModuleId)))
    (t : TypeExpr ModuleId) : Analysis (List (TypeExpr ModuleId)) := do
  match t with
  | .reference .. | .imported .. =>
    match ← resolve t with
    | .union ms => inner ms
    | .literal l => return [.literal l]
    | .keyword k => return [.keyword k]
    | _ => return [t]
  | .union ms => inner ms
  | _ => return [t]

theorem flattenUnion_eq (ms : List (TypeExpr ModuleId)) (fs : Files) (s : Session) :
    flattenUnion ms fs s =
      Analysis.on (do return (← ms.mapM (memberParts flattenUnion)).flatten) fs s :=
  flattenUnion.eq_def ms fs s

theorem grows_resolve (t : TypeExpr ModuleId) : (resolve t).Grows :=
  fun fs s r s' h => extends_of_expansion.2.2 resolveLimit t fs s (r, s') h

theorem grows_memberParts (hinner : ∀ ms, (inner ms).Grows) (t : TypeExpr ModuleId) :
    (memberParts inner t).Grows := by
  cases t with
  | reference _ _ _ | imported _ _ _ _ =>
    refine (grows_resolve _).bind fun u => ?_
    cases u with
    | union ms => exact hinner ms
    | _ => exact grows_pure _
  | union ms => exact hinner ms
  | _ => exact grows_pure _

theorem grows_flattenUnion (ms : List (TypeExpr ModuleId)) : Analysis.Grows (flattenUnion ms) := by
  intro fs s r s' h
  refine flattenUnion.partial_correctness (fun _ _ s r => r.2.Extends s) ?_ ms fs s (r, s') h
  intro inner ih ms fs s ⟨flat, s'⟩ h
  have hparts : ∀ t, (memberParts inner t).Grows :=
    grows_memberParts fun ms fs s r s' h => ih ms fs s (r, s') h
  exact (Grows.mapM fun t _ => hparts t).bind (fun _ => grows_pure _) fs s flat s' h

/-- A name that is seen through has the parts of what it resolves to. -/
theorem memberParts_of_resolve (ht : t.isTypeName = true)
    (hresolve : (resolve t).on fs s = some (u, s')) (hu : u.isSeenThroughTo = true) :
    (memberParts inner t).on fs s = (memberParts inner u).on fs s' := by
  cases t with
  | reference _ _ _ | imported _ _ _ _ =>
    refine (Analysis.on_bind hresolve).trans ?_
    cases u with
    | union _ | literal _ | keyword _ => rfl
    | _ => exact absurd hu (by simp [TypeExpr.isSeenThroughTo])
  | _ => exact absurd ht (by simp [TypeExpr.isTypeName])

/-! ## Seeing through -/

mutual
/-- Whether a member of a union becomes another by replacing names by what they have been resolved
to so far, in the unions that these are as well. -/
inductive SeesThrough (fs : Files) (s : Session) :
    TypeExpr ModuleId → TypeExpr ModuleId → Prop where
  | refl (t : TypeExpr ModuleId) : SeesThrough fs s t t
  | name {t u v : TypeExpr ModuleId} {s₀ s₁ : Session} (ht : t.isTypeName = true)
      (hresolve : (resolve t).on fs s₀ = some (u, s₁)) (hu : u.isSeenThroughTo = true)
      (hs : s.Extends s₁) (h : SeesThrough fs s u v) : SeesThrough fs s t v
  | union {ms ns : List (TypeExpr ModuleId)} (h : SeesThroughAll fs s ms ns) :
      SeesThrough fs s (.union ms) (.union ns)
inductive SeesThroughAll (fs : Files) (s : Session) :
    List (TypeExpr ModuleId) → List (TypeExpr ModuleId) → Prop where
  | nil : SeesThroughAll fs s [] []
  | cons {t u : TypeExpr ModuleId} {ms ns : List (TypeExpr ModuleId)} (h : SeesThrough fs s t u)
      (hs : SeesThroughAll fs s ms ns) : SeesThroughAll fs s (t :: ms) (u :: ns)
end

mutual
theorem memberParts_of_seesThrough {t u : TypeExpr ModuleId} {s' : Session} :
    SeesThrough fs s t u → s'.Extends s →
      (memberParts flattenUnion t).on fs s' = (memberParts flattenUnion u).on fs s'
  | .refl t, _ => rfl
  | .name ht hresolve hu hs h, hext => by
    -- The name resolves in the later session to what it resolved to before.
    rw [memberParts_of_resolve ht (lasts_resolve hresolve hu s' (hext.trans hs)) hu]
    exact memberParts_of_seesThrough h hext
  | .union h, hext => by
    show flattenUnion _ fs s' = flattenUnion _ fs s'
    rw [flattenUnion_eq, flattenUnion_eq]
    exact Analysis.on_bind_congr (mapM_memberParts_of_seesThrough h hext) fun _ _ _ => rfl
theorem mapM_memberParts_of_seesThrough {ms ns : List (TypeExpr ModuleId)} {s' : Session} :
    SeesThroughAll fs s ms ns → s'.Extends s →
      (ms.mapM (memberParts flattenUnion)).on fs s' =
        (ns.mapM (memberParts flattenUnion)).on fs s'
  | .nil, _ => rfl
  | .cons h hs, hext => by
    rw [List.mapM_cons, List.mapM_cons]
    refine Analysis.on_bind_congr (memberParts_of_seesThrough h hext) fun parts s₁ hparts => ?_
    have hext₁ := (grows_memberParts grows_flattenUnion _ _ _ _ _ hparts).trans hext
    exact Analysis.on_bind_congr (mapM_memberParts_of_seesThrough hs hext₁) fun _ _ _ => rfl
end

/-! ## What is left -/

/-- Whether nothing of a member is left to be seen through: it is no union, and if it is a reference
or an import type, it did not resolve to a union, a literal or a keyword. -/
structure Settled (fs : Files) (t : TypeExpr ModuleId) : Prop where
  not_union : ∀ ms, t ≠ .union ms
  not_seenThrough : t.isTypeName = true →
    ∃ s u s', (resolve t).on fs s = some (u, s') ∧ u.isSeenThroughTo = false

theorem settled_of_memberParts {ps : List (TypeExpr ModuleId)}
    (hinner : ∀ ms s ps s', (inner ms).on fs s = some (ps, s') → ∀ p ∈ ps, Settled fs p)
    (h : (memberParts inner t).on fs s = some (ps, s')) : ∀ p ∈ ps, Settled fs p := by
  cases t with
  | reference _ _ _ | imported _ _ _ _ =>
    obtain ⟨u, s₁, hresolve, h⟩ := Analysis.on_bind_eq_some.mp h
    cases u with
    | union ms => exact hinner ms s₁ ps s' h
    | literal l | keyword k =>
      obtain ⟨rfl, -⟩ := Analysis.on_pure_eq_some.mp h
      exact List.forall_mem_singleton.mpr ⟨nofun, nofun⟩
    | _ =>
      obtain ⟨rfl, -⟩ := Analysis.on_pure_eq_some.mp h
      exact List.forall_mem_singleton.mpr ⟨nofun, fun _ => ⟨s, _, s₁, hresolve, rfl⟩⟩
  | union ms => exact hinner ms s ps s' h
  | _ =>
    obtain ⟨rfl, -⟩ := Analysis.on_pure_eq_some.mp h
    exact List.forall_mem_singleton.mpr ⟨nofun, nofun⟩

/-- **Every member of a flattened union is settled.** -/
theorem settled_of_flattenUnion {flat : List (TypeExpr ModuleId)}
    (h : flattenUnion ms fs s = some (flat, s')) : ∀ t ∈ flat, Settled fs t := by
  refine flattenUnion.partial_correctness (fun _ fs _ r => ∀ t ∈ r.1, Settled fs t) ?_ ms fs s
    (flat, s') h
  intro inner ih ms fs s ⟨flat, s'⟩ h
  obtain ⟨parts, s₁, hparts, h⟩ := Analysis.on_bind_eq_some.mp h
  obtain ⟨rfl, -⟩ := Analysis.on_pure_eq_some.mp h
  have hsettled := Analysis.on_mapM_forall (P := fun ps => ∀ p ∈ ps, Settled fs p)
    (fun t _ s ps s' hps =>
      settled_of_memberParts (fun ms s ps s' h => ih ms fs s (ps, s') h) hps) hparts
  intro t ht
  obtain ⟨ps, hps, ht⟩ := List.mem_flatten.mp ht
  exact hsettled ps hps t ht

/-! ## Schemas of unions -/

/-- **Names of unions, literals and keywords in a union do not show in its schema.** What they
resolve to can stand in their place, in nested unions and in the unions they resolve to as well; and
the form of the schema is decided on members of which nothing is left to be seen through. -/
theorem schemaWithin_of_seesThrough (h : SeesThroughAll fs s ms ns) (open_ : List NameKey) :
    schemaWithin open_ (.union ms) fs s = schemaWithin open_ (.union ns) fs s ∧
      ∀ flat s', flattenUnion ms fs s = some (flat, s') →
        flattenUnion ns fs s = some (flat, s') ∧ ∀ t ∈ flat, Settled fs t := by
  have hflat : flattenUnion ms fs s = flattenUnion ns fs s :=
    memberParts_of_seesThrough (.union h) (.refl s)
  have hplan : (planOf (.union ms)).on fs s = (planOf (.union ns)).on fs s :=
    Analysis.on_bind_congr hflat fun _ _ _ => rfl
  refine ⟨?_, fun flat s' hms => ⟨hflat ▸ hms, settled_of_flattenUnion hms⟩⟩
  rw [schemaWithin.eq_def, schemaWithin.eq_def]
  exact Analysis.on_bind_congr hplan fun _ _ _ => rfl

/-- The values of a role. -/
def roleValues : List (TypeExpr ModuleId) :=
  [.literal (.string "admin"), .literal (.string "guest")]

/-- A module with a name for some strings, and a name for these or `null`. -/
def namedRoles : Session :=
  { Session.start .empty with
    modules := [{ Module.empty ⟨"roles.ts"⟩ with
      declarations := [("Role", .typeAlias [] (.union roleValues)),
        ("Maybe", .typeAlias [] (.union [.reference "Role" [] 0, .keyword .null]))] }] }

/-- Names two deep stand for strings and `null`, which make a nullable enumeration. -/
theorem schemaWithin_of_seesThrough_roles :
    SeesThroughAll ⟨[], []⟩ namedRoles
        [.literal (.string "root"), .reference "Maybe" [] 0]
        [.literal (.string "root"), .union [.union roleValues, .keyword .null]] ∧
      schemaWithin [] (.union [.literal (.string "root"), .reference "Maybe" [] 0]) ⟨[], []⟩
        namedRoles = some (enumerationSchema ["root", "admin", "guest"] true, namedRoles) := by
  have hmaybe : (resolve (.reference "Maybe" [] 0)).on ⟨[], []⟩ namedRoles =
      some (.union [.reference "Role" [] 0, .keyword .null], namedRoles) := by cbv
  have hrole : (resolve (.reference "Role" [] 0)).on ⟨[], []⟩ namedRoles =
      some (.union roleValues, namedRoles) := by cbv
  have hsees : SeesThroughAll ⟨[], []⟩ namedRoles
      [.literal (.string "root"), .reference "Maybe" [] 0]
      [.literal (.string "root"), .union [.union roleValues, .keyword .null]] :=
    .cons (.refl _) (.cons (.name rfl hmaybe rfl (.refl _) (.union
      (.cons (.name rfl hrole rfl (.refl _) (.refl _)) (.cons (.refl _) .nil)))) .nil)
  refine ⟨hsees, (schemaWithin_of_seesThrough hsees []).1.trans ?_⟩
  cbv

end Session

end Routebook
