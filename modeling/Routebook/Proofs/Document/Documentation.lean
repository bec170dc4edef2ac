import Routebook.Proofs.Document.Routes

/-!
# Where the documentation of an operation comes from

Documentation belongs to a path as it is written, and an operation is looked up at its path in the
document. Between the two stands the route that the operation was made of: **the operation at a path
says what the documentation says of the last route that answers its method there**
(`Session.followsDocs_of_pathsOfEntries`, `followsDocs_pathsOfRoutes`), whether the routes were read
from a type or found by searching. The parameters, the body and the responses of an operation have
no part in that.
-/

namespace Routebook

open Disk (Files)

/-! ## Routes as they are written -/

/-- A route as it is written, with its path in the document and the methods it answers there. -/
structure RouteOrigin where
  path : String
  written : String
  methods : List Method

/-- The last of some routes that answers a method at a path. -/
def RouteOrigin.last? (os : List RouteOrigin) (path : String) (m : Method) : Option RouteOrigin :=
  os.reverse.find? fun o => o.path = path ∧ m ∈ o.methods

theorem RouteOrigin.last?_cons (o : RouteOrigin) (os : List RouteOrigin) (path : String)
    (m : Method) :
    last? (o :: os) path m =
      (last? os path m).or (if o.path = path ∧ m ∈ o.methods then some o else none) := by
  rw [last?, List.reverse_cons, List.find?_append, ← last?, List.find?_singleton]
  simp

/-- Whether an operation says the same as another of what it is for. -/
structure Operation.SaysLike (o base : Operation) : Prop where
  summary : o.summary = base.summary
  description : o.description = base.description
  tags : o.tags = base.tags
  deprecated : o.deprecated = base.deprecated

/-- Whether each operation says what is said of the last route that answers its method at its
path. -/
def Paths.FollowsDocs (ps : Paths) (docs : RouteDocs) (group : String) (os : List RouteOrigin) :
    Prop :=
  ∀ path m x, ps.slot path m = some x → ∃ o, RouteOrigin.last? os path m = some o ∧
    x.SaysLike (documentedOperation docs group m o.written path)

/-- Whether a reading has operations for the methods of a route, each with what is said of it. -/
structure RouteReading.Follows (docs : RouteDocs) (group : String) (r : RouteReading)
    (o : RouteOrigin) : Prop where
  path : r.path = o.path
  nodup : (r.operations.map Prod.fst).Nodup
  methods : ∀ m, (r.operation? m).isSome ↔ m ∈ o.methods
  operation : ∀ m x, r.operation? m = some x →
    x.SaysLike (documentedOperation docs group m o.written o.path)

variable {docs : RouteDocs} {group : String} {rs : List RouteReading} {os : List RouteOrigin}

/-- What stands at a path and method was there before only if no route answers there. -/
theorem RouteReading.slot_of_follows (h : List.Forall₂ (RouteReading.Follows docs group) rs os)
    (ps : Paths) {path : String} {m : Method} {x : Operation}
    (hx : (rs.foldl putInto ps).slot path m = some x) :
    (∃ o, RouteOrigin.last? os path m = some o ∧
      x.SaysLike (documentedOperation docs group m o.written path)) ∨
    (RouteOrigin.last? os path m = none ∧ ps.slot path m = some x) := by
  induction h generalizing ps with
  | nil => exact .inr ⟨rfl, hx⟩
  | @cons r o rs os hr _ ih =>
    rw [RouteOrigin.last?_cons]
    rcases ih _ hx with ⟨later, hlater, hsays⟩ | ⟨hlater, hslot⟩
    · exact .inl ⟨later, by rw [hlater, Option.some_or], hsays⟩
    · rw [hlater, Option.none_or]
      rw [slot_putInto hr.nodup, hr.path] at hslot
      by_cases hpath : o.path = path
      · rw [if_pos hpath] at hslot
        by_cases hm : m ∈ o.methods
        · obtain ⟨y, hy⟩ := Option.isSome_iff_exists.mp ((hr.methods m).mpr hm)
          rw [hy, Option.some_or] at hslot
          obtain rfl := Option.some.inj hslot
          exact .inl ⟨o, if_pos ⟨hpath, hm⟩, hpath ▸ hr.operation m y hy⟩
        · have hnone : r.operation? m = none := by
            rw [← Option.not_isSome_iff_eq_none]
            exact fun hsome => hm ((hr.methods m).mp hsome)
          rw [hnone, Option.none_or] at hslot
          exact .inr ⟨if_neg fun hcond => hm hcond.2, hslot⟩
      · rw [if_neg hpath, Option.none_or] at hslot
        exact .inr ⟨if_neg fun hcond => hpath hcond.1, hslot⟩

theorem Paths.followsDocs_foldl_putInto
    (h : List.Forall₂ (RouteReading.Follows docs group) rs os) :
    Paths.FollowsDocs (rs.foldl RouteReading.putInto []) docs group os := by
  intro path m x hx
  rcases RouteReading.slot_of_follows h [] hx with hlast | ⟨-, hempty⟩
  · exact hlast
  · exact absurd hempty (by simp [Paths.slot, Table.get?])

/-! ## Routes found by searching -/

/-- A route that was found, as it is written. -/
def RouteOrigin.ofFound (r : FoundRoute) : RouteOrigin :=
  ⟨Path.normalize r.path, r.path, [r.method]⟩

/-- What searching for routes puts in is what one reading of each route puts in. -/
def FoundRoute.reading (docs : RouteDocs) (group : String) (r : FoundRoute) : RouteReading :=
  let o := documentedOperation docs group r.method r.path (Path.normalize r.path)
  ⟨Path.normalize r.path, [], [(r.method, { o with responses := defaultResponses })]⟩

theorem FoundRoute.follows_reading (r : FoundRoute) :
    (r.reading docs group).Follows docs group (.ofFound r) where
  path := rfl
  nodup := List.nodup_singleton _
  methods m := by
    by_cases hm : r.method = m
    · simp [reading, RouteReading.operation?, RouteOrigin.ofFound, hm]
    · simp [reading, RouteReading.operation?, RouteOrigin.ofFound, hm, Ne.symm hm]
  operation m x hx := by
    by_cases hm : r.method = m
    · subst hm
      have hfind : (r.reading docs group).operation? r.method = some
          { documentedOperation docs group r.method r.path (Path.normalize r.path) with
            responses := defaultResponses } := by
        simp [reading, RouteReading.operation?]
      rw [hfind] at hx
      obtain rfl := Option.some.inj hx
      exact ⟨rfl, rfl, rfl, rfl⟩
    · have hnone : (r.reading docs group).operation? m = none := by
        simp [reading, RouteReading.operation?, hm]
      rw [hnone] at hx
      exact absurd hx (by simp)

theorem followsDocs_pathsOfRoutes (docs : RouteDocs) (group : String) (routes : List FoundRoute) :
    (pathsOfRoutes docs group routes).FollowsDocs docs group (routes.map .ofFound) := by
  have hpaths : pathsOfRoutes docs group routes =
      (routes.map (FoundRoute.reading docs group)).foldl RouteReading.putInto [] := by
    rw [List.foldl_map]
    rfl
  rw [hpaths]
  refine Paths.followsDocs_foldl_putInto ?_
  rw [List.forall₂_map_left_iff, List.forall₂_map_right_iff]
  exact List.forall₂_same.mpr fun r _ => r.follows_reading

/-! ## Routes of a type -/

namespace Session

variable {fs : Files} {s s' : Session}

/-- An operation says of what it is for what its documentation says. -/
theorem saysLike_of_operation {written path : String} {g : Signature} {o : Operation}
    (h : (operation docs group written path g).on fs s = some (o, s')) :
    o.SaysLike (documentedOperation docs group g.method written path) := by
  rw [operation] at h
  cases hfirst : g.branches.head? with
  | none =>
    simp only [hfirst, pure_bind] at h
    obtain ⟨rs, s₁, -, h⟩ := Analysis.on_bind_eq_some.mp h
    obtain ⟨rfl, rfl⟩ := Analysis.on_pure_eq_some.mp h
    exact ⟨rfl, rfl, rfl, rfl⟩
  | some first =>
    simp only [hfirst, pure_bind] at h
    obtain ⟨ps, s₁, -, h⟩ := Analysis.on_bind_eq_some.mp h
    obtain ⟨body, s₂, -, h⟩ := Analysis.on_bind_eq_some.mp h
    obtain ⟨rs, s₃, -, h⟩ := Analysis.on_bind_eq_some.mp h
    obtain ⟨rfl, rfl⟩ := Analysis.on_pure_eq_some.mp h
    exact ⟨rfl, rfl, rfl, rfl⟩

/-- A route of a type with the methods it was read to answer. -/
def originOf (route : String × Member (TypeExpr ModuleId)) (r : RouteReading) : RouteOrigin :=
  ⟨Path.normalize (Path.join route.1 route.2.name), route.2.name, r.methods⟩

theorem follows_of_readRoute {route : String × Member (TypeExpr ModuleId)} {r : RouteReading}
    (h : (readRoute docs group route).on fs s = some (r, s')) :
    r.Follows docs group (originOf route r) := by
  have hcomplete := complete_of_readRoute h
  obtain ⟨members, s₁, -, h⟩ := Analysis.on_bind_eq_some.mp h
  obtain ⟨vs, s₂, -, h⟩ := Analysis.on_bind_eq_some.mp h
  obtain ⟨os, s₃, hos, h⟩ := Analysis.on_bind_eq_some.mp h
  obtain ⟨rfl, rfl⟩ := Analysis.on_pure_eq_some.mp h
  have hsays : ∀ o ∈ os, o.2.SaysLike (documentedOperation docs group o.1 route.2.name
      (Path.normalize (Path.join route.1 route.2.name))) := by
    refine Analysis.on_mapM_forall (fun g _ s o s' ho => ?_) hos
    obtain ⟨o, s₁, ho, h⟩ := Analysis.on_bind_eq_some.mp ho
    obtain ⟨rfl, rfl⟩ := Analysis.on_pure_eq_some.mp h
    exact saysLike_of_operation ho
  refine ⟨rfl, ?_, RouteReading.isSome_operation?_iff hcomplete, fun m x hx => ?_⟩
  · rw [hcomplete]
    exact nodup_firstOccurrences ..
  · obtain ⟨o, ho, rfl⟩ := Option.map_eq_some_iff.mp hx
    have hm : o.1 = m := by simpa using List.find?_some ho
    exact hm ▸ hsays o (List.mem_of_find?_eq_some ho)

/-- **The operations of entries say what is said of the last of their routes.** -/
theorem followsDocs_of_pathsOfEntries {es : List RouteEntry} {ps : Paths}
    (h : (pathsOfEntries docs group es).on fs s = some (ps, s')) :
    ∃ rs, ((locatedRoutes es).mapM (readRoute docs group)).on fs s = some (rs, s') ∧
      ps.FollowsDocs docs group (List.zipWith originOf (locatedRoutes es) rs) := by
  rw [pathsOfEntries_eq] at h
  obtain ⟨rs, s₁, hrs, h⟩ := Analysis.on_bind_eq_some.mp h
  obtain ⟨rfl, rfl⟩ := Analysis.on_pure_eq_some.mp h
  exact ⟨rs, hrs, Paths.followsDocs_foldl_putInto
    (Analysis.on_mapM_zipWith (fun _ _ _ _ => follows_of_readRoute) hrs)⟩

end Session

end Routebook
