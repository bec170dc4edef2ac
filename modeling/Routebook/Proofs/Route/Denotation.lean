import Mathlib
import Routebook.Proofs.Path.Join
import Routebook.Proofs.Session.Shape
import Routebook.Route.Entry

/-!
# What a route table denotes

`walk` goes down a route table with the path it has been mounted at so far, and gives every object
type it meets that path. What a table *means* is put together the other way round, from the parts
up: `RouteTree.routes` knows nothing of the places where a table may be mounted.

`entriesOf_routes` says that the two agree. **The routes of the entries, in order, are the routes
that the table denotes**: none is lost, none comes twice, and each has its path under all the mount
points around it, however unions, intersections, mounted tables and names nest. What carries the
induction is that a path passes through the mount points one by one (`Path.join_assoc`).
-/

namespace Routebook

open Disk (Files)

/-! ## Tables all the way down -/

/-- A route table in which every part has been looked at. Parts that have no routes, such as a table
whose mount point is no string, are all the same. -/
inductive RouteTree where
  | table (routes : List (Member (TypeExpr ModuleId)))
  | joined (parts : List RouteTree)
  | mounted (path : String) (table : RouteTree)
  | nothing

/-- Routes by their paths, in order. -/
abbrev LocatedRoutes := List (String × TypeExpr ModuleId)

/-- Routes under a mount point. -/
def LocatedRoutes.under (mount : String) (rs : LocatedRoutes) : LocatedRoutes :=
  rs.map fun r => (Path.join mount r.1, r.2)

/-- The routes of an object type, by the paths that are its members' names. -/
def locatedMembers (ms : List (Member (TypeExpr ModuleId))) : LocatedRoutes :=
  ms.map fun m => (m.name, m.type)

mutual
/-- The routes that a table denotes. -/
def RouteTree.routes : RouteTree → LocatedRoutes
  | .table ms => locatedMembers ms
  | .joined parts => routesOfParts parts
  | .mounted path inner => inner.routes.under path
  | .nothing => []
/-- The routes of some parts, one after the other. -/
def RouteTree.routesOfParts : List RouteTree → LocatedRoutes
  | [] => []
  | t :: ts => t.routes ++ routesOfParts ts
end

theorem RouteTree.routesOfParts_eq (ts : List RouteTree) :
    routesOfParts ts = ts.flatMap routes := by
  induction ts with
  | nil => rfl
  | cons t ts ih => rw [routesOfParts, ih, List.flatMap_cons]

/-- The routes of an entry, with the paths they have under it. -/
def RouteEntry.located (e : RouteEntry) : LocatedRoutes := (locatedMembers e.routes).under e.mount

namespace LocatedRoutes

theorem under_append (mount : String) (rs qs : LocatedRoutes) :
    under mount (rs ++ qs) = under mount rs ++ under mount qs := List.map_append

/-- Routes that are mounted twice are mounted at the joined path. -/
theorem under_under (outer inner : String) (rs : LocatedRoutes) :
    under outer (under inner rs) = under (Path.join outer inner) rs := by
  simp only [under, List.map_map]
  exact List.map_congr_left fun r _ => by simp [Path.join_assoc]

theorem under_empty (rs : LocatedRoutes) : under "" rs = rs := by
  simp only [under, Path.join_empty]
  exact List.map_id _

end LocatedRoutes

namespace Session

/-- The table that a part is, with every part of it looked at from left to right. -/
def treeOf (node : RouteNode) (fs : Files) (s : Session) : Option (RouteTree × Session) :=
  Analysis.on (do
    let inner : RouteNode → Analysis RouteTree := fun node fs s => s |>.treeOf node fs
    match node with
    | .table ms => return .table ms
    | .joined parts => return .joined (← parts.mapM fun t => do inner (← routeNode t))
    | .mounted table path => do
      match (← resolve path).string? with
      | none => return .nothing
      | some p => return .mounted p (← inner (← routeNode table))
    | .blank | .other _ => return .nothing) fs s
partial_fixpoint

/-! ## Walking down and reading up -/

/-- What a walk that starts at a mount point has to do with the table it walks. -/
def Walks (mount : String) (es : List RouteEntry) (tree : RouteTree) : Prop :=
  es.flatMap RouteEntry.located = tree.routes.under mount

theorem Walks.joined {mount : String} {ess : List (List RouteEntry)} {trees : List RouteTree}
    (h : List.Forall₂ (Walks mount) ess trees) : Walks mount ess.flatten (.joined trees) := by
  rw [Walks, RouteTree.routes, RouteTree.routesOfParts_eq]
  induction h with
  | nil => rfl
  | cons hw _ ih =>
    rw [List.flatten_cons, List.flatMap_append, List.flatMap_cons, LocatedRoutes.under_append,
      ← ih, hw]

theorem Walks.mounted {mount p : String} {es : List RouteEntry} {tree : RouteTree}
    (h : Walks (Path.join mount p) es tree) : Walks mount es (.mounted p tree) := by
  rw [Walks, RouteTree.routes, LocatedRoutes.under_under]
  exact h

/-- A walk that ends has read a whole table, and leaves the session that reading it leaves. -/
theorem treeOf_of_walk {mount : String} {node : RouteNode} {fs : Files} {s s' : Session}
    {es : List RouteEntry} (h : walk mount node fs s = some (es, s')) :
    ∃ tree, treeOf node fs s = some (tree, s') ∧ Walks mount es tree := by
  refine walk.partial_correctness
    (fun mount node fs s r => ∃ tree, treeOf node fs s = some (tree, r.2) ∧ Walks mount r.1 tree)
    ?_ mount node fs s (es, s') h
  intro walk ih mount node fs s ⟨es, s'⟩ h
  rw [treeOf.eq_def]
  cases node with
  | table ms =>
    obtain ⟨rfl, rfl⟩ := Analysis.on_pure_eq_some.mp h
    exact ⟨.table ms, rfl, by simp [Walks, RouteEntry.located, RouteTree.routes]⟩
  | joined parts =>
    obtain ⟨ess, s₁, hparts, h⟩ := Analysis.on_bind_eq_some.mp h
    obtain ⟨rfl, rfl⟩ := Analysis.on_pure_eq_some.mp h
    obtain ⟨trees, htrees, hwalks⟩ := Analysis.on_mapM_simulates
      (g := fun t => do treeOf (← routeNode t)) (R := Walks mount) (fun t _ s es s' ht => by
        obtain ⟨node, s₁, hnode, hwalk⟩ := Analysis.on_bind_eq_some.mp ht
        obtain ⟨tree, htree, hw⟩ := ih mount node fs s₁ (es, s') hwalk
        exact ⟨tree, (Analysis.on_bind hnode).trans htree, hw⟩) hparts
    exact ⟨.joined trees, Analysis.on_bind htrees, .joined hwalks⟩
  | mounted table path =>
    obtain ⟨shape, s₁, hpath, h⟩ := Analysis.on_bind_eq_some.mp h
    refine (Exists.imp fun tree => And.imp_left (Analysis.on_bind hpath).trans) ?_
    cases hp : shape.string? with
    | none =>
      simp only [hp] at h ⊢
      obtain ⟨rfl, rfl⟩ := Analysis.on_pure_eq_some.mp h
      exact ⟨.nothing, rfl, rfl⟩
    | some p =>
      simp only [hp] at h ⊢
      obtain ⟨node, s₂, hnode, hwalk⟩ := Analysis.on_bind_eq_some.mp h
      obtain ⟨tree, htree, hw⟩ := ih (Path.join mount p) node fs s₂ (es, s') hwalk
      exact ⟨.mounted p tree, (Analysis.on_bind hnode).trans (Analysis.on_bind htree),
        .mounted hw⟩
  | blank | other _ =>
    obtain ⟨rfl, rfl⟩ := Analysis.on_pure_eq_some.mp h
    exact ⟨.nothing, rfl, rfl⟩

/-- **The entries of a route table are its routes.** -/
theorem entriesOf_routes {table : TypeExpr ModuleId} {fs : Files} {s s' : Session}
    {es : List RouteEntry} (h : (entriesOf table).on fs s = some (.ok es, s')) :
    ∃ node s₁ tree, (routeNode table).on fs s = some (node, s₁) ∧
      treeOf node fs s₁ = some (tree, s') ∧ es.flatMap RouteEntry.located = tree.routes := by
  obtain ⟨node, s₁, hnode, h⟩ := Analysis.on_bind_eq_some.mp h
  have hwalk : walk "" node fs s₁ = some (es, s') := by
    cases node with
    | other t => simp [Analysis.on_pure_eq_some] at h
    | _ =>
      obtain ⟨es', s₂, hwalk, h⟩ := Analysis.on_bind_eq_some.mp h
      obtain ⟨h₁, rfl⟩ := Analysis.on_pure_eq_some.mp h
      obtain rfl := Except.ok.inj h₁
      exact hwalk
  obtain ⟨tree, htree, hw⟩ := treeOf_of_walk hwalk
  exact ⟨node, s₁, tree, hnode, htree, by rw [hw, LocatedRoutes.under_empty]⟩

/-- A table with a mounted union in it, which has another mounted table in it. -/
def nestedTable : TypeExpr ModuleId :=
  .intersection [
    .object [⟨"/", false, .keyword .string⟩],
    .reference "MergeSchemaPath" [
      .union [
        .object [⟨"/users", false, .keyword .number⟩, ⟨"/", false, .keyword .boolean⟩],
        .reference "MergeSchemaPath"
          [.object [⟨"ping", false, .keyword .null⟩], .literal (.string "/v1/")] 0,
        .reference "BlankSchema" [] 0],
      .literal (.string "/api/")] 0]

def nestedEntries : List RouteEntry :=
  [⟨"", [⟨"/", false, .keyword .string⟩]⟩,
    ⟨"/api/", [⟨"/users", false, .keyword .number⟩, ⟨"/", false, .keyword .boolean⟩]⟩,
    ⟨"/api/v1/", [⟨"ping", false, .keyword .null⟩]⟩]

theorem entriesOf_routes_nestedTable :
    (entriesOf nestedTable).on ⟨[], []⟩ (.start .empty) = some (.ok nestedEntries, .start .empty) ∧
      ∃ node s₁ tree, (routeNode nestedTable).on ⟨[], []⟩ (.start .empty) = some (node, s₁) ∧
        treeOf node ⟨[], []⟩ s₁ = some (tree, .start .empty) ∧
        nestedEntries.flatMap RouteEntry.located = tree.routes :=
  ⟨by cbv, entriesOf_routes (by cbv)⟩

end Session
end Routebook
