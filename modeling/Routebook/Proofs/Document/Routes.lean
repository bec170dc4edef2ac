import Mathlib
import Routebook.Proofs.Document.Build
import Routebook.Proofs.Session.Analysis
import Routebook.Proofs.Table

/-!
# The operations of routes

A document is built by putting in one operation after another, where a later one replaces an earlier
one at the same path and method. `pathsOfEntries_eq_some_iff` says what comes of it without that
order of work: **at each path and method stands the operation of the last route that answers the
method there, and a path has the place of its first operation.** A route answers the methods of its
verb keys, with all branches of one method together; what else its value holds makes no difference.

Paths are compared as they are in the document. So routes that are written differently, such as
`/users/:id` and `/users/:id{[0-9]+}` under the mount points they have, are the same path.
-/

namespace Routebook

open Disk (Files)

/-! ## First occurrences, one element at a time -/

theorem firstOccurrences_concat {α : Type} [DecidableEq α] (as : List α) (a : α) :
    firstOccurrences [] (as ++ [a]) =
      if a ∈ as then firstOccurrences [] as else firstOccurrences [] as ++ [a] := by
  suffices h : ∀ seen, firstOccurrences seen (as ++ [a]) =
      if a ∈ seen ∨ a ∈ as then firstOccurrences seen as else firstOccurrences seen as ++ [a] by
    simpa using h []
  induction as with
  | nil =>
    intro seen
    by_cases ha : a ∈ seen <;> simp [firstOccurrences, ha]
  | cons b as ih =>
    intro seen
    rw [List.cons_append, firstOccurrences, firstOccurrences, ih, ih]
    by_cases hb : b ∈ seen
    · -- An element that has been seen neither adds to the list nor to what has been seen.
      have hsame : a ∈ seen ∨ a ∈ b :: as ↔ a ∈ seen ∨ a ∈ as := by
        rw [List.mem_cons]
        refine ⟨?_, ?_⟩
        · rintro (h | rfl | h)
          · exact Or.inl h
          · exact Or.inl hb
          · exact Or.inr h
        · exact Or.imp_right Or.inr
      simp only [if_pos hb, hsame]
    · have hmore : a ∈ b :: seen ∨ a ∈ as ↔ a ∈ seen ∨ a ∈ b :: as := by
        rw [List.mem_cons, List.mem_cons, or_assoc, or_left_comm]
      simp only [if_neg hb, hmore]
      split <;> rfl

namespace Session

/-! ## The signatures of a value -/

/-- Branches by methods, one entry for each verb key. -/
abbrev Verbs := List (Method × List Branch)

/-- The verb key that a member is named by, with what stands there. -/
def verbKey? (x : Member (TypeExpr ModuleId)) : Option (Method × TypeExpr ModuleId) :=
  (Method.ofVerbKey? x.name).map fun m => (m, x.type)

def verbBranches (v : Method × TypeExpr ModuleId) : Analysis (Method × List Branch) := do
  return (v.1, ← (← branchObjects v.2).mapM branchOf)

/-- All branches of one method together, from the first of its keys to the last. -/
def branchesFor (vs : Verbs) (m : Method) : List Branch :=
  (vs.filter fun v => v.1 = m).flatMap Prod.snd

/-- One signature for each method, in the order of their first keys. -/
def signaturesOf (vs : Verbs) : List Signature :=
  (firstOccurrences [] (vs.map Prod.fst)).map fun m => ⟨m, branchesFor vs m⟩

theorem addBranches_of_not_mem {m : Method} {bs : List Branch} {ms : List Method}
    (f : Method → List Branch) (h : m ∉ ms) :
    addBranches m bs (ms.map fun n => ⟨n, f n⟩) = ms.map (fun n => ⟨n, f n⟩) ++ [⟨m, bs⟩] := by
  induction ms with
  | nil => rfl
  | cons n ms ih =>
    have hn : n ≠ m := fun he => h (he ▸ List.mem_cons_self)
    rw [List.map_cons, addBranches, if_neg hn, ih fun hm => h (List.mem_cons_of_mem _ hm),
      List.cons_append]

theorem addBranches_of_mem {m : Method} {bs : List Branch} {ms : List Method}
    (f : Method → List Branch) (hms : ms.Nodup) (h : m ∈ ms) :
    addBranches m bs (ms.map fun n => ⟨n, f n⟩) =
      ms.map fun n => ⟨n, if n = m then f n ++ bs else f n⟩ := by
  induction ms with
  | nil => exact absurd h List.not_mem_nil
  | cons n ms ih =>
    obtain ⟨hn, hms⟩ := List.nodup_cons.mp hms
    rw [List.map_cons, addBranches, List.map_cons]
    by_cases hnm : n = m
    · subst hnm
      -- Below its own signature a method has no other.
      have hrest : (ms.map fun k => (⟨k, f k⟩ : Signature)) =
          ms.map fun k => ⟨k, if k = n then f k ++ bs else f k⟩ :=
        List.map_congr_left fun k hk => by rw [if_neg fun he : k = n => hn (he ▸ hk)]
      simp only [if_true, hrest]
    · have hm : m ∈ ms := (List.mem_cons.mp h).resolve_left fun he => hnm he.symm
      simp only [hnm, if_false, ih hms hm]

def addVerb (found : List Signature) (v : Method × List Branch) : List Signature :=
  addBranches v.1 v.2 found

theorem signaturesOf_concat (vs : Verbs) (v : Method × List Branch) :
    signaturesOf (vs ++ [v]) = addVerb (signaturesOf vs) v := by
  obtain ⟨m, bs⟩ := v
  have hbranches : ∀ n, branchesFor (vs ++ [(m, bs)]) n =
      if n = m then branchesFor vs n ++ bs else branchesFor vs n := by
    intro n
    by_cases hn : m = n
    · simp [branchesFor, hn]
    · simp [branchesFor, hn, Ne.symm hn]
  rw [addVerb, signaturesOf, signaturesOf, List.map_append, List.map_singleton,
    firstOccurrences_concat]
  simp only [hbranches]
  by_cases hm : m ∈ vs.map Prod.fst
  · rw [if_pos hm, addBranches_of_mem _ (nodup_firstOccurrences ..)
      (mem_firstOccurrences.mpr ⟨hm, List.not_mem_nil⟩)]
  · have hfirst : m ∉ firstOccurrences [] (vs.map Prod.fst) :=
      fun h => hm (mem_firstOccurrences.mp h).1
    have hnone : branchesFor vs m = [] := by
      rw [branchesFor, List.filter_eq_nil_iff.mpr, List.flatMap_nil]
      intro v hv hvm
      exact hm (List.mem_map.mpr ⟨v, hv, by simpa using hvm⟩)
    rw [if_neg hm, addBranches_of_not_mem _ hfirst, List.map_append, List.map_singleton, if_pos rfl,
      hnone, List.nil_append]
    congr 1
    exact List.map_congr_left fun n hn => by rw [if_neg fun he : n = m => hfirst (he ▸ hn)]

theorem foldl_addVerb (vs : Verbs) : vs.foldl addVerb [] = signaturesOf vs := by
  induction vs using List.reverseRecOn with
  | nil => rfl
  | append_singleton vs v ih =>
    rw [List.foldl_append, ih, signaturesOf_concat, List.foldl_cons, List.foldl_nil]

/-- What one member adds to the signatures that have been found. -/
def addMember (found : List Signature) (x : Member (TypeExpr ModuleId)) :
    Analysis (List Signature) := do
  match verbKey? x with
  | none => return found
  | some v => return addVerb found (← verbBranches v)

theorem signatures_eq_foldlM (value : TypeExpr ModuleId) :
    signatures value = (do
      let members ← objectMembers value
      members.foldlM addMember []) := by
  rw [signatures]
  congr 1
  funext members
  congr 1
  funext found x
  cases hkey : Method.ofVerbKey? x.name with
  | none => simp only [addMember, verbKey?, hkey, Option.map_none]
  | some method =>
    simp only [addMember, verbKey?, hkey, Option.map_some, verbBranches, bind_assoc, pure_bind,
      addVerb]

theorem foldlM_addMember (members : List (Member (TypeExpr ModuleId))) (found : List Signature) :
    members.foldlM addMember found = (members.filterMap verbKey?).foldlM
      (fun found v => do return addVerb found (← verbBranches v)) found := by
  induction members generalizing found with
  | nil => rfl
  | cons x members ih =>
    rw [List.foldlM_cons, List.filterMap_cons]
    cases hkey : verbKey? x with
    | none => simp only [addMember, hkey, pure_bind, ih]
    | some v => simp only [addMember, hkey, List.foldlM_cons, bind_assoc, pure_bind, ih]

/-- The signatures of a value are those of its verb keys. Members of other names are passed over. -/
theorem signatures_eq (value : TypeExpr ModuleId) : signatures value = do
    let members ← objectMembers value
    let vs ← (members.filterMap verbKey?).mapM verbBranches
    return signaturesOf vs := by
  rw [signatures_eq_foldlM]
  congr 1
  funext members
  rw [foldlM_addMember, Analysis.foldlM_eq_mapM_foldl fun _ _ => rfl]
  simp only [foldl_addVerb]

end Session

/-! ## Routes and what they answer -/

/-- A route as it has been read: its path in the document, the members of its value with all names
resolved and intersections flattened, and the operations that were made of it. -/
structure RouteReading where
  path : String
  members : List (Member (TypeExpr ModuleId))
  operations : List (Method × Operation)

namespace RouteReading

/-- The methods of the verb keys of a route, as often as they come. -/
def methods (r : RouteReading) : List Method :=
  r.members.filterMap fun x => Method.ofVerbKey? x.name

/-- The operation that a route has for a method. -/
def operation? (r : RouteReading) (m : Method) : Option Operation :=
  (r.operations.find? fun o => o.1 = m).map Prod.snd

/-- Put the operations of a route into the paths. -/
def putInto (ps : Paths) (r : RouteReading) : Paths :=
  r.operations.foldl (fun ps o => ps.put r.path o.1 o.2) ps

/-- Whether a route has one operation for each of its methods. -/
def Complete (r : RouteReading) : Prop :=
  r.operations.map Prod.fst = firstOccurrences [] r.methods

/-- The operation of the last of some routes at a path that answers a method. -/
def lastOperation (rs : List RouteReading) (path : String) (m : Method) : Option Operation :=
  rs.reverse.findSome? fun r => if r.path = path then r.operation? m else none

end RouteReading

/-- The routes of some entries in order, each with the path it is mounted at. -/
def locatedRoutes (es : List RouteEntry) : List (String × Member (TypeExpr ModuleId)) :=
  es.flatMap fun e => e.routes.map fun x => (e.mount, x)

/-- What the paths of a document have to be, that some routes are put into. -/
structure Paths.Documents (ps : Paths) (rs : List RouteReading) : Prop where
  keys : Table.keys ps = firstOccurrences [] ((rs.filter fun r => r.methods ≠ []).map (·.path))
  slot : ∀ path m, ps.slot path m = RouteReading.lastOperation rs path m
  occupied : ∀ path m, (ps.slot path m).isSome ↔ ∃ r ∈ rs, r.path = path ∧ m ∈ r.methods
  nonempty : ∀ e ∈ ps, ∃ m, (e.2.operation? m).isSome
  count : ps.length =
    (firstOccurrences [] ((rs.filter fun r => r.methods ≠ []).map (·.path))).length

/-! ## Putting operations in -/

theorem Paths.slot_put (ps : Paths) (path other : String) (m n : Method) (o : Operation) :
    (ps.put path m o).slot other n =
      if other = path ∧ n = m then some o else ps.slot other n := by
  rw [slot, put, Table.get?_update, slot]
  by_cases hpath : other = path
  · subst hpath
    rw [if_pos rfl, Option.bind_some, PathItem.operation?_put]
    by_cases hm : n = m
    · rw [if_pos hm, if_pos ⟨rfl, hm⟩]
    · rw [if_neg hm, if_neg fun h => hm h.2]
      cases Table.get? ps other <;> rfl
  · rw [if_neg hpath, if_neg fun h => hpath h.1]

namespace RouteReading

variable {r : RouteReading} {rs : List RouteReading}

theorem keys_putInto (ps : Paths) (r : RouteReading) :
    Table.keys (putInto ps r) =
      Table.keys ps ++ firstOccurrences (Table.keys ps) (r.operations.map fun _ => r.path) :=
  Table.keys_foldl_update (fun _ => r.path)
    (fun (o : Method × Operation) (item : Option PathItem) => (item.getD .empty).put o.1 o.2)
    r.operations ps

/-- The operations of a route are all at its path, and none of them replaces another. -/
theorem slot_putInto (hr : (r.operations.map Prod.fst).Nodup) (ps : Paths) (path : String)
    (m : Method) : (putInto ps r).slot path m =
      (if r.path = path then r.operation? m else none).or (ps.slot path m) := by
  obtain ⟨here, members, os⟩ := r
  dsimp only [putInto, operation?] at hr ⊢
  induction os generalizing ps with
  | nil => simp
  | cons o os ih =>
    obtain ⟨n, o⟩ := o
    obtain ⟨hn, hos⟩ := List.nodup_cons.mp hr
    rw [List.foldl_cons, ih _ hos, Paths.slot_put, List.find?_cons]
    by_cases hpath : here = path
    · by_cases hm : n = m
      · subst hm
        -- The method does not come again, so the operation that has been put in stays.
        have hnone : os.find? (fun o => o.1 = n) = none := by
          rw [List.find?_eq_none]
          exact fun p hp hpn => hn (List.mem_map.mpr ⟨p, hp, by simpa using hpn⟩)
        simp [hpath, hnone]
      · simp [hpath, hm, Ne.symm hm]
    · simp [hpath, Ne.symm hpath]

theorem isSome_operation?_iff (hr : r.Complete) (m : Method) :
    (r.operation? m).isSome ↔ m ∈ r.methods := by
  have hmem : m ∈ r.operations.map Prod.fst ↔ m ∈ r.methods := by
    rw [hr, mem_firstOccurrences]
    simp
  rw [← hmem, operation?, Option.isSome_map, List.find?_isSome, List.mem_map]
  simp

theorem operations_eq_nil_iff (hr : r.Complete) : r.operations = [] ↔ r.methods = [] := by
  rw [← List.map_eq_nil_iff, hr]
  cases r.methods <;> simp [firstOccurrences]

/-- Later routes win over earlier ones, and any over what was there before. -/
theorem slot_foldl_putInto (hrs : ∀ r ∈ rs, r.Complete) (ps : Paths) (path : String) (m : Method) :
    (rs.foldl putInto ps).slot path m = (lastOperation rs path m).or (ps.slot path m) := by
  induction rs generalizing ps with
  | nil => simp [lastOperation]
  | cons r rs ih =>
    obtain ⟨hr, hrs⟩ := List.forall_mem_cons.mp hrs
    have hnodup : (r.operations.map Prod.fst).Nodup := by
      rw [hr]
      exact nodup_firstOccurrences ..
    rw [List.foldl_cons, ih hrs, slot_putInto hnodup, ← Option.or_assoc]
    congr 1
    simp only [lastOperation, List.reverse_cons, List.findSome?_append]
    cases h : rs.reverse.findSome? fun r => if r.path = path then r.operation? m else none with
    | none => simp
    | some o => simp

/-- A path that several operations of one route are put at is one path. -/
theorem keys_foldl_putInto (hrs : ∀ r ∈ rs, r.Complete) (ps : Paths) :
    Table.keys (rs.foldl putInto ps) = Table.keys ps ++
      firstOccurrences (Table.keys ps) ((rs.filter fun r => r.methods ≠ []).map (·.path)) := by
  induction rs generalizing ps with
  | nil => simp [firstOccurrences]
  | cons r rs ih =>
    obtain ⟨hr, hrs⟩ := List.forall_mem_cons.mp hrs
    have hsame : ∀ (os : List (Method × Operation)) (keys : List String), os ≠ [] →
        keys ++ firstOccurrences keys (os.map fun _ => r.path) =
          if r.path ∈ keys then keys else keys ++ [r.path] := by
      intro os keys hos
      obtain ⟨o, os, rfl⟩ := List.exists_cons_of_ne_nil hos
      rw [List.map_cons, append_firstOccurrences_cons, firstOccurrences_eq_nil, List.append_nil]
      intro path hpath
      obtain ⟨p, -, rfl⟩ := List.mem_map.mp hpath
      by_cases hin : r.path ∈ keys <;> simp [hin]
    rw [List.foldl_cons, ih hrs, keys_putInto, List.filter_cons]
    by_cases hmethods : r.methods = []
    · rw [(operations_eq_nil_iff hr).mpr hmethods]
      simp [hmethods, firstOccurrences]
    · rw [hsame _ _ fun h => hmethods ((operations_eq_nil_iff hr).mp h)]
      simp only [hmethods, ne_eq, not_false_eq_true, decide_true, if_true, List.map_cons,
        append_firstOccurrences_cons]

/-- A method of a path has an operation if some route answers it there. -/
theorem isSome_lastOperation_iff {rs : List RouteReading} (hrs : ∀ r ∈ rs, r.Complete)
    (path : String) (m : Method) :
    (lastOperation rs path m).isSome ↔ ∃ r ∈ rs, r.path = path ∧ m ∈ r.methods := by
  rw [lastOperation, List.isSome_findSome?, List.any_eq_true]
  constructor
  · rintro ⟨r, hr, hsome⟩
    have hr := List.mem_reverse.mp hr
    by_cases hpath : r.path = path
    · rw [if_pos hpath, isSome_operation?_iff (hrs r hr)] at hsome
      exact ⟨r, hr, hpath, hsome⟩
    · rw [if_neg hpath] at hsome
      exact absurd hsome (by simp)
  · rintro ⟨r, hr, hpath, hm⟩
    refine ⟨r, List.mem_reverse.mpr hr, ?_⟩
    rwa [if_pos hpath, isSome_operation?_iff (hrs r hr)]

end RouteReading

/-- Routes that answer each of their methods once, put in one after another, are documented. -/
theorem Paths.documents_foldl_putInto {rs : List RouteReading} (hrs : ∀ r ∈ rs, r.Complete) :
    Paths.Documents (rs.foldl RouteReading.putInto []) rs := by
  generalize hps : rs.foldl RouteReading.putInto [] = ps
  have hkeys : Table.keys ps =
      firstOccurrences [] ((rs.filter fun r => r.methods ≠ []).map (·.path)) := by
    rw [← hps, RouteReading.keys_foldl_putInto hrs]
    rfl
  have hslot : ∀ path m, ps.slot path m = RouteReading.lastOperation rs path m := by
    intro path m
    rw [← hps, RouteReading.slot_foldl_putInto hrs]
    exact Option.or_none
  have hoccupied : ∀ path m,
      (ps.slot path m).isSome ↔ ∃ r ∈ rs, r.path = path ∧ m ∈ r.methods := by
    intro path m
    rw [hslot, RouteReading.isSome_lastOperation_iff hrs]
  refine ⟨hkeys, hslot, hoccupied, ?_, ?_⟩
  · -- The path of an entry is that of a route that answers something there.
    rintro ⟨path, item⟩ he
    have hpath : path ∈ Table.keys ps := List.mem_map_of_mem he
    rw [hkeys] at hpath
    obtain ⟨r, hr, hrpath⟩ := List.mem_map.mp (mem_firstOccurrences.mp hpath).1
    obtain ⟨hr, hmethods⟩ := List.mem_filter.mp hr
    obtain ⟨m, hm⟩ := List.exists_mem_of_ne_nil r.methods (by simpa using hmethods)
    have hitem : Table.get? ps path = some item := by
      refine Table.get?_of_mem ?_ he
      rw [hkeys]
      exact nodup_firstOccurrences ..
    have hsome := (hoccupied path m).mpr ⟨r, hr, hrpath, hm⟩
    rw [Paths.slot, hitem] at hsome
    exact ⟨m, hsome⟩
  · rw [← hkeys, Table.keys, List.length_map]

namespace Session

variable {fs : Files} {s s' : Session} {docs : RouteDocs} {group : String}

/-- Read a route at the path it is mounted at, and make an operation of each signature. -/
def readRoute (docs : RouteDocs) (group : String) (route : String × Member (TypeExpr ModuleId)) :
    Analysis RouteReading := do
  let path := Path.normalize (Path.join route.1 route.2.name)
  let members ← objectMembers route.2.type
  let vs ← (members.filterMap verbKey?).mapM verbBranches
  let os ← (signaturesOf vs).mapM fun g => do
    return (g.method, ← operation docs group route.2.name path g)
  return ⟨path, members, os⟩

theorem addRoute_eq (mount : String) (ps : Paths) (route : Member (TypeExpr ModuleId)) :
    addRoute docs group mount ps route = do
      return RouteReading.putInto ps (← readRoute docs group (mount, route)) := by
  have hput : ∀ (path : String) (gs : List Signature), gs.foldlM (fun ps g => do
      return Paths.put ps path g.method (← operation docs group route.name path g)) ps = do
        let os ← gs.mapM fun g => do
          return (g.method, ← operation docs group route.name path g)
        return os.foldl (fun ps (o : Method × Operation) => ps.put path o.1 o.2) ps := by
    intro path gs
    refine Analysis.foldlM_eq_mapM_foldl (fun ps g => ?_) gs ps
    simp only [bind_assoc, pure_bind]
  rw [addRoute, signatures_eq]
  simp only [readRoute, RouteReading.putInto, bind_assoc, pure_bind, hput]

theorem pathsOfEntries_eq (docs : RouteDocs) (group : String) (es : List RouteEntry) :
    pathsOfEntries docs group es = do
      return (← (locatedRoutes es).mapM (readRoute docs group)).foldl RouteReading.putInto [] := by
  rw [← Analysis.foldlM_eq_mapM_foldl (f := fun ps route => addRoute docs group route.1 ps route.2)
    fun ps route => addRoute_eq route.1 ps route.2]
  rw [pathsOfEntries]
  generalize ([] : Paths) = ps
  induction es generalizing ps with
  | nil => rfl
  | cons e es ih =>
    rw [List.foldlM_cons, locatedRoutes, List.flatMap_cons, List.foldlM_append, List.foldlM_map]
    exact bind_congr fun ps => ih ps

theorem complete_of_readRoute {route : String × Member (TypeExpr ModuleId)} {r : RouteReading}
    (h : (readRoute docs group route).on fs s = some (r, s')) : r.Complete := by
  obtain ⟨members, s₁, -, h⟩ := Analysis.on_bind_eq_some.mp h
  obtain ⟨vs, s₂, hvs, h⟩ := Analysis.on_bind_eq_some.mp h
  obtain ⟨os, s₃, hos, h⟩ := Analysis.on_bind_eq_some.mp h
  obtain ⟨rfl, rfl⟩ := Analysis.on_pure_eq_some.mp h
  have hmethods : (members.filterMap verbKey?).map Prod.fst =
      members.filterMap fun x => Method.ofVerbKey? x.name := by
    rw [List.map_filterMap]
    congr 1
    funext x
    rw [verbKey?, Option.map_map]
    exact Option.map_id'
  have hverbs : vs.map Prod.fst = (members.filterMap verbKey?).map Prod.fst :=
    Analysis.on_mapM_map Prod.fst Prod.fst (fun v s v' s' hv => by
      obtain ⟨bs, s₁, -, hv⟩ := Analysis.on_bind_eq_some.mp hv
      obtain ⟨bs, s₂, -, hv⟩ := Analysis.on_bind_eq_some.mp hv
      obtain ⟨rfl, rfl⟩ := Analysis.on_pure_eq_some.mp hv
      rfl) hvs
  have hoperations : os.map Prod.fst = (signaturesOf vs).map Signature.method :=
    Analysis.on_mapM_map Signature.method Prod.fst (fun g s o s' ho => by
      obtain ⟨o, s₁, -, ho⟩ := Analysis.on_bind_eq_some.mp ho
      obtain ⟨rfl, rfl⟩ := Analysis.on_pure_eq_some.mp ho
      rfl) hos
  rw [RouteReading.Complete, hoperations, signaturesOf, List.map_map, RouteReading.methods,
    ← hmethods, ← hverbs]
  exact List.map_id _

/-- **Entries come to the paths that document their routes as they read, and to no others.** -/
theorem pathsOfEntries_eq_some_iff {es : List RouteEntry} {ps : Paths} :
    (pathsOfEntries docs group es).on fs s = some (ps, s') ↔
      ∃ rs, ((locatedRoutes es).mapM (readRoute docs group)).on fs s = some (rs, s') ∧
        ps.Documents rs := by
  rw [pathsOfEntries_eq]
  constructor
  · intro h
    obtain ⟨rs, s₁, hrs, h⟩ := Analysis.on_bind_eq_some.mp h
    obtain ⟨rfl, rfl⟩ := Analysis.on_pure_eq_some.mp h
    exact ⟨rs, hrs, Paths.documents_foldl_putInto
      (Analysis.on_mapM_forall (fun _ _ _ _ _ => complete_of_readRoute) hrs)⟩
  · rintro ⟨rs, hrs, hps⟩
    have hcomplete := Analysis.on_mapM_forall (P := RouteReading.Complete)
      (fun _ _ _ _ _ => complete_of_readRoute) hrs
    have hput := Paths.documents_foldl_putInto hcomplete
    rw [Paths.ext_slot ?_ (hps.keys.trans hput.keys.symm)
      fun path m => (hps.slot path m).trans (hput.slot path m).symm]
    · exact Analysis.on_bind hrs
    · rw [hps.keys]
      exact nodup_firstOccurrences ..

end Session

end Routebook
