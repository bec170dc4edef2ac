import Routebook.Proofs.Document.Routes
import Routebook.Proofs.Route.Markers
import Routebook.Proofs.Route.Scanning

/-!
# Documented routes of one file

Two searches go over a file: one for the routes that calls register, one for the documentation that
markers give. Their results meet in the document, where a route is looked up as it is written and
put in at its path in the document. **What is documented is found**, in one file: every key of the
documentation is the key of a found route, and the operation of each documented route is in the
document with what is said of it, if no other route has its method and its path there
(`RouteDocs.ofProgram_carried`).
-/

namespace Routebook

open Source

/-! ## Keys -/

theorem Method.colon_notMem_lower (m : Method) : ':' ∉ m.lower.toList := by cases m <;> decide

namespace RouteDocs

variable {ds : RouteDocs} {r : FoundRoute} {d : RouteDoc} {k : String}

/-- A key is cut at its first colon, since no method has one in its name. -/
theorem key_injective : Function.Injective key := by
  have htake (r : FoundRoute) : (key r).toList.takeWhile (· != ':') = r.method.lower.toList := by
    have hname : ∀ c ∈ r.method.lower.toList, (c != ':') = true := fun c hc => by
      simpa using fun h : c = ':' => r.method.colon_notMem_lower (h ▸ hc)
    rw [key, String.toList_append, String.toList_append, List.append_assoc,
      List.takeWhile_append_of_pos hname]
    simp
  intro a b h
  have hmethod : a.method = b.method :=
    Method.lower_inj (String.toList_inj.mp (by rw [← htake a, ← htake b, h]))
  obtain ⟨m, path⟩ := a
  obtain ⟨n, other⟩ := b
  obtain rfl : m = n := hmethod
  have hpath : path = other := String.append_right_inj (m.lower ++ ":") |>.mp h
  rw [hpath]

/-- What is known under a key. -/
def at? (ds : RouteDocs) (k : String) : Option RouteDoc :=
  (ds.entries.find? fun e => key e.1 = k).map Prod.snd

theorem at?_key (ds : RouteDocs) (r : FoundRoute) : ds.at? (key r) = ds.get? r := by
  simp only [at?, get?, key_injective.eq_iff]

theorem exists_of_at? (h : ds.at? k = some d) : ∃ r, k = key r ∧ ds.get? r = some d := by
  have hkey : ∃ r, k = key r := by
    obtain ⟨e, he, -⟩ := Option.map_eq_some_iff.mp h
    exact ⟨e.1, by simpa [eq_comm] using List.find?_some he⟩
  obtain ⟨r, rfl⟩ := hkey
  exact ⟨r, rfl, at?_key ds r ▸ h⟩

end RouteDocs

/-! ## What is kept of a marker -/

/-- Whether documentation says something with everything that it has: some field is there, no text
is blank, and no list of tags is empty. -/
structure RouteDoc.Telling (d : RouteDoc) : Prop where
  said : d.summary.isSome ∨ d.description.isSome ∨ d.tags.isSome ∨ d.deprecated.isSome
  summary : ∀ s, d.summary = some s → Text.isAllBlank s.toList = false
  description : ∀ s, d.description = some s → Text.isAllBlank s.toList = false
  tags : d.tags ≠ some []

theorem RouteDoc.telling_normalized {d : RouteDoc} (h : d.normalized.isEmpty = false) :
    d.normalized.Telling where
  said := by
    simpa only [isEmpty, Bool.and_eq_false_iff, Option.isNone_eq_false_iff, or_assoc] using h
  summary s hs := by simpa using (Option.filter_eq_some_iff.mp hs).2
  description s hs := by simpa using (Option.filter_eq_some_iff.mp hs).2
  tags hs := by simpa using (Option.filter_eq_some_iff.mp hs).2

/-- An entry comes from a call that registers the route with a marker that says something. -/
theorem RouteDocs.mem_routes_of_get? {marker : String} {p : Program} {r : FoundRoute} {d : RouteDoc}
    (h : (ofProgram marker p).get? r = some d) : r ∈ p.routes ∧ d.Telling := by
  obtain ⟨e, he, rfl⟩ := Option.map_eq_some_iff.mp h
  obtain rfl : e.1 = r := by simpa using List.find?_some he
  obtain ⟨c, hc, hdoc⟩ := List.mem_filterMap.mp (List.mem_reverse.mp (List.mem_of_find?_eq_some he))
  rw [Call.doc?_eq] at hdoc
  obtain ⟨kept, hmarker, hkept⟩ := Option.bind_eq_some_iff.mp hdoc
  obtain ⟨route, hroute, hmarker⟩ := Option.bind_eq_some_iff.mp hmarker
  obtain ⟨ps, -, hmarker⟩ := Option.bind_eq_some_iff.mp hmarker
  obtain rfl := Option.some.inj hmarker
  rw [RouteDoc.kept?] at hkept
  split at hkept
  · cases hkept
  · next hsaid =>
    obtain rfl := Option.some.inj hkept
    refine ⟨Program.mem_routes_iff.mpr ⟨c.position, Program.mem_found_iff.mp ?_⟩,
      RouteDoc.telling_normalized (Bool.eq_false_iff.mpr hsaid)⟩
    exact List.mem_filterMap.mpr ⟨c, hc, by rw [hroute]; rfl⟩

/-! ## The operations of found routes -/

/-- At each path and method stands the operation of the last route found there. -/
theorem slot_pathsOfRoutes (docs : RouteDocs) (group : String) (routes : List FoundRoute)
    (path : String) (m : Method) :
    (pathsOfRoutes docs group routes).slot path m =
      (routes.reverse.find? fun r => Path.normalize r.path = path ∧ r.method = m).map fun r =>
        { documentedOperation docs group m r.path path with responses := defaultResponses } := by
  induction routes using List.reverseRecOn with
  | nil => simp [pathsOfRoutes, Paths.slot, Table.get?]
  | append_singleton routes r ih =>
    have hput : pathsOfRoutes docs group (routes ++ [r]) =
        (pathsOfRoutes docs group routes).put (Path.normalize r.path) r.method
          { documentedOperation docs group r.method r.path (Path.normalize r.path) with
            responses := defaultResponses } := by
      rw [pathsOfRoutes, List.foldl_append]
      rfl
    rw [hput, Paths.slot_put, ih, List.reverse_append, List.reverse_singleton,
      List.singleton_append, List.find?_cons]
    by_cases h : Path.normalize r.path = path ∧ r.method = m
    · obtain ⟨rfl, rfl⟩ := h
      simp
    · rw [if_neg fun hput => h ⟨hput.1.symm, hput.2.symm⟩, decide_eq_false h]

/-- Whether an operation says what documentation says. -/
structure Operation.Carries (o : Operation) (d : RouteDoc) : Prop where
  summary : ∀ s, d.summary = some s → o.summary = some s
  description : o.description = d.description
  tags : o.tags = d.tags
  deprecated : o.deprecated = d.deprecated

theorem carries_documentedOperation {docs : RouteDocs} {r : FoundRoute} {d : RouteDoc}
    (h : docs.get? r = some d) (group path : String) (responses : Table Response) :
    Operation.Carries { documentedOperation docs group r.method r.path path with
      responses := responses } d := by
  rw [documentedOperation, h]
  exact ⟨fun s hs => by simp [hs], rfl, rfl, rfl⟩

/-- **What is documented in a file is found in it and gets into the document.** -/
theorem RouteDocs.ofProgram_carried (p : Program) (marker group : String) :
    let docs := ofProgram marker p
    (∀ k d, docs.at? k = some d →
      d.Telling ∧ ∃ r ∈ p.routes, k = key r ∧ docs.get? r = some d) ∧
    ∀ r d, docs.get? r = some d →
      ∃ o, (pathsOfRoutes docs group p.routes).slot (Path.normalize r.path) r.method = some o ∧
        ((∀ q ∈ p.routes, q.method = r.method → Path.normalize q.path = Path.normalize r.path →
          q = r) → o.Carries d) := by
  intro docs
  refine ⟨fun k d hk => ?_, fun r d hd => ?_⟩
  · obtain ⟨r, rfl, hget⟩ := exists_of_at? hk
    obtain ⟨hfound, htelling⟩ := mem_routes_of_get? hget
    exact ⟨htelling, r, hfound, rfl, hget⟩
  · obtain ⟨hfound, -⟩ := mem_routes_of_get? hd
    rw [slot_pathsOfRoutes]
    obtain ⟨q, hq⟩ := Option.isSome_iff_exists.mp (List.find?_isSome (p := fun q =>
      decide (Path.normalize q.path = Path.normalize r.path ∧ q.method = r.method)) |>.mpr
        ⟨r, List.mem_reverse.mpr hfound, by simp⟩)
    have hsame : Path.normalize q.path = Path.normalize r.path ∧ q.method = r.method := by
      simpa using List.find?_some hq
    refine ⟨_, Option.map_eq_some_iff.mpr ⟨q, hq, rfl⟩, fun honly => ?_⟩
    obtain rfl := honly q (List.mem_reverse.mp (List.mem_of_find?_eq_some hq)) hsame.2 hsame.1
    exact carries_documentedOperation hd group _ _

/-- Two routes of one path, of which one is documented, and a marker that says nothing. -/
def markedFiles : Disk.Files :=
  ⟨[], [(["a.ts"], .file <|
      "app.get('/a/:id',d(\x7bsummary:'S',tags:[]\x7d),h).put('/a/:id',h);" ++
      "app.post('/b',d(\x7bsummary:' '\x7d),h)")]⟩

theorem RouteDocs.ofProgram_carried_summary :
    ∃ p o, Session.readProgram markedFiles ⟨"a.ts"⟩ = .ok p ∧
      (ofProgram "d" p).at? "get:/a/:id" = some { RouteDoc.empty with summary := some "S" } ∧
      (pathsOfRoutes (ofProgram "d" p) "api" p.routes).slot "/a/\x7bid\x7d" .get = some o ∧
      o.summary = some "S" ∧ o.tags = none := by
  let d : RouteDoc := { RouteDoc.empty with summary := some "S" }
  let found : List (Nat × FoundRoute) :=
    [(49, ⟨.put, "/a/:id"⟩), (8, ⟨.get, "/a/:id"⟩), (70, ⟨.post, "/b"⟩)]
  have hread : (Session.readProgram markedFiles ⟨"a.ts"⟩).toOption.map
      (fun p => (p.found, (ofProgram "d" p).at? "get:/a/:id")) = some (found, some d) := by
    decide +kernel
  obtain ⟨p, hp, htold⟩ := Session.exists_program_of_map hread
  obtain ⟨hfound, hat⟩ := Prod.mk.inj htold
  obtain ⟨hkeys, hcarried⟩ := ofProgram_carried p "d" "api"
  obtain ⟨-, r, -, hkey, hget⟩ := hkeys "get:/a/:id" d hat
  obtain rfl : ⟨.get, "/a/:id"⟩ = r := key_injective (Eq.trans (by decide +kernel) hkey)
  obtain ⟨o, hslot, hcarries⟩ := hcarried _ d hget
  have honly : ∀ e ∈ found, e.2.method = .get →
      Path.normalize e.2.path = Path.normalize "/a/:id" → e.2 = ⟨.get, "/a/:id"⟩ := by
    decide +kernel
  have ho : o.Carries d := hcarries fun q hq => by
    obtain ⟨place, hplace⟩ := Program.mem_routes_iff.mp hq
    exact honly (place, q) (hfound ▸ Program.mem_found_iff.mpr hplace)
  have hnormal : Path.normalize "/a/:id" = "/a/\x7bid\x7d" := by decide +kernel
  rw [hnormal] at hslot
  exact ⟨p, o, hp, hat, hslot, ho.summary "S" rfl, ho.tags⟩

end Routebook
