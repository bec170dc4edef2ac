import Mathlib
import Routebook.Proofs.Document.Documentation
import Routebook.Proofs.Generate.Run
import Routebook.Proofs.Merge.LastWriter
import Routebook.Proofs.Merge.Manual
import Routebook.Proofs.Route.Markers

/-!
# What counts of an operation's documentation

An operation is documented by hand, by a marker beside its route, and if both say nothing by what is
known anyway. Each of the three stages of a run has its own way of saying nothing: a marker may be
blank, an operation may have no documentation, an entry may leave a field out. Together they come to
one order of precedence (`Operation.Documented`), **which holds of every operation that a group puts
into the merged document** (`Generation.documented_of_group`).

There is one exception. An empty list of tags that is given by hand is not passed over: it takes the
marker's tags back, and the operation is listed under its group (`Documented.tagsTakenBack`).
-/

namespace Routebook

open Disk (Files Path)

/-! ## Saying nothing -/

/-- A text, unless it is blank. -/
def nonBlank? (s : Option String) : Option String := s.filter fun s => !Text.isAllBlank s.toList

/-- Tags, if there are any. -/
def nonEmpty? (ts : Option (List String)) : Option (List String) := ts.filter fun ts => !ts.isEmpty

theorem nonEmpty?_nonEmpty? (ts : Option (List String)) :
    nonEmpty? (nonEmpty? ts) = nonEmpty? ts := by
  rw [nonEmpty?, nonEmpty?, Option.filter_filter]
  simp only [Bool.and_self]

/-- An operation as it is documented by hand, by a marker, and without either. -/
structure Operation.Documented (o : Operation) (entry : Option ManualEntry)
    (marker : Option RouteDoc) (summary tag : String) : Prop where
  summary : o.summary = some
    (((entry.bind ManualEntry.summary).or (nonBlank? (marker.bind RouteDoc.summary))).getD summary)
  description : o.description =
    (entry.bind ManualEntry.description).or (nonBlank? (marker.bind RouteDoc.description))
  /-- Tags by hand come before those of the marker, and the group's name is the last resort. -/
  tags : entry.bind ManualEntry.tags ≠ some [] ∨ nonEmpty? (marker.bind RouteDoc.tags) = none →
    o.tags = some (((nonEmpty? (entry.bind ManualEntry.tags)).or
      (nonEmpty? (marker.bind RouteDoc.tags))).getD [tag])
  tagsTakenBack : entry.bind ManualEntry.tags = some [] → o.tags = some [tag]

/-! ## The stages -/

section Stages

variable {docs : RouteDocs} {marker : Option RouteDoc} {m : Method} {written path : String}

/-- What an operation is documented with is what its marker says. -/
theorem documentedOperation_eq_of_get? (h : docs.get? ⟨m, written⟩ = marker.map RouteDoc.normalized)
    (group : String) :
    (documentedOperation docs group m written path).summary =
        some ((nonBlank? (marker.bind RouteDoc.summary)).getD
          ("Auto-generated " ++ m.upper ++ " " ++ path)) ∧
      (documentedOperation docs group m written path).description =
        nonBlank? (marker.bind RouteDoc.description) ∧
      (documentedOperation docs group m written path).tags =
        if marker.isSome then nonEmpty? (marker.bind RouteDoc.tags) else some [group] := by
  rw [documentedOperation, h]
  cases marker with
  | none => exact ⟨rfl, rfl, rfl⟩
  | some d => exact ⟨rfl, rfl, rfl⟩

namespace Operation

theorem summary_withTag (tag : String) (o : Operation) : (o.withTag tag).summary = o.summary := by
  rw [withTag]
  split <;> rfl

theorem description_withTag (tag : String) (o : Operation) :
    (o.withTag tag).description = o.description := by
  rw [withTag]
  split <;> rfl

theorem tags_withTag (tag : String) (o : Operation) :
    (o.withTag tag).tags = some ((nonEmpty? o.tags).getD [tag]) := by
  rw [withTag]
  cases htags : o.tags with
  | none => rfl
  | some ts =>
    cases ts with
    | nil => rfl
    | cons t ts => exact htags

end Operation

namespace Group

variable (g : Group) (o : Operation)

theorem summary_contribute : (g.contribute path m o).summary =
    ((g.manualEntry? m path).bind ManualEntry.summary).or o.summary := by
  rw [contribute]
  cases g.manualEntry? m path with
  | none => exact Operation.summary_withTag g.name o
  | some e => exact Operation.summary_withTag g.name (e.apply o)

theorem description_contribute : (g.contribute path m o).description =
    ((g.manualEntry? m path).bind ManualEntry.description).or o.description := by
  rw [contribute]
  cases g.manualEntry? m path with
  | none => exact Operation.description_withTag g.name o
  | some e => exact Operation.description_withTag g.name (e.apply o)

theorem tags_contribute : (g.contribute path m o).tags =
    some ((nonEmpty? (((g.manualEntry? m path).bind ManualEntry.tags).or o.tags)).getD
      [g.name]) := by
  rw [contribute]
  cases g.manualEntry? m path with
  | none => exact Operation.tags_withTag g.name o
  | some e => exact Operation.tags_withTag g.name (e.apply o)

end Group

/-- What is contributed of an operation that says what its marker says. -/
theorem Group.documented_contribute {g : Group} {x : Operation}
    (hdocs : docs.get? ⟨m, written⟩ = marker.map RouteDoc.normalized)
    (hx : x.SaysLike (documentedOperation docs g.name m written path)) (full : String) :
    (g.contribute full m x).Documented (g.manualEntry? m full) marker
      ("Auto-generated " ++ m.upper ++ " " ++ path) g.name := by
  obtain ⟨hsummary, hdescription, htags⟩ :=
    @documentedOperation_eq_of_get? docs marker m written path hdocs g.name
  have hbase : nonEmpty? x.tags =
      if marker.isSome then nonEmpty? (marker.bind RouteDoc.tags) else some [g.name] := by
    rw [hx.tags, htags]
    split
    · exact nonEmpty?_nonEmpty? _
    · rfl
  have hlast : ((nonEmpty? x.tags).getD [g.name]) =
      (nonEmpty? (marker.bind RouteDoc.tags)).getD [g.name] := by
    rw [hbase]
    cases marker with
    | none => rfl
    | some d => rfl
  refine ⟨?summary, ?description, ?tags, ?tagsTakenBack⟩
  case summary =>
    rw [summary_contribute, hx.summary, hsummary]
    cases (g.manualEntry? m full).bind ManualEntry.summary <;> rfl
  case description => rw [description_contribute, hx.description, hdescription]
  case tags =>
    intro hgiven
    rw [tags_contribute]
    cases hentry : (g.manualEntry? m full).bind ManualEntry.tags with
    | none => exact congrArg some hlast
    | some ts =>
      cases ts with
      | nil =>
        -- The marker has no tags that an empty list could take back.
        have hnone := hgiven.resolve_left (not_not_intro hentry)
        rw [hnone]
        rfl
      | cons t ts => rfl
  case tagsTakenBack =>
    intro hempty
    rw [tags_contribute, hempty]
    rfl

end Stages

/-- Merging a file that holds a generated document puts in what its group contributes. -/
theorem Merged.paths_of_addFile [PatternEngine] {fs : Files} {p : Path} {g : Group} {d : Document}
    {m m' : Merged} (hd : Paths.Generated d.paths) (hfile : fs.read? p = some (d.text .json))
    (h : m.addFile fs g p = (m', none)) :
    m'.paths = (g.contributions d).foldl Contribution.addTo m.paths := by
  rw [addFile_of_read? hd hfile] at h
  split at h
  · have hadd : m.addGroups [(g, d)] = .ok m' := by
      rw [addGroups, h]
      rfl
    obtain ⟨-, rfl⟩ := addGroups_eq_ok_iff.mp hadd
    rw [GroupDocuments.contributions, List.flatMap_singleton]
  · exact absurd (Prod.mk.inj h).2 (by simp)

namespace Generation

/-- The routes that a group is documented with: those of its type, or those of its source. -/
inductive RoutesOf (c : Config) (g : Group) (w : Workspace) : List RouteOrigin → Prop
  | ofType {m : ModuleId} {app : TypeExpr ModuleId} {es : List RouteEntry} {rs : List RouteReading}
    {s₁ s₂ s₃ : Session} :
    (Session.addFile g.appTypePath).on w.files w.session = some (.ok m, s₁) →
    s₁.appType m g.appTypeName = .ok app →
    (Session.entries app).on w.files s₁ = some (.ok (some es), s₂) →
    ((locatedRoutes es).mapM (Session.readRoute
      (.ofFiles w.files c.docMarker g.docSources) g.name)).on w.files s₂ = some (rs, s₃) →
    RoutesOf c g w (List.zipWith Session.originOf (locatedRoutes es) rs)
  | ofSource {m : ModuleId} {app : TypeExpr ModuleId} {program : Source.Program}
    {s₁ s₂ : Session} :
    (Session.addFile g.appTypePath).on w.files w.session = some (.ok m, s₁) →
    s₁.appType m g.appTypeName = .ok app →
    (Session.entries app).on w.files s₁ = some (.ok none, s₂) →
    Session.readProgram w.files g.routesSource = .ok program →
    RoutesOf c g w (program.routes.map .ofFound)

variable {c : Config} {g : Group} {w w' : Workspace} {d : Document} {searched : Bool}

theorem followsDocs_of_group (h : w.perform (group c g) = some (.ok (d, searched), w')) :
    ∃ os, RoutesOf c g w os ∧
      Paths.FollowsDocs d.paths (.ofFiles w.files c.docMarker g.docSources) g.name os := by
  obtain ⟨m, s₁, app, found, s₂, hadd, happ, hentries, hcases⟩ := perform_group_cases h
  rcases hcases with ⟨es, ps, s₃, rfl, hpaths, rfl, -⟩ | ⟨program, rfl, hread, rfl, -⟩
  · obtain ⟨rs, hrs, hfollows⟩ := Session.followsDocs_of_pathsOfEntries hpaths
    exact ⟨_, .ofType hadd happ hentries hrs, hfollows⟩
  · exact ⟨_, .ofSource hadd happ hentries hread, followsDocs_pathsOfRoutes _ g.name program.routes⟩

/-- **What counts of an operation's documentation.** Whatever has been merged before, merging the
file of a group puts in what the group contributes. Each operation of that belongs to a route of the
group: what it is for is said by the last entry for its method and path, else by the last marker of
the route, else by a text of its own and the name of the group. -/
theorem documented_of_group [PatternEngine] {fs : Files} {p : Path} {merged merged' : Merged}
    (h : w.perform (group c g) = some (.ok (d, searched), w'))
    (hfile : fs.read? p = some (d.text .json)) (hmerge : merged.addFile fs g p = (merged', none)) :
    merged'.paths = (g.contributions d).foldl Contribution.addTo merged.paths ∧
      ∃ os, RoutesOf c g w os ∧ ∀ k ∈ g.contributions d, ∀ m o, k.operation? m = some o →
        (∀ e ∈ g.manual, ¬ e.IsMistakenFor m k.key) →
          ∃ r, RouteOrigin.last? os k.path m = some r ∧
            o.Documented (g.manual.reverse.find? fun e => e.IsFor m k.key)
              ((Markers.ofFiles w.files c.docMarker g.docSources).last? ⟨m, r.written⟩)
              ("Auto-generated " ++ m.upper ++ " " ++ k.path) g.name := by
  obtain ⟨hgenerated, -⟩ := generated_group h
  refine ⟨Merged.paths_of_addFile hgenerated hfile hmerge, ?_⟩
  obtain ⟨os, hos, hfollows⟩ := followsDocs_of_group h
  refine ⟨os, hos, fun k hk m o ho hmanual => ?_⟩
  obtain ⟨e, he, rfl⟩ := List.mem_map.mp hk
  obtain ⟨x, hx, rfl⟩ := Option.map_eq_some_iff.mp ho
  have hslot : Paths.slot d.paths e.1 m = some x := by
    rw [Paths.slot, Table.get?_of_mem hgenerated.nodup (List.mem_of_mem_filter he)]
    exact hx
  obtain ⟨r, hr, hsays⟩ := hfollows e.1 m x hslot
  refine ⟨r, hr, ?_⟩
  rw [← Group.manualEntry?_eq hmanual]
  exact Group.documented_contribute (RouteDocs.get?_ofFiles ..) hsays _

/-! ### A route with a marker -/

attribute [local instance] Pattern.engine

/-- The application of one route, with a marker beside it. -/
def markedWorkspace : Workspace :=
  { oneRouteWorkspace with files := ⟨[], [(["app.ts"], .file
    "app.get('/:id', describeRoute(\x7bsummary:' ',description:'By id',tags:['accounts']\x7d))")]⟩ }

/-- What the marker says. Its summary is blank. -/
def markedDoc : RouteDoc := ⟨some " ", some "By id", some ["accounts"], none⟩

/-- What is said by hand last, of the path in braces and with slashes behind it. -/
def lastManual : ManualEntry := ⟨"/v1/\x7bid\x7d//", "Get", some "Find a user", none, none⟩

def markedGroup : Group :=
  { oneRouteGroup with
    manual := [⟨"/v1/:id", "get", some "Find it", none, some ["people"]⟩, lastManual] }

def markedItem : PathItem :=
  PathItem.empty.put .get {
    summary := some "Auto-generated GET /\x7bid\x7d"
    description := some "By id"
    tags := some ["accounts"]
    responses := defaultResponses }

/-- The operation of the route as it is merged. -/
def markedOperation : Operation where
  summary := some "Find a user"
  description := some "By id"
  tags := some ["accounts"]
  responses := defaultResponses

theorem ofFiles_marked :
    Markers.ofFiles markedWorkspace.files oneRouteConfig.docMarker markedGroup.docSources =
      [(⟨.get, "/:id"⟩, markedDoc)] := by
  decide +kernel

theorem entries_marked : (Session.entries oneRouteApp).on markedWorkspace.files
    markedWorkspace.session = some (.ok (some oneRouteEntries), markedWorkspace.session) := by
  cbv

theorem perform_group_marked :
    markedWorkspace.perform (group oneRouteConfig markedGroup) = some
      (.ok (oneRouteConfig.documentOf [("/\x7bid\x7d", markedItem)], false), markedWorkspace) := by
  have hdocs : RouteDocs.ofFiles markedWorkspace.files oneRouteConfig.docMarker
      markedGroup.docSources = ⟨[(⟨.get, "/:id"⟩, markedDoc.normalized)]⟩ := by
    refine RouteDocs.eq_mk ?_
    rw [RouteDocs.entries_ofFiles, ofFiles_marked]
    decide +kernel
  have hpaths : (Session.pathsOfEntries ⟨[(⟨.get, "/:id"⟩, markedDoc.normalized)]⟩ markedGroup.name
      oneRouteEntries).on markedWorkspace.files markedWorkspace.session =
        some ([("/\x7bid\x7d", markedItem)], markedWorkspace.session) := by
    cbv
  rw [← hdocs] at hpaths
  exact perform_group_of_entries (m := 0) rfl rfl entries_marked hpaths

/-- The one route of the group is the one that the marker is beside. -/
theorem written_of_routesOf_marked {os : List RouteOrigin} {r : RouteOrigin}
    (h : RoutesOf oneRouteConfig markedGroup markedWorkspace os) (hr : r ∈ os) :
    r.written = "/:id" := by
  have hadd : (Session.addFile markedGroup.appTypePath).on markedWorkspace.files
      markedWorkspace.session = some (.ok 0, markedWorkspace.session) := rfl
  have happ : markedWorkspace.session.appType 0 markedGroup.appTypeName = .ok oneRouteApp := rfl
  cases h with
  | @ofType m app es rs s₁ s₂ s₃ hadd' happ' hentries hrs =>
    cases hadd.symm.trans hadd'
    cases happ.symm.trans happ'
    cases entries_marked.symm.trans hentries
    cases rs with
    | nil => exact absurd hr List.not_mem_nil
    | cons reading rs =>
      obtain rfl := List.mem_singleton.mp hr
      rfl
  | ofSource hadd' happ' hentries =>
    cases hadd.symm.trans hadd'
    cases happ.symm.trans happ'
    cases entries_marked.symm.trans hentries

theorem documented_of_group_marked : ∃ fs merged',
    markedWorkspace.perform (group oneRouteConfig markedGroup) = some
        (.ok (oneRouteConfig.documentOf [("/\x7bid\x7d", markedItem)], false), markedWorkspace) ∧
      Files.read? fs ⟨"users.json"⟩ =
        some ((oneRouteConfig.documentOf [("/\x7bid\x7d", markedItem)]).text .json) ∧
      Merged.empty.addFile fs markedGroup ⟨"users.json"⟩ = (merged', none) ∧
      (∀ e ∈ markedGroup.manual, ¬ e.IsMistakenFor .get "/v1/\x7bid\x7d") ∧
      Paths.slot merged'.paths "/v1/\x7bid\x7d" .get = some markedOperation ∧
      markedOperation.Documented (some lastManual) (some markedDoc)
        "Auto-generated GET /\x7bid\x7d" "users" := by
  let d := oneRouteConfig.documentOf [("/\x7bid\x7d", markedItem)]
  let fs : Files := ⟨[], [(["users.json"], .file (d.text .json))]⟩
  have hfile : fs.read? ⟨"users.json"⟩ = some (d.text .json) := rfl
  have hdepth : d.toJson.depth ≤ Json.depthLimit := by decide +kernel
  have hmerge : Merged.empty.addFile fs markedGroup ⟨"users.json"⟩ =
      ((Merged.empty.addGroup markedGroup d).1, none) := by
    rw [Merged.addFile_of_read? (generated_group perform_group_marked).1 hfile, if_pos hdepth]
    rfl
  have hmanual : ∀ e ∈ markedGroup.manual, ¬ e.IsMistakenFor .get "/v1/\x7bid\x7d" := by
    decide +kernel
  obtain ⟨hpaths, os, hos, hall⟩ := documented_of_group perform_group_marked hfile hmerge
  -- The group has one path, which stands under its mount point.
  let k : Contribution := ⟨markedGroup, "/\x7bid\x7d", markedItem⟩
  have hcontributions : markedGroup.contributions d = [k] := by rfl
  have hkey : k.key = "/v1/\x7bid\x7d" := by decide +kernel
  have hoperation : k.operation? .get = some markedOperation := by cbv
  have hk : k ∈ markedGroup.contributions d := by
    rw [hcontributions]
    exact List.mem_singleton_self k
  rw [← hkey] at hmanual
  obtain ⟨r, hr, hdocumented⟩ := hall k hk .get markedOperation hoperation hmanual
  rw [written_of_routesOf_marked hos (List.mem_reverse.mp (List.mem_of_find?_eq_some hr)),
    ofFiles_marked, hkey] at hdocumented
  have hlast : (markedGroup.manual.reverse.find? fun e => e.IsFor .get "/v1/\x7bid\x7d") =
      some lastManual := by
    decide +kernel
  rw [hlast] at hdocumented
  refine ⟨fs, _, perform_group_marked, hfile, hmerge, hkey ▸ hmanual, ?_, hdocumented⟩
  rw [hpaths, Merged.slot_foldl_addTo, hcontributions]
  simp [Contribution.lastWritten, hkey, hoperation]

/-- An empty list of tags by hand does not leave the marker's tags in place. -/
example : (Group.contribute { oneRouteGroup with
    manual := [⟨"/v1/\x7bid\x7d", "get", none, none, some []⟩] } "/v1/\x7bid\x7d" .get
      markedOperation).tags = some ["users"] := by
  cbv

end Generation

end Routebook
