import Mathlib
import Routebook.Generate.Run
import Routebook.Pattern.Reader
import Routebook.Proofs.Config.Check
import Routebook.Proofs.Document.Text
import Routebook.Proofs.Generate.Step
import Routebook.Proofs.Merge.WellFormed
import Routebook.Proofs.Route.Markers

/-!
# The document of a run

A run that succeeds leaves a well-formed document (`wellFormed_of_run`), whatever is on the disk
and in the sources. On its way the documents of the groups go through files. **Every intermediate
file that has been written holds the text of some document that was built** at any later point,
because whatever is written over it is the text of one as well; and what is read back from such a
text is that document.
-/

namespace Routebook

open Disk (Files Path)

theorem Paths.Generated.keyed {d : Document} (h : Paths.Generated d.paths) : d.Keyed :=
  h.imp fun _ => And.left

/-- Whether a file holds a document as it is built for a group. -/
def HoldsGenerated (fs : Files) (p : Path) : Prop :=
  ∃ d : Document, Paths.Generated d.paths ∧ fs.read? p = some (d.text .json)

namespace Generation

variable {c : Config} {g : Group} {w w' : Workspace}

/-! ## The document of a group -/

/-- What documenting a group came to: its routes are read from its type, or searched for. -/
theorem perform_group_cases {d : Document} {searched : Bool}
    (h : w.perform (group c g) = some (.ok (d, searched), w')) :
    ∃ m s₁ app found s₂, (Session.addFile g.appTypePath).on w.files w.session = some (.ok m, s₁) ∧
      s₁.appType m g.appTypeName = .ok app ∧
      (Session.entries app).on w.files s₁ = some (.ok found, s₂) ∧
      ((∃ es ps s₃, found = some es ∧
          (Session.pathsOfEntries (.ofFiles w.files c.docMarker g.docSources) g.name es).on w.files
            s₂ = some (ps, s₃) ∧
          d = c.documentOf ps ∧ w' = { w with session := s₃ }) ∨
        ∃ program, found = none ∧ Session.readProgram w.files g.routesSource = .ok program ∧
          d = c.documentOf (pathsOfRoutes (.ofFiles w.files c.docMarker g.docSources) g.name
            program.routes) ∧
          w' = { w with session := s₂ }) := by
  obtain ⟨added, w₁, hadded, h₁⟩ := perform_bind_eq_ok.mp h
  obtain ⟨s₁, hadd, rfl⟩ := perform_analyse_eq_ok.mp hadded
  obtain ⟨m, w₂, hm, h₂⟩ := perform_bind_eq_ok.mp h₁
  obtain ⟨rfl, rfl⟩ := perform_ofExcept_eq_ok.mp hm
  obtain ⟨a, w₃, hget, h₃⟩ := perform_bind_eq_ok.mp h₂
  obtain ⟨rfl, rfl⟩ := perform_get_eq_ok.mp hget
  obtain ⟨app, w₄, htype, h₄⟩ := perform_bind_eq_ok.mp h₃
  obtain ⟨happ, rfl⟩ := perform_ofExcept_eq_ok.mp htype
  obtain ⟨b, w₅, hget', h₅⟩ := perform_bind_eq_ok.mp h₄
  obtain ⟨rfl, rfl⟩ := perform_get_eq_ok.mp hget'
  obtain ⟨listed, w₆, hlisted, h₆⟩ := perform_bind_eq_ok.mp h₅
  obtain ⟨s₂, hentries, rfl⟩ := perform_analyse_eq_ok.mp hlisted
  obtain ⟨found, w₇, hfound, h₇⟩ := perform_bind_eq_ok.mp h₆
  obtain ⟨rfl, rfl⟩ := perform_ofExcept_eq_ok.mp hfound
  refine ⟨m, s₁, app, found, s₂, hadd, happ, hentries, ?_⟩
  cases found with
  | some es =>
    obtain ⟨ps, w₈, hps, h₈⟩ := perform_bind_eq_ok.mp h₇
    obtain ⟨s₃, hpaths, rfl⟩ := perform_analyse_eq_ok.mp hps
    obtain ⟨hd, rfl⟩ := perform_pure_eq_ok.mp h₈
    exact .inl ⟨es, ps, s₃, rfl, hpaths, (Prod.mk.inj hd).1, rfl⟩
  | none =>
    obtain ⟨ps, w₈, hps, h₈⟩ := perform_bind_eq_ok.mp h₇
    obtain ⟨a, w₉, hget, hsearch⟩ := perform_bind_eq_ok.mp hps
    obtain ⟨rfl, rfl⟩ := perform_get_eq_ok.mp hget
    obtain ⟨program, w₁₀, hprogram, hroutes⟩ := perform_bind_eq_ok.mp hsearch
    obtain ⟨hread, rfl⟩ := perform_ofExcept_eq_ok.mp hprogram
    obtain ⟨rfl, rfl⟩ := perform_pure_eq_ok.mp hroutes
    obtain ⟨hd, rfl⟩ := perform_pure_eq_ok.mp h₈
    exact .inr ⟨program, rfl, hread, (Prod.mk.inj hd).1, rfl⟩

/-- A group whose routes can be read from its type is documented with them. -/
theorem perform_group_of_entries {m : ModuleId} {app : TypeExpr ModuleId} {es : List RouteEntry}
    {ps : Paths} {s₁ s₂ s₃ : Session}
    (hadd : (Session.addFile g.appTypePath).on w.files w.session = some (.ok m, s₁))
    (happ : s₁.appType m g.appTypeName = .ok app)
    (hentries : (Session.entries app).on w.files s₁ = some (.ok (some es), s₂))
    (hpaths : (Session.pathsOfEntries (.ofFiles w.files c.docMarker g.docSources) g.name es).on
      w.files s₂ = some (ps, s₃)) :
    w.perform (group c g) = some (.ok (c.documentOf ps, false), { w with session := s₃ }) := by
  refine perform_bind_eq_ok.mpr ⟨_, _, perform_analyse_eq_ok.mpr ⟨_, hadd, rfl⟩, ?_⟩
  refine perform_bind_eq_ok.mpr ⟨m, _, rfl, ?_⟩
  refine perform_bind_eq_ok.mpr ⟨_, _, rfl, ?_⟩
  refine perform_bind_eq_ok.mpr ⟨app, _, perform_ofExcept_eq_ok.mpr ⟨happ, rfl⟩, ?_⟩
  refine perform_bind_eq_ok.mpr ⟨_, _, rfl, ?_⟩
  refine perform_bind_eq_ok.mpr ⟨_, _, perform_analyse_eq_ok.mpr ⟨_, hentries, rfl⟩, ?_⟩
  refine perform_bind_eq_ok.mpr ⟨some es, _, rfl, ?_⟩
  exact perform_bind_eq_ok.mpr ⟨_, _, perform_analyse_eq_ok.mpr ⟨_, hpaths, rfl⟩, rfl⟩

/-- Documenting a group changes no file, and its document is without repetition and well-formed. -/
theorem generated_group {r : Document × Bool} (h : w.perform (group c g) = some (.ok r, w')) :
    Paths.Generated r.1.paths ∧ w'.files = w.files := by
  obtain ⟨m, s₁, app, found, s₂, -, -, -, hcases⟩ := perform_group_cases h
  rcases hcases with ⟨es, ps, s₃, -, hpaths, hd, rfl⟩ | ⟨program, -, -, hd, rfl⟩
  · rw [hd]
    exact ⟨Session.generated_pathsOfEntries hpaths, rfl⟩
  · rw [hd]
    exact ⟨generated_pathsOfRoutes _ g.name program.routes, rfl⟩

/-! ## Intermediate files -/

/-- Documenting a group into its file succeeds if the group can be documented and the file be
written. -/
theorem perform_groupFile_eq_ok {s s' : Summary} :
    w.perform (groupFile c s g) = some (.ok s', w') ↔
      ∃ d searched w₁ fs, w.perform (group c g) = some (.ok (d, searched), w₁) ∧
        w₁.files.include? (c.intermediateFile g) (d.text .json) = some fs ∧
        s' = { s with
          groups := s.groups + 1
          searched := s.searched + if searched then 1 else 0
          operations := s.operations + d.operationCount } ∧
        w' = { w₁ with files := fs } := by
  constructor
  · intro h
    obtain ⟨r, w₁, hinside, h₁⟩ := perform_bind_eq_ok.mp h
    obtain ⟨_, w₂, hwrite, h₂⟩ := perform_bind_eq_ok.mp h₁
    obtain ⟨hs, hw⟩ := perform_pure_eq_ok.mp h₂
    obtain ⟨fs, hfs, hw₂⟩ := perform_writeFile_eq_ok.mp hwrite
    exact ⟨r.1, r.2, w₁, fs, perform_inside_eq_ok.mp hinside, hfs, hs, hw.trans hw₂⟩
  · rintro ⟨d, searched, w₁, fs, hgroup, hfs, rfl, rfl⟩
    exact perform_bind_eq_ok.mpr ⟨(d, searched), w₁, perform_inside_eq_ok.mpr hgroup,
      perform_bind_eq_ok.mpr ⟨(), _, perform_writeFile_eq_ok.mpr ⟨fs, hfs, rfl⟩, rfl⟩⟩

/-- A group that was documented leaves a generated document in its file, and in every file that had
one. -/
theorem holdsGenerated_of_groupFile {s s' : Summary}
    (h : w.perform (groupFile c s g) = some (.ok s', w')) :
    HoldsGenerated w'.files (c.intermediateFile g) ∧
      ∀ p, HoldsGenerated w.files p → HoldsGenerated w'.files p := by
  obtain ⟨d, searched, w₁, fs, hgroup, hfs, -, rfl⟩ := perform_groupFile_eq_ok.mp h
  obtain ⟨hgenerated, hfiles⟩ := generated_group hgroup
  refine ⟨⟨d, hgenerated, Files.read?_of_include? hfs⟩, fun p ⟨old, hold, hp⟩ => ?_⟩
  rw [← hfiles] at hp
  -- Two paths may lead to one file, which then holds what was written last.
  rcases Files.read?_or_of_include? hfs hp with hkept | hnew
  · exact ⟨old, hold, hkept⟩
  · exact ⟨d, hgenerated, hnew⟩

theorem holdsGenerated_of_groupFiles {gs : List Group} {s s' : Summary}
    (h : w.perform (gs.foldlM (groupFile c) s) = some (.ok s', w')) :
    (∀ g ∈ gs, HoldsGenerated w'.files (c.intermediateFile g)) ∧
      ∀ p, HoldsGenerated w.files p → HoldsGenerated w'.files p := by
  induction gs generalizing s w with
  | nil =>
    obtain ⟨-, rfl⟩ := perform_pure_eq_ok.mp h
    exact ⟨fun _ hg => absurd hg List.not_mem_nil, fun _ hp => hp⟩
  | cons g gs ih =>
    rw [List.foldlM_cons] at h
    obtain ⟨s₁, w₁, hgroup, hrest⟩ := perform_bind_eq_ok.mp h
    obtain ⟨hg, hkeep⟩ := holdsGenerated_of_groupFile hgroup
    obtain ⟨hgs, hkeep'⟩ := ih hrest
    exact ⟨List.forall_mem_cons.mpr ⟨hkeep' _ hg, hgs⟩, fun p hp => hkeep' p (hkeep p hp)⟩

end Generation

section

variable [PatternEngine]

/-! ## Merging the intermediate files -/

/-- A file that holds a generated document is merged as that document, unless the document is nested
too deeply to be read again. -/
theorem Merged.addFile_of_read? {fs : Files} {m : Merged} {g : Group} {p : Path} {d : Document}
    (hd : Paths.Generated d.paths) (hp : fs.read? p = some (d.text .json)) :
    m.addFile fs g p =
      if d.toJson.depth ≤ Json.depthLimit then m.addGroup g d
      else (m.addTag g.name, some (.malformedDocument .json)) := by
  rw [addFile, Files.exists?_of_read? hp, hp]
  simp only [Bool.not_true, Bool.false_eq_true, if_false, Document.text,
    Document.read?_pretty_toJson hd.keyed]
  by_cases hdepth : d.toJson.depth ≤ Json.depthLimit
  · rw [if_pos hdepth, if_pos hdepth]
    -- The tag is there already when the document is merged.
    simp only [addGroup, addTag_addTag]
  · rw [if_neg hdepth, if_neg hdepth]

/-- What is merged from a file that holds a generated document is such a document. -/
theorem Merged.addGroup_of_addFile {fs : Files} {m m' : Merged} {g : Group} {p : Path}
    (hp : HoldsGenerated fs p) (h : m.addFile fs g p = (m', none)) :
    ∃ d : Document, Paths.Generated d.paths ∧ m.addGroup g d = (m', none) := by
  obtain ⟨d, hd, hread⟩ := hp
  rw [addFile_of_read? hd hread] at h
  split at h
  · exact ⟨d, hd, h⟩
  · exact absurd (Prod.mk.inj h).2 (by simp)

theorem Config.mergeGroup_eq_ok {c : Config} {fs : Files} {g : Group} {m m' : Merged} :
    c.mergeGroup fs m g = .ok m' ↔ m.addFile fs g (c.intermediateFile g) = (m', none) := by
  unfold mergeGroup
  generalize m.addFile fs g (c.intermediateFile g) = r
  obtain ⟨m₁, e⟩ := r
  cases e <;> simp

/-- Merging the files is merging the documents that they hold. -/
theorem Config.addGroups_of_mergeGroup {c : Config} {fs : Files} {gs : List Group} {m m' : Merged}
    (hgs : ∀ g ∈ gs, HoldsGenerated fs (c.intermediateFile g))
    (h : gs.foldlM (c.mergeGroup fs) m = .ok m') :
    ∃ gds : GroupDocuments, gds.map Prod.fst = gs ∧ m.addGroups gds = .ok m' ∧
      ∀ gd ∈ gds, Paths.Generated gd.2.paths := by
  induction gs generalizing m with
  | nil =>
    rw [List.foldlM_nil] at h
    obtain rfl := Except.ok.inj h
    exact ⟨[], rfl, rfl, fun _ hgd => absurd hgd List.not_mem_nil⟩
  | cons g gs ih =>
    rw [List.foldlM_cons] at h
    cases hg : c.mergeGroup fs m g with
    | error f =>
      rw [hg] at h
      cases h
    | ok m₁ =>
      rw [hg] at h
      obtain ⟨d, hd, hadd⟩ :=
        Merged.addGroup_of_addFile (hgs g List.mem_cons_self) (mergeGroup_eq_ok.mp hg)
      obtain ⟨gds, hmap, hgds, hall⟩ := ih (fun k hk => hgs k (List.mem_cons_of_mem _ hk)) h
      refine ⟨(g, d) :: gds, by rw [List.map_cons, hmap], ?_, List.forall_mem_cons.mpr ⟨hd, hall⟩⟩
      rw [Merged.addGroups, hadd]
      exact hgds

/-- **Merging files that hold generated documents gives a well-formed document with one tag for each
name of a group.** -/
theorem Config.wellFormed_of_merge {c : Config} {fs : Files} {d : Document}
    (hgs : ∀ g ∈ c.groups, HoldsGenerated fs (c.intermediateFile g)) (h : c.merge fs = .ok d) :
    d.WellFormed ∧ d.tags = some (firstOccurrences [] (c.groups.map Group.name)) := by
  rw [merge] at h
  cases hm : c.groups.foldlM (c.mergeGroup fs) .empty with
  | error f =>
    rw [hm] at h
    cases h
  | ok m =>
    rw [hm] at h
    obtain rfl := Except.ok.inj h
    obtain ⟨gds, hmap, hadd, hgenerated⟩ := addGroups_of_mergeGroup hgs hm
    refine ⟨Merged.wellFormed_of_addGroups hadd fun gd hgd e he =>
      ((hgenerated gd hgd).values e he).2, ?_⟩
    obtain ⟨-, rfl⟩ := Merged.addGroups_eq_ok_iff.mp hadd
    rw [← hmap, List.map_map]
    rfl

/-! ## The run -/

/-- A run succeeds if the groups can be documented, their files be merged and the output be
written. -/
theorem Config.perform_run_eq_ok {c : Config} {w w' : Workspace} {summary : Summary} :
    w.perform c.run = some (.ok summary, w') ↔
      ∃ s w₁ d fs, w.perform (c.groups.foldlM (Generation.groupFile c) {}) = some (.ok s, w₁) ∧
        c.merge w₁.files = .ok d ∧
        w₁.files.include? c.output (d.text (.ofPath c.output)) = some fs ∧
        summary = { s with paths := d.paths.length } ∧ w' = { w₁ with files := fs } := by
  constructor
  · intro h
    obtain ⟨s, w₁, hgroups, h₁⟩ := Generation.perform_bind_eq_ok.mp h
    obtain ⟨a, w₂, hget, h₂⟩ := Generation.perform_bind_eq_ok.mp h₁
    obtain ⟨rfl, rfl⟩ := Generation.perform_get_eq_ok.mp hget
    cases hmerge : c.merge w₂.files with
    | error f =>
      rw [hmerge] at h₂
      obtain ⟨d, w₃, hd, -⟩ := Generation.perform_bind_eq_ok.mp h₂
      exact absurd (Option.some.inj hd) (by simp)
    | ok d =>
      rw [hmerge] at h₂
      obtain ⟨d', w₃, hd, h₃⟩ := Generation.perform_bind_eq_ok.mp h₂
      obtain ⟨rfl, rfl⟩ := Generation.perform_pure_eq_ok.mp hd
      obtain ⟨_, w₄, hwrite, h₄⟩ := Generation.perform_bind_eq_ok.mp h₃
      obtain ⟨hs, hw⟩ := Generation.perform_pure_eq_ok.mp h₄
      obtain ⟨fs, hfs, hw₄⟩ := Generation.perform_writeFile_eq_ok.mp hwrite
      exact ⟨s, _, d', fs, hgroups, hmerge, hfs, hs, hw.trans hw₄⟩
  · rintro ⟨s, w₁, d, fs, hgroups, hmerge, hfs, rfl, rfl⟩
    refine Generation.perform_bind_eq_ok.mpr ⟨s, w₁, hgroups,
      Generation.perform_bind_eq_ok.mpr ⟨w₁, w₁, rfl, ?_⟩⟩
    rw [hmerge]
    exact Generation.perform_bind_eq_ok.mpr ⟨d, w₁, rfl, Generation.perform_bind_eq_ok.mpr
      ⟨(), _, Generation.perform_writeFile_eq_ok.mpr ⟨fs, hfs, rfl⟩, rfl⟩⟩

/-- **The document of a run is well-formed, and lists the groups in their order as its tags.** -/
theorem Config.wellFormed_of_run {c : Config} {fs : Files} {w w' : Workspace} {summary : Summary}
    (hc : c.problem? fs = none) (h : w.perform c.run = some (.ok summary, w')) :
    ∃ s w₁ d, w.perform (c.groups.foldlM (Generation.groupFile c) {}) = some (.ok s, w₁) ∧
      c.merge w₁.files = .ok d ∧ w'.files.read? c.output = some (d.text (.ofPath c.output)) ∧
      d.WellFormed ∧ d.tags = some (c.groups.map Group.name) ∧
      (c.groups.map Group.name).Nodup := by
  obtain ⟨s, w₁, d, fs, hgroups, hmerge, hfs, -, rfl⟩ := perform_run_eq_ok.mp h
  obtain ⟨hfiles, -⟩ := Generation.holdsGenerated_of_groupFiles hgroups
  obtain ⟨hwf, htags⟩ := wellFormed_of_merge hfiles hmerge
  have hnames := nodup_names_of_problem? hc
  rw [firstOccurrences_of_nodup hnames fun _ _ => List.not_mem_nil] at htags
  exact ⟨s, w₁, d, hgroups, hmerge, Files.read?_of_include? hfs, hwf, htags, hnames⟩

end

/-! ### A run -/

attribute [local instance] Pattern.engine

/-- An application with one route. -/
def oneRouteApp : TypeExpr ModuleId :=
  .reference "Hono" [
    .reference "Env" [] 0,
    .object [⟨"/:id", false, .object [⟨"$get", false, .object []⟩]⟩]] 0

def oneRouteGroup : Group := { name := "users", appTypePath := ⟨"app.ts"⟩, mount := some "/v1" }

def oneRouteConfig : Config where
  openapi := "3.0.0"
  info := ⟨"Users", "1", none⟩
  output := ⟨"openapi.json"⟩
  docMarker := defaultDocMarker
  groups := [oneRouteGroup]

/-- A workspace in which the application's source has been read. -/
def oneRouteWorkspace : Workspace where
  files := ⟨[], [(["app.ts"], .file
    "export type AppType = Hono<Env, \x7b '/:id': \x7b $get: \x7b\x7d \x7d \x7d>")]⟩
  session := { Session.start .empty with
    modules := [{ Module.empty ⟨"app.ts"⟩ with
      declarations := [("AppType", .typeAlias [] oneRouteApp)]
      exportedAliases := ["AppType"] }]
    locations := [(["/", "app.ts"], 0)] }

def oneRoutePaths : Paths :=
  [("/\x7bid\x7d", PathItem.empty.put .get {
    summary := some "Auto-generated GET /\x7bid\x7d"
    tags := some ["users"]
    responses := defaultResponses })]

def oneRouteEntries : List RouteEntry :=
  [⟨"", [⟨"/:id", false, .object [⟨"$get", false, .object []⟩]⟩]⟩]

theorem pathsOfEntries_oneRoute :
    (Session.pathsOfEntries .empty oneRouteGroup.name oneRouteEntries).on oneRouteWorkspace.files
      oneRouteWorkspace.session = some (oneRoutePaths, oneRouteWorkspace.session) := by
  cbv

/-- No marker stands in the application's source. -/
theorem ofFiles_oneRoute :
    RouteDocs.ofFiles oneRouteWorkspace.files defaultDocMarker [⟨"app.ts"⟩] = .empty :=
  RouteDocs.eq_mk (List.isEmpty_iff.mp (by decide +kernel))

theorem perform_group_oneRoute :
    oneRouteWorkspace.perform (Generation.group oneRouteConfig oneRouteGroup) =
      some (.ok (oneRouteConfig.documentOf oneRoutePaths, false), oneRouteWorkspace) := by
  have hdocs : RouteDocs.ofFiles oneRouteWorkspace.files oneRouteConfig.docMarker
      oneRouteGroup.docSources = .empty := ofFiles_oneRoute
  have hentries : (Session.entries oneRouteApp).on oneRouteWorkspace.files
      oneRouteWorkspace.session =
        some (.ok (some oneRouteEntries), oneRouteWorkspace.session) := by
    cbv
  have hpaths := pathsOfEntries_oneRoute
  rw [← hdocs] at hpaths
  exact Generation.perform_group_of_entries (m := 0) rfl rfl hentries hpaths

/-- The document that the one route is merged into. -/
def oneRouteDocument : Document :=
  (Merged.empty.addGroup oneRouteGroup (oneRouteConfig.documentOf oneRoutePaths)).1.document
    oneRouteConfig.openapi oneRouteConfig.info oneRouteConfig.servers

theorem merge_oneRoute {fs : Files}
    (h : fs.read? (oneRouteConfig.intermediateFile oneRouteGroup) =
      some ((oneRouteConfig.documentOf oneRoutePaths).text .json)) :
    oneRouteConfig.merge fs = .ok oneRouteDocument := by
  have hgenerated : Paths.Generated (oneRouteConfig.documentOf oneRoutePaths).paths :=
    Session.generated_pathsOfEntries pathsOfEntries_oneRoute
  have hdepth : (oneRouteConfig.documentOf oneRoutePaths).toJson.depth ≤ Json.depthLimit := by
    decide +kernel
  have hgroup : oneRouteConfig.mergeGroup fs .empty oneRouteGroup = .ok
      (Merged.empty.addGroup oneRouteGroup (oneRouteConfig.documentOf oneRoutePaths)).1 := by
    rw [Config.mergeGroup_eq_ok, Merged.addFile_of_read? hgenerated h, if_pos hdepth]
    rfl
  show Except.map _ ([oneRouteGroup].foldlM (oneRouteConfig.mergeGroup fs) .empty) = _
  rw [List.foldlM_cons, hgroup]
  rfl

theorem Config.wellFormed_of_run_oneRoute :
    ∃ summary w', oneRouteConfig.problem? oneRouteWorkspace.files = none ∧
      oneRouteWorkspace.perform oneRouteConfig.run = some (.ok summary, w') ∧
      ∃ s w₁ d, oneRouteWorkspace.perform
          (oneRouteConfig.groups.foldlM (Generation.groupFile oneRouteConfig) {}) =
            some (.ok s, w₁) ∧
        oneRouteConfig.merge w₁.files = .ok d ∧
        w'.files.read? oneRouteConfig.output = some (d.text (.ofPath oneRouteConfig.output)) ∧
        d.WellFormed ∧ d.tags = some (oneRouteConfig.groups.map Group.name) ∧
        (oneRouteConfig.groups.map Group.name).Nodup := by
  have hwritten : ((oneRouteWorkspace.files.include?
      (oneRouteConfig.intermediateFile oneRouteGroup)
      ((oneRouteConfig.documentOf oneRoutePaths).text .json)).bind fun fs =>
        fs.include? oneRouteConfig.output
          (oneRouteDocument.text (.ofPath oneRouteConfig.output))).isSome = true := by
    decide +kernel
  obtain ⟨fs', hfs'⟩ := Option.isSome_iff_exists.mp hwritten
  obtain ⟨fs, hfs, hout⟩ := Option.bind_eq_some_iff.mp hfs'
  have hfirst := Generation.perform_groupFile_eq_ok (s := {}).mpr
    ⟨_, _, _, fs, perform_group_oneRoute, hfs, rfl, rfl⟩
  have hgroups : ∃ s, oneRouteWorkspace.perform
      (oneRouteConfig.groups.foldlM (Generation.groupFile oneRouteConfig) {}) =
        some (.ok s, { oneRouteWorkspace with files := fs }) := by
    show ∃ s, oneRouteWorkspace.perform
      ([oneRouteGroup].foldlM (Generation.groupFile oneRouteConfig) {}) = _
    rw [List.foldlM_cons]
    exact ⟨_, Generation.perform_bind_eq_ok.mpr ⟨_, _, hfirst, rfl⟩⟩
  obtain ⟨s, hs⟩ := hgroups
  have hmerge := merge_oneRoute (Files.read?_of_include? hfs)
  have hrun := perform_run_eq_ok.mpr ⟨s, _, _, fs', hs, hmerge, hout, rfl, rfl⟩
  have hproblem : oneRouteConfig.problem? oneRouteWorkspace.files = none := by decide +kernel
  exact ⟨_, _, hproblem, hrun, wellFormed_of_run hproblem hrun⟩

end Routebook
