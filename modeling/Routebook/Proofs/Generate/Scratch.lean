import Routebook.Proofs.Config.FileNames
import Routebook.Proofs.Generate.Run
import Routebook.Proofs.Merge.Failures
import Routebook.Proofs.Session.Sources

/-!
# Merging through intermediate files

The documents of a run go to the merge by way of files. **What is merged is what was generated**
(`run_of_documents`): the groups of a checked configuration have files of their own, so none writes
over another's (`read?_intermediateFile_of_include?`); each file is read back as the document that
was written; and the exclusions of each group can be read, because the check has read them.

Two groups have two files because their names lead into one directory
(`Config.destination_intermediateFile`). How that directory is spelled does not matter, nor what it
is.
-/

namespace Routebook

open Disk (Files Path)

/-! ## Files in one directory -/

namespace Disk.Files

variable {fs fs' : Files} {p q : Path}

/-- Including a file changes nothing that is read elsewhere. -/
theorem read?_of_include?_ne {text old : String} (h : fs.include? p text = some fs')
    (hq : fs.read? q = some old) (hne : ∀ l, fs'.locate q = some l → fs'.locate p ≠ some l) :
    fs'.read? q = some old := by
  obtain ⟨dirs, hdirs, hwrite⟩ := include?_eq_some h
  have hext := (extendsBut_of_write? hwrite).of_extends hdirs
  obtain ⟨l, hl, hentry⟩ := read?_eq_some.mp hq
  have hl' := locate_of_follows hext.follows hl
  exact read?_eq_some.mpr ⟨l, hl', hext.entries l _ (hne l hl') hentry⟩

end Disk.Files

theorem Config.read?_intermediateFile_of_include? {c : Config} {g h : Group} {fs fs' : Files}
    {text old : String} (hname : h.fileName ≠ g.fileName)
    (hwrite : fs.include? (c.intermediateFile g) text = some fs')
    (hold : fs.read? (c.intermediateFile h) = some old) :
    fs'.read? (c.intermediateFile h) = some old := by
  refine Files.read?_of_include?_ne hwrite hold fun l hl hl' => hname ?_
  have hsame := (Files.destination_of_locate hl).trans (Files.destination_of_locate hl').symm
  rw [destination_intermediateFile, destination_intermediateFile] at hsame
  exact List.singleton_inj.mp (List.append_inj' hsame rfl).2

/-! ## Documenting the groups into their files -/

namespace Generation

variable {c : Config} {w w' w₁ : Workspace} {gds : GroupDocuments}

/-- What documenting some groups one after another and writing their documents comes to. -/
inductive Documents (c : Config) : Workspace → GroupDocuments → Workspace → Prop
  | nil {w : Workspace} : Documents c w [] w
  | cons {w w₁ w' : Workspace} {g : Group} {d : Document} {searched : Bool} {fs : Files}
    {gds : GroupDocuments} :
    w.perform (group c g) = some (.ok (d, searched), w₁) →
    w₁.files.include? (c.intermediateFile g) (d.text .json) = some fs →
    Documents c { w₁ with files := fs } gds w' → Documents c w ((g, d) :: gds) w'

theorem Documents.perform (h : Documents c w gds w') (s : Summary) :
    ∃ s', w.perform ((gds.map Prod.fst).foldlM (groupFile c) s) = some (.ok s', w') := by
  induction h generalizing s with
  | nil => exact ⟨s, rfl⟩
  | cons hgroup hwrite _ ih =>
    obtain ⟨s', hs'⟩ := ih _
    refine ⟨s', ?_⟩
    rw [List.map_cons, List.foldlM_cons]
    exact perform_bind_eq_ok.mpr
      ⟨_, _, perform_groupFile_eq_ok.mpr ⟨_, _, _, _, hgroup, hwrite, rfl, rfl⟩, hs'⟩

theorem Documents.generated (h : Documents c w gds w') :
    ∀ gd ∈ gds, Paths.Generated gd.2.paths := by
  induction h with
  | nil => exact nofun
  | cons hgroup _ _ ih => exact List.forall_mem_cons.mpr ⟨(generated_group hgroup).1, ih⟩

/-- A file that was written before stays as it is, if it belongs to another group. -/
theorem Documents.read?_of_ne (h : Documents c w gds w') {g : Group} {text : String}
    (hapart : ∀ gd ∈ gds, g.fileName ≠ gd.1.fileName)
    (hg : w.files.read? (c.intermediateFile g) = some text) :
    w'.files.read? (c.intermediateFile g) = some text := by
  induction h with
  | nil => exact hg
  | cons hgroup hwrite _ ih =>
    obtain ⟨hne, hrest⟩ := List.forall_mem_cons.mp hapart
    rw [← (generated_group hgroup).2] at hg
    exact ih hrest (Config.read?_intermediateFile_of_include? hne hwrite hg)

/-- **No group's file is written over:** each holds its group's document in the end. -/
theorem Documents.read?_intermediateFile (h : Documents c w gds w')
    (hapart : (gds.map Prod.fst).Pairwise Group.Apart) :
    ∀ gd ∈ gds, w'.files.read? (c.intermediateFile gd.1) = some (gd.2.text .json) := by
  induction h with
  | nil => exact nofun
  | cons _ hwrite hrest ih =>
    obtain ⟨hfirst, hothers⟩ := List.pairwise_cons.mp hapart
    refine List.forall_mem_cons.mpr ⟨hrest.read?_of_ne (fun gd hgd => ?_)
      (Files.read?_of_include? hwrite), ih hothers⟩
    exact (hfirst _ (List.mem_map_of_mem hgd)).fileName

end Generation

section

variable [PatternEngine] {c : Config} {fs fs' : Files} {w w' : Workspace} {gds : GroupDocuments}

/-! ## Merging -/

/-- Merging files that hold documents is merging the documents. -/
theorem Config.foldlM_mergeGroup_eq_ok {m m' : Merged}
    (hread : ∀ gd ∈ gds, fs.read? (c.intermediateFile gd.1) = some (gd.2.text .json))
    (hgenerated : ∀ gd ∈ gds, Paths.Generated gd.2.paths)
    (hdepth : ∀ gd ∈ gds, gd.2.toJson.depth < 128) (h : m.addGroups gds = .ok m') :
    (gds.map Prod.fst).foldlM (c.mergeGroup fs) m = .ok m' := by
  induction gds generalizing m with
  | nil =>
    obtain rfl := Except.ok.inj h
    rfl
  | cons gd gds ih =>
    obtain ⟨hread₁, hread⟩ := List.forall_mem_cons.mp hread
    obtain ⟨hgenerated₁, hgenerated⟩ := List.forall_mem_cons.mp hgenerated
    obtain ⟨hdepth₁, hdepth⟩ := List.forall_mem_cons.mp hdepth
    rw [Merged.addGroups] at h
    split at h
    · next m₁ hadd =>
      have hlimit : gd.2.toJson.depth ≤ Json.depthLimit := Nat.le_of_lt_succ hdepth₁
      have hfile : c.mergeGroup fs m gd.1 = .ok m₁ := by
        rw [mergeGroup_eq_ok, Merged.addFile_of_read? hgenerated₁ hread₁, if_pos hlimit, hadd]
      rw [List.map_cons, List.foldlM_cons, hfile]
      exact ih hread hgenerated hdepth h
    · exact absurd h (by simp)

theorem Merged.exists_addGroups (h : ∀ gd ∈ gds, badPattern? gd.1.exclusions = none) (m : Merged) :
    ∃ m', m.addGroups gds = .ok m' :=
  ⟨_, addGroups_eq_ok_iff.mpr ⟨fun gd hgd =>
    Exclusions.exists_ofList (isSome_read?_of_badPattern? (h gd hgd)), rfl⟩⟩

/-- **Merging through the intermediate files is merging in memory.** Once the groups of a checked
configuration have been documented into their files, every file holds its group's document, and what
the files are merged into is what the documents are merged into; the run writes it as its output. -/
theorem Config.run_of_documents {c : Config} {fs : Files} {w w' : Workspace} {gds : GroupDocuments}
    (hc : c.problem? fs = none) (hgroups : gds.map Prod.fst = c.groups)
    (h : Generation.Documents c w gds w') (hdepth : ∀ gd ∈ gds, gd.2.toJson.depth < 128) :
    ∃ s m, w.perform (c.groups.foldlM (Generation.groupFile c) {}) = some (.ok s, w') ∧
      (∀ gd ∈ gds, w'.files.read? (c.intermediateFile gd.1) = some (gd.2.text .json)) ∧
      Merged.empty.addGroups gds = .ok m ∧
      c.merge w'.files = .ok (m.document c.openapi c.info c.servers) ∧
      ∀ fs', w'.files.include? c.output
          ((m.document c.openapi c.info c.servers).text (.ofPath c.output)) = some fs' →
        w.perform c.run =
          some (.ok { s with paths := m.paths.length }, { w' with files := fs' }) := by
  obtain ⟨s, hs⟩ := h.perform {}
  have hmem : ∀ gd ∈ gds, gd.1 ∈ c.groups := fun gd hgd => hgroups ▸ List.mem_map_of_mem hgd
  have hread := h.read?_intermediateFile (hgroups ▸ apart_of_problem? hc)
  obtain ⟨m, hm⟩ := Merged.exists_addGroups
    (fun gd hgd => badPattern?_of_problem? hc gd.1 (hmem gd hgd)) .empty
  have hfold := foldlM_mergeGroup_eq_ok hread h.generated hdepth hm
  rw [hgroups] at hs hfold
  have hmerge : c.merge w'.files = .ok (m.document c.openapi c.info c.servers) := by
    rw [merge, hfold]
    rfl
  exact ⟨s, m, hs, hread, hm, hmerge, fun fs' hfs' =>
    perform_run_eq_ok.mpr ⟨s, w', _, fs', hs, hmerge, hfs', rfl, rfl⟩⟩

end

/-! ### Two groups of one application -/

namespace Generation

def oneRoutePathsOf (group : String) : Paths :=
  [("/\x7bid\x7d", PathItem.empty.put .get {
    summary := some "Auto-generated GET /\x7bid\x7d"
    tags := some [group]
    responses := defaultResponses })]

/-- Another group of the same application. -/
def adminGroup : Group := { oneRouteGroup with name := "Admin users", mount := some "/admin" }

def twoGroupConfig : Config := { oneRouteConfig with groups := [oneRouteGroup, adminGroup] }

/-- Whether the application's source is where it was. -/
def hasOneRouteApp (fs : Files) : Bool :=
  fs.canonical? ⟨"app.ts"⟩ = some ["app.ts"] &&
    fs.read? ⟨"app.ts"⟩ = oneRouteWorkspace.files.read? ⟨"app.ts"⟩

theorem ofFiles_oneRouteApp {fs : Files} (h : hasOneRouteApp fs = true) :
    RouteDocs.ofFiles fs defaultDocMarker [⟨"app.ts"⟩] = .empty := by
  have hread : fs.read? ⟨"app.ts"⟩ = oneRouteWorkspace.files.read? ⟨"app.ts"⟩ := by
    simpa using (Bool.and_eq_true_iff.mp h).2
  rw [← ofFiles_oneRoute]
  simp only [RouteDocs.ofFiles, List.foldl_cons, List.foldl_nil, Session.readProgram_of_read? hread]

/-- The application's source has been read already. -/
theorem addFile_oneRouteApp {fs : Files} (h : hasOneRouteApp fs = true) :
    (Session.addFile ⟨"app.ts"⟩).on fs oneRouteWorkspace.session =
      some (.ok 0, oneRouteWorkspace.session) := by
  have hcanonical : fs.canonical? ⟨"app.ts"⟩ = some ["app.ts"] := by
    simpa using (Bool.and_eq_true_iff.mp h).1
  have hkey : Session.fileKey fs ⟨"app.ts"⟩ = ["/", "app.ts"] := by
    rw [Session.fileKey, hcanonical]
  exact Session.addFile_of_location? (by rw [hkey]; rfl)

/-- The application can be documented for any group of its own. -/
theorem perform_group_oneRouteApp {g : Group} {fs : Files} (h : hasOneRouteApp fs = true)
    (hpath : g.appTypePath = ⟨"app.ts"⟩) (htype : g.appTypeName = none)
    (hsources : g.docSources = [⟨"app.ts"⟩]) :
    Workspace.perform ⟨fs, oneRouteWorkspace.session⟩ (group twoGroupConfig g) =
      some (.ok (twoGroupConfig.documentOf (oneRoutePathsOf g.name), false),
        ⟨fs, oneRouteWorkspace.session⟩) := by
  have hdocs : RouteDocs.ofFiles fs twoGroupConfig.docMarker g.docSources = .empty := by
    rw [hsources]
    exact ofFiles_oneRouteApp h
  have hadd : (Session.addFile g.appTypePath).on fs oneRouteWorkspace.session =
      some (.ok 0, oneRouteWorkspace.session) := by
    rw [hpath]
    exact addFile_oneRouteApp h
  have happ : oneRouteWorkspace.session.appType 0 g.appTypeName = .ok oneRouteApp := by
    rw [htype]
    rfl
  have hentries : (Session.entries oneRouteApp).on fs oneRouteWorkspace.session =
      some (.ok (some oneRouteEntries), oneRouteWorkspace.session) := by
    cbv
  have hpaths : (Session.pathsOfEntries .empty g.name oneRouteEntries).on fs
      oneRouteWorkspace.session = some (oneRoutePathsOf g.name, oneRouteWorkspace.session) := by
    cbv
  rw [← hdocs] at hpaths
  exact perform_group_of_entries hadd happ hentries hpaths

end Generation

open Generation (adminGroup twoGroupConfig oneRoutePathsOf hasOneRouteApp)

attribute [local instance] Pattern.engine

def twoGroupDocuments : GroupDocuments :=
  [(oneRouteGroup, twoGroupConfig.documentOf (oneRoutePathsOf oneRouteGroup.name)),
    (adminGroup, twoGroupConfig.documentOf (oneRoutePathsOf adminGroup.name))]

theorem Config.run_of_documents_twoGroups : ∃ w',
    twoGroupConfig.problem? oneRouteWorkspace.files = none ∧
      twoGroupDocuments.map Prod.fst = twoGroupConfig.groups ∧
      Generation.Documents twoGroupConfig oneRouteWorkspace twoGroupDocuments w' ∧
      (∀ gd ∈ twoGroupDocuments, gd.2.toJson.depth < 128) ∧
      ∃ m, Merged.empty.addGroups twoGroupDocuments = .ok m ∧
        twoGroupConfig.merge w'.files = .ok (m.document twoGroupConfig.openapi twoGroupConfig.info
          twoGroupConfig.servers) := by
  have hwritten : ((oneRouteWorkspace.files.include? (twoGroupConfig.intermediateFile oneRouteGroup)
      ((twoGroupConfig.documentOf (oneRoutePathsOf oneRouteGroup.name)).text .json)).bind fun fs =>
        if hasOneRouteApp fs then
          fs.include? (twoGroupConfig.intermediateFile adminGroup)
            ((twoGroupConfig.documentOf (oneRoutePathsOf adminGroup.name)).text .json)
        else none).isSome = true := by
    decide +kernel
  obtain ⟨fs₂, hfs₂⟩ := Option.isSome_iff_exists.mp hwritten
  obtain ⟨fs₁, hfs₁, hsecond⟩ := Option.bind_eq_some_iff.mp hfs₂
  obtain ⟨happ, hfs₂⟩ := Option.ite_none_right_eq_some.mp hsecond
  have hproblem : twoGroupConfig.problem? oneRouteWorkspace.files = none := by decide +kernel
  have hdepth : ∀ gd ∈ twoGroupDocuments, gd.2.toJson.depth < 128 := by decide +kernel
  have hdocuments : Generation.Documents twoGroupConfig oneRouteWorkspace twoGroupDocuments
      { oneRouteWorkspace with files := fs₂ } :=
    .cons (Generation.perform_group_oneRouteApp (by decide +kernel) rfl rfl rfl) hfs₁
      (.cons (Generation.perform_group_oneRouteApp happ rfl rfl rfl) hfs₂ .nil)
  obtain ⟨s, m, -, -, hm, hmerge, -⟩ := run_of_documents hproblem rfl hdocuments hdepth
  exact ⟨_, hproblem, rfl, hdocuments, hdepth, m, hm, hmerge⟩

end Routebook
