import Routebook.Proofs.Disk.Destination
import Routebook.Proofs.Generate.Scratch

/-!
# What a run leaves alone

A run writes the intermediate files of its groups and its output, and no other file. The output is
written last, so **a run that fails has not touched it** (`Config.kept_of_run`), wherever it failed
and whatever had been written before.

This needs the output to be no intermediate file. A configuration that passes its check may put the
two in one place: the check compares the groups with each other, not with the output.
-/

namespace Routebook

open Disk (Files Path Location)

namespace Generation

variable {α β : Type} {fs : Files} {l : Location} {c : Config} {w w' : Workspace}

/-! ## Steps that keep a place -/

/-- A step that keeps what is at a location, whatever it comes to, among files in which paths begin
where they do in the given ones. -/
def Keeps (fs : Files) (l : Location) (x : Generation α) : Prop :=
  ∀ ⦃w : Workspace⦄ ⦃r : Except Failure α⦄ ⦃w' : Workspace⦄, w.perform x = some (r, w') →
    w.files.workingDirectory = fs.workingDirectory →
    w'.files.workingDirectory = fs.workingDirectory ∧ w'.files.Kept w.files l

/-- A step that changes no file keeps every place. -/
theorem keeps_of_files {x : Generation α}
    (h : ∀ ⦃w : Workspace⦄ ⦃r : Except Failure α⦄ ⦃w' : Workspace⦄,
      w.perform x = some (r, w') → w'.files = w.files) : Keeps fs l x := by
  intro w r w' hx hdirectory
  rw [h hx]
  exact ⟨hdirectory, .refl _ l⟩

theorem keeps_pure (a : α) : Keeps fs l (pure a : Generation α) :=
  keeps_of_files fun _ _ _ h => by rw [← (Prod.mk.inj (Option.some.inj h)).2]

theorem keeps_get : Keeps fs l (get : Generation Workspace) :=
  keeps_of_files fun _ _ _ h => by rw [← (Prod.mk.inj (Option.some.inj h)).2]

theorem keeps_ofExcept (r : Except Error α) : Keeps fs l (ofExcept r) :=
  keeps_of_files fun w _ _ h => by
    cases r with
    | ok a => rw [← (Prod.mk.inj (Option.some.inj h)).2]
    | error e => rw [← (Prod.mk.inj (Option.some.inj h)).2]

/-- An analysis only looks at the files. -/
theorem keeps_analyse (x : Analysis α) : Keeps fs l (analyse x) :=
  keeps_of_files fun _ _ _ h => by
    obtain ⟨_, -, h⟩ := Option.bind_eq_some_iff.mp h
    rw [← (Prod.mk.inj (Option.some.inj h)).2]

theorem Keeps.bind {x : Generation α} {f : α → Generation β} (hx : Keeps fs l x)
    (hf : ∀ a, Keeps fs l (f a)) : Keeps fs l (x >>= f) := by
  intro w r w' h hdirectory
  rcases perform_bind_cases h with ⟨e, hfail, -⟩ | ⟨a, w₁, hfirst, hrest⟩
  · exact hx hfail hdirectory
  · obtain ⟨hdirectory₁, hkept₁⟩ := hx hfirst hdirectory
    obtain ⟨hdirectory', hkept⟩ := hf a hrest hdirectory₁
    exact ⟨hdirectory', hkept.trans hkept₁⟩

theorem Keeps.inside {x : Generation α} (hx : Keeps fs l x) (purpose : String) :
    Keeps fs l (inside purpose x) := by
  intro w r w' h hdirectory
  obtain ⟨⟨r₁, w₁⟩, hstep, h⟩ := Option.bind_eq_some_iff.mp h
  cases r₁ with
  | ok a =>
    obtain ⟨-, rfl⟩ := Prod.mk.inj (Option.some.inj h)
    exact hx hstep hdirectory
  | error e =>
    obtain ⟨-, rfl⟩ := Prod.mk.inj (Option.some.inj h)
    exact hx hstep hdirectory

theorem keeps_foldlM {f : β → α → Generation β} {as : List α}
    (h : ∀ a ∈ as, ∀ b, Keeps fs l (f b a)) (b : β) :
    Keeps fs l (as.foldlM f b) := by
  induction as generalizing b with
  | nil => exact keeps_pure b
  | cons a as ih =>
    obtain ⟨ha, has⟩ := List.forall_mem_cons.mp h
    exact (ha b).bind fun b' => ih has b'

/-! ## The steps of a run -/

/-- **Writing a file keeps every place but its destination,** and that place too if it fails. -/
theorem kept_of_writeFile {p : Path} {text : String} {r : Except Failure Unit}
    (h : w.perform (writeFile p text) = some (r, w'))
    (hl : r = .ok () → w.files.destination p ≠ l) :
    w'.files.workingDirectory = w.files.workingDirectory ∧ w'.files.Kept w.files l := by
  refine ⟨(extendsBut_of_writeFile h).2.follows.workingDirectory, ?_⟩
  rcases perform_writeFile_cases h with ⟨-, rfl⟩ | ⟨dirs, hdirs, ⟨-, rfl⟩ | ⟨fs, hfs, hr, rfl⟩⟩
  · exact .refl _ l
  · exact Files.kept_of_makeDirectories? hdirs l
  · have hsame := Files.destination_congr
      (Files.extends_of_makeDirectories? hdirs).workingDirectory p
    exact (Files.kept_of_write? hfs (hsame ▸ hl hr)).trans (Files.kept_of_makeDirectories? hdirs l)

theorem keeps_writeFile {p : Path} (hl : fs.destination p ≠ l) (text : String) :
    Keeps fs l (writeFile p text) := by
  intro w r w' h hdirectory
  obtain ⟨hdirectory', hkept⟩ := kept_of_writeFile (l := l) h fun _ => by
    rwa [Files.destination_congr hdirectory]
  exact ⟨hdirectory'.trans hdirectory, hkept⟩

theorem keeps_foundPaths (docs : RouteDocs) (g : Group) : Keeps fs l (foundPaths docs g) :=
  keeps_get.bind fun _ => (keeps_ofExcept _).bind fun _ => keeps_pure _

/-- Documenting a group changes no file, whether it succeeds or not. -/
theorem keeps_group (c : Config) (g : Group) : Keeps fs l (group c g) := by
  refine (keeps_analyse _).bind fun _ => (keeps_ofExcept _).bind fun m => keeps_get.bind fun _ =>
    (keeps_ofExcept _).bind fun app => keeps_get.bind fun _ => (keeps_analyse _).bind fun _ =>
    (keeps_ofExcept _).bind fun found => ?_
  cases found with
  | some es => exact (keeps_analyse _).bind fun _ => keeps_pure _
  | none => exact (keeps_foundPaths _ g).bind fun _ => keeps_pure _

theorem keeps_groupFile {g : Group}
    (hl : fs.destination (c.intermediateFile g) ≠ l) (s : Summary) :
    Keeps fs l (groupFile c s g) :=
  ((keeps_group c g).inside _).bind fun _ => (keeps_writeFile hl _).bind fun _ => keeps_pure _

/-- The groups keep every place that no intermediate file has. -/
theorem keeps_groupFiles {gs : List Group}
    (hl : ∀ g ∈ gs, fs.destination (c.intermediateFile g) ≠ l) (s : Summary) :
    Keeps fs l (gs.foldlM (groupFile c) s) :=
  keeps_foldlM (fun g hg s => keeps_groupFile (hl g hg) s) s

end Generation

/-! ## The run -/

variable {c : Config} {w w' : Workspace}

/-- A run ends with the groups, with merging them, or with writing the output. -/
theorem Config.perform_run_cases [PatternEngine] {r : Except Failure Summary}
    (h : w.perform c.run = some (r, w')) :
    (∃ f, w.perform (c.groups.foldlM (Generation.groupFile c) {}) = some (.error f, w') ∧
        r = .error f) ∨
      ∃ s w₁, w.perform (c.groups.foldlM (Generation.groupFile c) {}) = some (.ok s, w₁) ∧
        ((∃ f, c.merge w₁.files = .error f ∧ r = .error f ∧ w' = w₁) ∨
          ∃ d r', c.merge w₁.files = .ok d ∧
            w₁.perform (Generation.writeFile c.output (d.text (.ofPath c.output))) =
              some (r', w') ∧
            r = r'.map fun _ => { s with paths := d.paths.length }) := by
  rcases Generation.perform_bind_cases h with ⟨f, hgroups, hr⟩ | ⟨s, w₁, hgroups, h₁⟩
  · exact .inl ⟨f, hgroups, hr⟩
  refine .inr ⟨s, w₁, hgroups, ?_⟩
  rcases Generation.perform_bind_cases h₁ with ⟨f, hget, -⟩ | ⟨a, w₂, hget, h₂⟩
  · exact absurd (Option.some.inj hget) (by simp)
  obtain ⟨rfl, rfl⟩ := Generation.perform_get_eq_ok.mp hget
  cases hmerge : c.merge w₂.files with
  | error f =>
    rw [hmerge] at h₂
    obtain ⟨hr, hw⟩ := Prod.mk.inj (Option.some.inj h₂)
    exact .inl ⟨f, rfl, hr.symm, hw.symm⟩
  | ok d =>
    rw [hmerge] at h₂
    replace h₂ : w₂.perform (Generation.writeFile _ _ >>= fun _ => pure _) = some (r, w') := h₂
    refine .inr ⟨d, ?_⟩
    rcases Generation.perform_bind_cases h₂ with ⟨f, hfail, hr⟩ | ⟨_, w₃, hwrite, h₃⟩
    · exact ⟨_, rfl, hfail, hr⟩
    · obtain ⟨hr, hw⟩ := Prod.mk.inj (Option.some.inj h₃)
      exact ⟨.ok (), rfl, hw ▸ hwrite, hr.symm⟩

/-- **A run changes no file but the intermediate files of its groups and its output, and if it fails
it leaves the output as it was.** Of the places that it keeps no file is changed, added or taken
away; at most a directory is made where nothing was. -/
theorem Config.kept_of_run [PatternEngine] {r : Except Failure Summary}
    (h : w.perform c.run = some (r, w')) :
    (∀ l, l ≠ w.files.destination c.output →
      (∀ g ∈ c.groups, l ≠ w.files.destination (c.intermediateFile g)) →
        w'.files.Kept w.files l) ∧
    ∀ f, r = .error f →
      (∀ g ∈ c.groups,
        w.files.destination (c.intermediateFile g) ≠ w.files.destination c.output) →
          w'.files.Kept w.files (w.files.destination c.output) := by
  -- At both kinds of places no intermediate file is written, and no output if the run succeeds.
  have hkept : ∀ l, (r.isOk → w.files.destination c.output ≠ l) →
      (∀ g ∈ c.groups, w.files.destination (c.intermediateFile g) ≠ l) →
        w'.files.Kept w.files l := by
    intro l hout hgroups
    rcases perform_run_cases h with ⟨f, hfail, -⟩ | ⟨s, w₁, hfiles, ⟨f, -, -, rfl⟩ | hwrite⟩
    · exact (Generation.keeps_groupFiles hgroups _ hfail rfl).2
    · exact (Generation.keeps_groupFiles hgroups _ hfiles rfl).2
    · obtain ⟨d, r', -, hwrite, rfl⟩ := hwrite
      obtain ⟨hdirectory, hkept⟩ := Generation.keeps_groupFiles hgroups _ hfiles rfl
      refine (Generation.kept_of_writeFile hwrite fun hr => ?_).2.trans hkept
      rw [Files.destination_congr hdirectory]
      rw [hr] at hout
      exact hout rfl
  refine ⟨fun l hout hgroups => hkept l (fun _ => hout.symm) fun g hg => (hgroups g hg).symm, ?_⟩
  rintro f rfl hgroups
  exact hkept _ (fun hok => absurd hok (by simp [Except.isOk, Except.toBool])) hgroups

/-! ### A run that fails -/

namespace Generation

/-- A group of the application of one route that names a type which the application does not
have. -/
def misnamedGroup : Group := { adminGroup with appTypeName := some "Missing" }

def misnamedConfig : Config := { twoGroupConfig with groups := [oneRouteGroup, misnamedGroup] }

/-- The application of one route, and an output from before. -/
def servedWorkspace : Workspace :=
  { oneRouteWorkspace with
    files := ⟨[], oneRouteWorkspace.files.entries ++ [(["openapi.json"], .file "before")]⟩ }

theorem perform_group_misnamed {fs : Files} (h : hasOneRouteApp fs = true) :
    Workspace.perform ⟨fs, oneRouteWorkspace.session⟩ (group misnamedConfig misnamedGroup) =
      some (.error (.ofError (.missingAppType ⟨"app.ts"⟩ "Missing")),
        ⟨fs, oneRouteWorkspace.session⟩) := by
  have hadd : (Session.addFile misnamedGroup.appTypePath).on fs oneRouteWorkspace.session =
      some (.ok 0, oneRouteWorkspace.session) := addFile_oneRouteApp h
  refine (perform_bind_of_ok (perform_analyse_eq_ok.mpr ⟨_, hadd, rfl⟩)).trans ?_
  refine (perform_bind_of_ok (a := 0) rfl).trans ?_
  exact (perform_bind_of_ok (a := ⟨fs, oneRouteWorkspace.session⟩) rfl).trans
    (perform_bind_of_error rfl)

end Generation

open Generation (misnamedGroup misnamedConfig servedWorkspace hasOneRouteApp)

attribute [local instance] Pattern.engine

theorem Config.kept_of_run_misnamed : ∃ f w',
    misnamedConfig.problem? servedWorkspace.files = none ∧
      servedWorkspace.perform misnamedConfig.run = some (.error f, w') ∧
      servedWorkspace.files.destination misnamedConfig.output = ["openapi.json"] ∧
      (∀ g ∈ misnamedConfig.groups,
        servedWorkspace.files.destination (misnamedConfig.intermediateFile g) ≠
          ["openapi.json"]) ∧
      (w'.files.read? (misnamedConfig.intermediateFile oneRouteGroup)).isSome ∧
      w'.files.Kept servedWorkspace.files ["app.ts"] ∧
      w'.files.Kept servedWorkspace.files ["openapi.json"] := by
  have hwritten : ((servedWorkspace.files.include? (misnamedConfig.intermediateFile oneRouteGroup)
      ((misnamedConfig.documentOf (Generation.oneRoutePathsOf oneRouteGroup.name)).text
        .json)).bind fun fs => if hasOneRouteApp fs then some fs else none).isSome = true := by
    decide +kernel
  obtain ⟨fs, hfs⟩ := Option.isSome_iff_exists.mp hwritten
  obtain ⟨fs', hinclude, hkeep⟩ := Option.bind_eq_some_iff.mp hfs
  obtain ⟨happ, hsame⟩ := Option.ite_none_right_eq_some.mp hkeep
  obtain rfl := Option.some.inj hsame
  -- The first group is documented, and the second has no type.
  have happBefore : hasOneRouteApp servedWorkspace.files = true := by decide +kernel
  have hfirst := Generation.perform_groupFile_eq_ok (c := misnamedConfig) (s := {}).mpr
    ⟨_, _, _, fs', Generation.perform_group_oneRouteApp (g := oneRouteGroup) happBefore rfl rfl rfl,
      hinclude, rfl, rfl⟩
  have hsecond (s : Summary) :
      Workspace.perform ⟨fs', oneRouteWorkspace.session⟩
        ([misnamedGroup].foldlM (Generation.groupFile misnamedConfig) s) =
          some (.error _, ⟨fs', oneRouteWorkspace.session⟩) :=
    Generation.perform_bind_of_error <| Generation.perform_bind_of_error <|
      Generation.perform_inside_of_error (Generation.perform_group_misnamed happ)
  have hrun : servedWorkspace.perform misnamedConfig.run =
      some (.error _, ⟨fs', oneRouteWorkspace.session⟩) :=
    Generation.perform_bind_of_error ((Generation.perform_bind_of_ok hfirst).trans (hsecond _))
  have houtput : servedWorkspace.files.destination misnamedConfig.output = ["openapi.json"] := by
    decide +kernel
  have hapart : ∀ g ∈ misnamedConfig.groups,
      servedWorkspace.files.destination (misnamedConfig.intermediateFile g) ≠
        ["openapi.json"] := by
    decide +kernel
  obtain ⟨hothers, hfailed⟩ := kept_of_run hrun
  rw [houtput] at hothers hfailed
  refine ⟨_, _, by decide +kernel, hrun, houtput, hapart, ?_,
    hothers ["app.ts"] (by decide) (by decide +kernel), hfailed _ rfl hapart⟩
  rw [Files.read?_of_include? hinclude]
  rfl

end Routebook
