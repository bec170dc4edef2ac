import Routebook.Proofs.Generate.Run
import Routebook.Proofs.Generate.Simulation
import Routebook.Proofs.Session.Sources

/-!
# Groups do not depend on each other

The groups of a configuration are documented in one session, which keeps what earlier groups have
loaded. **Whatever has been documented before, a group has the document that it has in a new
session, or none in either** (`isolated_of_history`). What has been written in between must not be a
source of what is loaded; that the session then still says what the files say (`Settled`) is all
that is used of its history.
-/

namespace Routebook

open Disk (Files Path)

namespace Generation

open Correspondence (same byFile related_of_idle mirrors_group adds_same adds_byFile)

variable {c : Config} {g : Group} {w w' : Workspace} {fs : Files}

/-! ## What happens between groups -/

/-- Whether writing a file has left the loaded sources and the import aliases alone. -/
structure SparesSources (c : Config) (p : Path) (w w' : Workspace) : Prop where
  modules : ∀ l, w'.files.locate p = some l → "/" :: l ∉ w.session.locations.map Prod.fst
  aliases : c.pathAliases w'.files = c.pathAliases w.files

/-- The workspaces in which a group may be documented: groups have been documented before, in any
order, as often as one likes and with or without success, and files have been written that are no
sources. -/
inductive History (c : Config) (fs : Files) : Workspace → Prop
  | start : History c fs (.start c fs)
  | group {w w' : Workspace} {g : Group} {r : Except Failure (Document × Bool)} :
    History c fs w → w.perform (Generation.group c g) = some (r, w') → History c fs w'
  | write {w w' : Workspace} {p : Path} {text : String} {r : Except Failure Unit} :
    History c fs w → w.perform (writeFile p text) = some (r, w') → SparesSources c p w w' →
    History c fs w'

/-! ## What is kept -/

/-- What is known of a workspace between groups. -/
structure Settled (c : Config) (w : Workspace) : Prop where
  faithful : w.session.Faithful w.files
  idle : w.session.expanding = []
  aliases : w.session.aliases = c.pathAliases w.files

theorem settled_start (c : Config) (fs : Files) : Settled c (.start c fs) :=
  ⟨Session.faithful_start fs _, rfl, rfl⟩

theorem Settled.of_group (h : Settled c w) {r : Except Failure (Document × Bool)}
    (hgroup : w.perform (group c g) = some (r, w')) : Settled c w' ∧ w'.files = w.files := by
  have hrelated : (same (Session.faithful w.files)).Related (w.session, w.session) :=
    related_of_idle ⟨rfl, h.faithful⟩ h.idle h.idle
  obtain ⟨s, r', s', rfl, -, hlater, -⟩ :=
    mirrors_group (adds_same (Session.faithful w.files) g.appTypePath) r w' hgroup hrelated
  exact ⟨⟨hlater.related.sessions.2, hlater.left.trans h.idle,
    hlater.extends_.left.aliases.trans h.aliases⟩, rfl⟩

theorem Settled.of_write (h : Settled c w) {p : Path} {text : String} {r : Except Failure Unit}
    (hwrite : w.perform (writeFile p text) = some (r, w')) (hspares : SparesSources c p w w') :
    Settled c w' := by
  obtain ⟨hsession, hext⟩ := extendsBut_of_writeFile hwrite
  obtain ⟨fs', s'⟩ := w'
  obtain rfl : s' = w.session := hsession
  exact ⟨h.faithful.of_extendsBut hext hspares.modules, h.idle,
    h.aliases.trans hspares.aliases.symm⟩

theorem History.settled (h : History c fs w) : Settled c w := by
  induction h with
  | start => exact settled_start c fs
  | group _ hgroup ih => exact (ih.of_group hgroup).1
  | write _ hwrite hspares ih => exact ih.of_write hwrite hspares

/-- In two settled workspaces with the same files a group comes to the same. -/
theorem Settled.exists_perform {s s' : Session} (h : Settled c ⟨fs, s⟩) (h' : Settled c ⟨fs, s'⟩)
    (htree : fs.IsTree) (hbare : NoBareExtensions fs) (hp : fs.Unmistakable g.appTypePath)
    {r : Except Failure (Document × Bool)}
    (hr : Workspace.perform ⟨fs, s⟩ (group c g) = some (r, w)) :
    ∃ r' w', Workspace.perform ⟨fs, s'⟩ (group c g) = some (r', w') ∧ r'.toOption = r.toOption := by
  have hrelated : (byFile htree hbare).Related (s, s') :=
    related_of_idle ⟨h.faithful, h'.faithful, h'.aliases.trans h.aliases.symm⟩ h.idle h'.idle
  obtain ⟨s₁, r', s₁', -, hr', -, hrr⟩ :=
    mirrors_group (adds_byFile htree hbare hp) r w hr hrelated
  refine ⟨r', _, hr', ?_⟩
  generalize r.toOption = o at hrr
  generalize r'.toOption = o' at hrr
  cases hrr with
  | none => rfl
  | some hab => rw [hab]

/-- **Whatever has been done before in a session, a group has the document that it has in a new
session, or none in either.** -/
theorem isolated_of_history (h : History c fs w) (htree : w.files.IsTree)
    (hbare : NoBareExtensions w.files) (hp : w.files.Unmistakable g.appTypePath) :
    (w.perform (group c g)).map (·.1.toOption) =
      ((Workspace.start c w.files).perform (group c g)).map (·.1.toOption) := by
  have hnew := settled_start c w.files
  ext o
  rw [Option.map_eq_some_iff, Option.map_eq_some_iff]
  constructor
  · rintro ⟨⟨r, v⟩, hr, rfl⟩
    obtain ⟨r', v', hr', hrr⟩ := h.settled.exists_perform hnew htree hbare hp hr
    exact ⟨(r', v'), hr', hrr⟩
  · rintro ⟨⟨r, v⟩, hr, rfl⟩
    obtain ⟨r', v', hr', hrr⟩ := hnew.exists_perform h.settled htree hbare hp hr
    exact ⟨(r', v'), hr', hrr⟩

/-! ### Two spellings of a file -/

/-- A group that names a type that its source does not have. -/
def missingTypeGroup : Group := { oneRouteGroup with appTypeName := some "Missing" }

/-- The group of one route, with its source spelled another way. -/
def respelledGroup : Group := { oneRouteGroup with appTypePath := ⟨"./app.ts"⟩ }

theorem isolated_of_history_respelled : ∃ w,
    History oneRouteConfig oneRouteWorkspace.files w ∧ w.session.modules.length = 1 ∧
      w.files.IsTree ∧ NoBareExtensions w.files ∧
      w.files.Unmistakable respelledGroup.appTypePath ∧
      (w.perform (group oneRouteConfig respelledGroup)).map (·.1.toOption) =
        ((Workspace.start oneRouteConfig w.files).perform
          (group oneRouteConfig respelledGroup)).map (·.1.toOption) := by
  -- The source is loaded first for a type that it does not have.
  have hfirst : ((Workspace.start oneRouteConfig oneRouteWorkspace.files).perform
      (group oneRouteConfig missingTypeGroup)).map (·.2.session.modules.length) = some 1 := by
    decide +kernel
  obtain ⟨⟨r, w⟩, hgroup, hlength⟩ := Option.map_eq_some_iff.mp hfirst
  have hhistory := History.group .start hgroup
  have hfiles : w.files = oneRouteWorkspace.files := ((settled_start _ _).of_group hgroup).2
  have htree : oneRouteWorkspace.files.IsTree := Files.isTree_of_entries (by decide +kernel)
  have hbare : NoBareExtensions oneRouteWorkspace.files := by
    have hnone : (Session.readProgram oneRouteWorkspace.files ⟨"app.ts"⟩).toOption.map
        (fun program => (Module.ofProgram 0 ⟨"app.ts"⟩ program).specifiers) = some [] := by
      decide +kernel
    refine noBareExtensions_of_entries htree (List.forall_mem_singleton.mpr ?_)
    refine ⟨⟨"app.ts"⟩, by decide +kernel, fun program hread specifier hspecifier => ?_⟩
    rw [hread] at hnone
    have hspecifiers : (Module.ofProgram 0 ⟨"app.ts"⟩ program).specifiers = [] :=
      Option.some.inj hnone
    rw [hspecifiers] at hspecifier
    exact absurd hspecifier List.not_mem_nil
  have hexists : oneRouteWorkspace.files.Unmistakable respelledGroup.appTypePath :=
    Files.unmistakable_of_isFile (by decide +kernel)
  rw [← hfiles] at htree hbare hexists
  exact ⟨w, hhistory, hlength, htree, hbare, hexists,
    isolated_of_history hhistory htree hbare hexists⟩

end Generation

end Routebook
