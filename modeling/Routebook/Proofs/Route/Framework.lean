import Routebook.Proofs.Route.Simulation
import Routebook.Proofs.Session.Exports
import Routebook.Proofs.Session.Questions

/-!
# How the framework's types are told

The framework is never loaded, so its types are told by their names. A name may come a long way from
the package: through files that import it, export it and export it again, each under a name of its
own (`Leads`). Looking it up goes all that way and finds nothing at the end of it
(`exists_lookupWithin_of_leads`). But **a type is told by the name that its own file asks the next
one for** (`canonicalName?_of_denotes`): it is recognised exactly if that is what the package calls
it, however the files behind that one rename it.
-/

namespace Routebook

open Disk (Files)

/-! ## Dotted names -/

theorem takeWhile_append_cons {p : Char → Bool} {c : Char} (hc : p c = false) (xs ys : List Char) :
    (xs ++ c :: ys).takeWhile p = xs.takeWhile p := by
  induction xs with
  | nil => simp [hc]
  | cons x xs ih => simp [List.takeWhile_cons, ih]

/-- The last name of a dotted name is that of what is behind its first dot. -/
theorem lastName_of_splitAt? {name : String} {before after : List Char}
    (h : splitAt? '.' name.toList = some (before, after)) :
    Session.lastName name = Session.lastName (String.ofList after) := by
  unfold splitAt? at h
  split at h
  · exact absurd h (by simp)
  · next c cs hdrop =>
    obtain ⟨rfl, rfl⟩ := Prod.mk.inj (Option.some.inj h)
    have hparts := List.takeWhile_append_dropWhile (p := (· != '.')) (l := name.toList)
    have hdot : (c != '.') = false := by
      have hhead := List.head?_dropWhile_not (· != '.') name.toList
      rw [hdrop] at hhead
      simpa using hhead
    rw [hdrop] at hparts
    unfold Session.lastName
    rw [← hparts, String.toList_ofList, List.reverse_append, List.reverse_cons, List.append_assoc,
      List.singleton_append, takeWhile_append_cons (p := (· != '.')) hdot]

namespace Module

variable {y : Module} {name specifier asked : String}

/-- What the imports of a module call a name: the name that another file is asked for, or the name
itself. -/
def calledName (y : Module) (name : String) : String := (y.importedName? name).getD name

theorem importedName?_of_lead? (hname : Undotted name)
    (hlead : y.lead? name = some (.imported specifier asked)) :
    y.importedName? name = some asked := by
  unfold lead? at hlead
  rw [splitAt?_of_undotted hname] at hlead
  dsimp only at hlead
  split at hlead
  · exact absurd hlead (by simp)
  · split at hlead
    · exact absurd hlead (by simp)
    · split at hlead
      · next himport =>
        obtain ⟨rfl, rfl⟩ := Session.Lead.imported.inj (Option.some.inj hlead)
        rw [importedName?, himport]
        rfl
      · exact absurd hlead (by simp)

/-- A name that leads to another file is called there what that file is asked for, be it imported or
a name of a namespace that is. -/
theorem lastName_calledName (hname : Undotted name ∨ y.importedName? name = none)
    (hlead : y.lead? name = some (.imported specifier asked)) :
    Session.lastName (y.calledName name) = Session.lastName asked := by
  rcases hname with hname | hnone
  · rw [calledName, importedName?_of_lead? hname hlead]
    rfl
  · have himport : ∀ i, y.imports.get? name = some i → i.name = none := by
      intro i hi
      unfold importedName? at hnone
      rw [hi] at hnone
      exact hnone
    rw [calledName, hnone, Option.getD_none]
    unfold lead? at hlead
    split at hlead
    · next first rest hsplit =>
      split at hlead
      · obtain ⟨-, rfl⟩ := Session.Lead.imported.inj (Option.some.inj hlead)
        exact lastName_of_splitAt? hsplit
      · exact absurd hlead (by simp)
    · split at hlead
      · exact absurd hlead (by simp)
      · split at hlead
        · exact absurd hlead (by simp)
        · split at hlead
          · next hi => exact absurd (himport _ hi) (by simp)
          · exact absurd hlead (by simp)

end Module

namespace Session

open Correspondence (frameworkNode?_eq)

variable {fs : Files} {x told name specifier : String} {s s' s₁ : Session} {m : ModuleId}
  {t : TypeExpr ModuleId}

/-! ## The way to a package -/

/-- A name of a module leads to what a package exports as `x`, through any number of files. In each
it may be imported, exported or exported again under another name. -/
inductive Leads (fs : Files) (x : String) : Session → ModuleId → String → Prop where
  | package {s m y name specifier} : s.modules[m]? = some y →
    y.lead? name = some (.imported specifier x) → specifierFile? fs s m specifier = none →
    Leads fs x s m name
  | renamed {s m y name other} : s.modules[m]? = some y →
    y.lead? name = some (.renamed other) → Leads fs x s m other → Leads fs x s m name
  | imported {s s₁ m y name specifier asked target} : s.modules[m]? = some y →
    y.lead? name = some (.imported specifier asked) →
    (loadSpecifier m specifier).on fs s = some (some target, s₁) → Leads fs x s₁ target asked →
    Leads fs x s m name

/-- A type denotes what a package exports as `x`. The last name is what it is called in the file
that it is written in, or that it mentions: the name that the next file is asked for. -/
inductive Denotes (fs : Files) (x : String) (s : Session) : TypeExpr ModuleId → String → Prop where
  | reference {name args m y} : s.modules[m]? = some y → Leads fs x s m name →
    Denotes fs x s (.reference name args m) (y.calledName name)
  | package {specifier args m} : specifierFile? fs s m specifier = none →
    Denotes fs x s (.imported specifier (some x) args m) x
  | imported {specifier name args m file s₁} :
    (loadSpecifier m specifier).on fs s = some (some file, s₁) → Leads fs x s₁ file name →
    Denotes fs x s (.imported specifier (some name) args m) name

/-- A package is asked for what it exports. -/
theorem Leads.eq_of_package {y : Module} {asked : String} (h : Leads fs x s m name)
    (hy : s.modules[m]? = some y) (hlead : y.lead? name = some (.imported specifier asked))
    (hfile : specifierFile? fs s m specifier = none) : asked = x := by
  cases h with
  | package hy' hlead' _ =>
    obtain rfl := Option.some.inj (hy.symm.trans hy')
    exact (Lead.imported.inj (Option.some.inj (hlead.symm.trans hlead'))).2
  | renamed hy' hlead' _ =>
    obtain rfl := Option.some.inj (hy.symm.trans hy')
    exact absurd (hlead.symm.trans hlead') (by simp)
  | imported hy' hlead' hload _ =>
    obtain rfl := Option.some.inj (hy.symm.trans hy')
    obtain ⟨rfl, -⟩ := Lead.imported.inj (Option.some.inj (hlead.symm.trans hlead'))
    have hnone := (loadSpecifier_of_no_file hfile).symm.trans hload
    exact absurd (Prod.mk.inj (Option.some.inj hnone)).1 (by simp)

/-- Following such a name finds no declaration, however far it goes. -/
theorem exists_lookupWithin_of_leads (h : Leads fs x s m name) (k : Nat) :
    ∃ s₁, (lookupWithin k m name).on fs s = some (none, s₁) := by
  induction h generalizing k with
  | @package s m y name specifier hy hlead hfile =>
    cases k with
    | zero => exact ⟨s, rfl⟩
    | succ k =>
      rw [lookupWithin_of_module? hy, hlead]
      exact ⟨s, Analysis.on_bind (loadSpecifier_of_no_file hfile)⟩
  | @renamed s m y name other hy hlead _ ih =>
    cases k with
    | zero => exact ⟨s, rfl⟩
    | succ k =>
      rw [lookupWithin_of_module? hy, hlead]
      exact ih k
  | @imported s s₁ m y name specifier asked target hy hlead hload _ ih =>
    cases k with
    | zero => exact ⟨s, rfl⟩
    | succ k =>
      obtain ⟨s₂, hrest⟩ := ih k
      rw [lookupWithin_of_module? hy, hlead]
      exact ⟨s₂, (Analysis.on_bind hload).trans hrest⟩

/-- So such a type is its own resolution. -/
theorem exists_expand_of_denotes (h : Denotes fs x s t told) :
    ∃ s₁, expand t fs s = some (none, s₁) := by
  rw [expand.eq_def]
  cases h with
  | reference _ hleads =>
    obtain ⟨s₁, hlookup⟩ := exists_lookupWithin_of_leads hleads (importLimit + 1)
    exact ⟨s₁, Analysis.on_bind hlookup⟩
  | package hfile => exact ⟨s, Analysis.on_bind (loadSpecifier_of_no_file hfile)⟩
  | imported hload hleads =>
    obtain ⟨s₁, hlookup⟩ := exists_lookupWithin_of_leads hleads (importLimit + 1)
    exact ⟨s₁, (Analysis.on_bind hload).trans (Analysis.on_bind hlookup)⟩

theorem exists_resolve_of_denotes (h : Denotes fs x s t told) :
    ∃ s₁, s₁.Extends s ∧ (resolve t).on fs s = some (t, s₁) := by
  obtain ⟨s₁, hexpand⟩ := exists_expand_of_denotes h
  refine ⟨s₁, grows_expand t _ _ _ _ hexpand, ?_⟩
  show resolveWithin resolveLimit t fs s = _
  rw [resolveWithin.eq_def]
  exact Analysis.on_bind hexpand

/-! ## Being told by a name -/

/-- A type is called the same in every later session. -/
theorem canonicalName?_of_called (h : Denotes fs x s t told) (hs : s'.Extends s) :
    s'.canonicalName? t = some (lastName told) := by
  cases h with
  | reference hy _ =>
    simp only [canonicalName?, hs.module? hy]
    rfl
  | package _ => rfl
  | imported _ _ => rfl

/-- What a type of a route table is if nothing is known of it but a name. -/
def nodeNamed (name : String) (t : TypeExpr ModuleId) : RouteNode :=
  if name = "MergeSchemaPath" then
    match t.args with
    | table :: path :: _ => .mounted table path
    | _ => .other t
  else if name = "BlankSchema" then .blank
  else .other t

theorem getD_frameworkNode? (h : s.canonicalName? t = some name) :
    (s.frameworkNode? t).getD (.other t) = nodeNamed name t := by
  rw [frameworkNode?_eq, h, nodeNamed]
  simp only [Option.some.injEq]
  split
  · cases t.args with
    | nil => rfl
    | cons table rest => cases rest <;> rfl
  · split <;> rfl

/-- What is its own resolution without having a shape is known by its name only, before its file is
left and after. -/
theorem routeNode_of_denotes (h : Denotes fs x s t told) :
    ∃ s₁, (routeNode t).on fs s = some (nodeNamed (lastName told) t, s₁) := by
  obtain ⟨s₁, hext, hresolve⟩ := exists_resolve_of_denotes h
  have hcalled := canonicalName?_of_called h (.refl s)
  have hsame : s₁.frameworkNode? t = s.frameworkNode? t := by
    rw [frameworkNode?_eq, frameworkNode?_eq, hcalled, canonicalName?_of_called h hext]
  rw [← getD_frameworkNode? hcalled]
  unfold routeNode
  cases hnode : s.frameworkNode? t with
  | some node =>
    refine ⟨s, (Analysis.on_bind (a := s) rfl).trans ?_⟩
    rw [hnode]
    rfl
  | none =>
    refine ⟨s₁, (Analysis.on_bind (a := s) rfl).trans ?_⟩
    rw [hnode]
    refine (Analysis.on_bind hresolve).trans ((Analysis.on_bind (a := s₁) rfl).trans ?_)
    rw [hsame, hnode]
    cases h <;> rfl

/-- **A type that denotes what a package exports as `x` is recognised as `x` exactly if that is what
it is called in its own file,** whatever is loaded later. A table that is mounted and an empty one
are told by that name, and any other name stays a type of its own. A name that leads to another file
is called in its file what that file is asked for, and the package is asked for `x`. -/
theorem canonicalName?_of_denotes (h : Denotes fs x s t told) :
    (∀ s' : Session, s'.Extends s → (s'.canonicalName? t = some x ↔ lastName told = x)) ∧
    (∃ s₁, (routeNode t).on fs s = some (nodeNamed (lastName told) t, s₁)) ∧
    ∀ name args m y specifier asked, t = .reference name args m → s.modules[m]? = some y →
      Undotted name ∨ y.importedName? name = none →
      y.lead? name = some (.imported specifier asked) →
      lastName told = lastName asked ∧
        (specifierFile? fs s m specifier = none → asked = x) := by
  refine ⟨?_, routeNode_of_denotes h, ?_⟩
  · intro s' hs
    rw [canonicalName?_of_called h hs, Option.some.injEq]
  · rintro name args m y specifier asked rfl hy hname hlead
    cases h with
    | reference hy' hleads =>
      obtain rfl := Option.some.inj (hy.symm.trans hy')
      exact ⟨Module.lastName_calledName hname hlead, hleads.eq_of_package hy hlead⟩

/-! ### A type that is renamed behind the file that uses it, and one that is renamed there -/

section Mounted

/-- It has the framework's type from another file, once as `MergeSchemaPath` and once as `Mount`. -/
def mountsModule : Module where
  path := ⟨"mounts.ts"⟩
  declarations := []
  imports := [("Under", ⟨"./framework", some "MergeSchemaPath"⟩),
    ("Mount", ⟨"./framework", some "Mount"⟩)]
  renames := []
  exportedAliases := []

def frameworkModule : Module where
  path := ⟨"framework.ts"⟩
  declarations := []
  imports := [("MergeSchemaPath", ⟨"hono/types", some "MergeSchemaPath"⟩)]
  renames := [("Mount", "MergeSchemaPath")]
  exportedAliases := []

def mountsFiles : Files :=
  ⟨[], [(["mounts.ts"], .file "import { MergeSchemaPath as Under, Mount } from \"./framework\";"),
    (["framework.ts"], .file "import { MergeSchemaPath } from \"hono/types\";
      export { MergeSchemaPath, MergeSchemaPath as Mount };")]⟩

def mountsSession : Session :=
  ⟨.empty, [mountsModule, frameworkModule],
    [(["/", "mounts.ts"], 0), (["/", "framework.ts"], 1)], []⟩

/-- A table at a path, by the name of the type that puts it there. -/
def mountedBy (name : String) : TypeExpr ModuleId :=
  .reference name [.object [], .literal (.string "/api")] 0

theorem loadSpecifier_framework :
    (loadSpecifier 0 "./framework").on mountsFiles mountsSession = some (some 1, mountsSession) :=
  loadSpecifier_eq_some.mpr ⟨⟨"./framework.ts"⟩, by decide +kernel,
    addFile_of_location? (by decide +kernel)⟩

theorem leads_framework :
    Leads mountsFiles "MergeSchemaPath" mountsSession 1 "MergeSchemaPath" :=
  .package (y := frameworkModule) rfl rfl rfl

theorem denotes_under : Denotes mountsFiles "MergeSchemaPath" mountsSession (mountedBy "Under")
    "MergeSchemaPath" :=
  .reference (y := mountsModule) rfl
    (.imported (y := mountsModule) rfl rfl loadSpecifier_framework leads_framework)

theorem denotes_mount : Denotes mountsFiles "MergeSchemaPath" mountsSession (mountedBy "Mount")
    "Mount" :=
  .reference (y := mountsModule) rfl (.imported (y := mountsModule) rfl rfl loadSpecifier_framework
    (.renamed (y := frameworkModule) rfl rfl leads_framework))

/-- The first is recognised, and the table is found at its path; the second is not. -/
theorem canonicalName?_of_denotes_mounted :
    mountsSession.canonicalName? (mountedBy "Under") = some "MergeSchemaPath" ∧
    (∃ s₁, (routeNode (mountedBy "Under")).on mountsFiles mountsSession =
      some (.mounted (.object []) (.literal (.string "/api")), s₁)) ∧
    mountsSession.canonicalName? (mountedBy "Mount") ≠ some "MergeSchemaPath" ∧
    ∃ s₁, (routeNode (mountedBy "Mount")).on mountsFiles mountsSession =
      some (.other (mountedBy "Mount"), s₁) := by
  obtain ⟨hunder, hmounted, -⟩ := canonicalName?_of_denotes denotes_under
  obtain ⟨hmount, hother, -⟩ := canonicalName?_of_denotes denotes_mount
  refine ⟨(hunder _ (.refl _)).mpr (by decide), hmounted, ?_, hother⟩
  intro h
  exact absurd ((hmount _ (.refl _)).mp h) (by decide)

end Mounted

end Session
end Routebook
