import Routebook.Proofs.Session.Numbered
import Routebook.Proofs.Session.Specifiers

/-!
# Modules and their files

As long as the sources stay as they are, every module of a session is what its file says
(`Faithful`). **Two such sessions hold the same modules for the same files, whatever else they hold,
in whatever order and under whatever paths it was loaded** (`Correspondence.byFile`): two modules
are the same if they are known by the same location.

What a path leads to depends on its spelling in two places. In a file that is named without any
directory nothing but an extension is left of the specifiers `".js"` and `".mjs"`
(`NoBareExtensions`). And a path behind which there is nothing may still be taken for the location
of a file, if it has a slash too many (`Files.Unmistakable`).
-/

namespace Routebook

open Disk (Files Path Location)

/-- Whether a path behind which nothing is found is the location of nothing. -/
def Disk.Files.Unmistakable (fs : Files) (p : Path) : Prop :=
  fs.canonical? p = none → ∀ l, p.key = "/" :: l → fs.entry? l = none

theorem Disk.Files.unmistakable_of_isFile {fs : Files} {p : Path} (h : fs.isFile p = true) :
    fs.Unmistakable p := by
  intro hnone
  obtain ⟨text, htext⟩ := Option.isSome_iff_exists.mp h
  obtain ⟨l, hl, hentry⟩ := Files.read?_eq_some.mp htext
  rw [Files.canonical?, hl, Option.filter_some, hentry] at hnone
  exact absurd hnone (by simp)

namespace Session

variable {fs : Files} {s s' : Session} {p q : Path} {l : Location} {m n id : ModuleId}
  {program : Source.Program}

/-! ## Reading a file under two paths -/

theorem exists_file_of_readProgram (h : readProgram fs p = .ok program) :
    ∃ l text, fs.locate p = some l ∧ fs.entry? l = some (.file text) := by
  rw [readProgram] at h
  split at h
  · exact absurd h (by simp)
  · next text hread =>
    obtain ⟨l, hl, hentry⟩ := Files.read?_eq_some.mp hread
    exact ⟨l, text, hl, hentry⟩

theorem file_of_readProgram (h : readProgram fs p = .ok program) (hl : fs.locate p = some l) :
    ∃ text, fs.entry? l = some (.file text) := by
  obtain ⟨l', text, hl', hentry⟩ := exists_file_of_readProgram h
  rw [hl, Option.some.injEq] at hl'
  exact ⟨text, hl' ▸ hentry⟩

/-- **What a file says is the same under all paths that lead to it.** -/
theorem readProgram_of_locate (htree : fs.IsTree) (h : fs.locate q = fs.locate p)
    (hp : readProgram fs p = .ok program) : readProgram fs q = .ok program := by
  obtain ⟨l, text, hl, hentry⟩ := exists_file_of_readProgram hp
  have hfile : fs.isDirectoryAt l = false := by simp [Files.isDirectoryAt, hentry]
  have hread : fs.read? q = fs.read? p := by
    rw [Files.read?, Files.read?, Files.lookup, Files.lookup, h]
  -- The name of the file says how its text is to be read.
  obtain ⟨front, name, d, hspells, rfl⟩ := Files.exists_spells htree hl hfile
  obtain ⟨front', name', d', hspells', hloc⟩ := Files.exists_spells htree (h.trans hl) hfile
  obtain ⟨-, hname⟩ := List.append_inj' hloc rfl
  have hfileName : q.fileName? = p.fileName? := by
    rw [hspells.fileName?, hspells'.fileName?, List.singleton_inj.mp hname]
  rw [readProgram, Files.read?_eq_some.mpr ⟨_, hl, hentry⟩] at hp
  rw [readProgram, hread, Files.read?_eq_some.mpr ⟨_, hl, hentry⟩, hfileName]
  dsimp only at hp ⊢
  split at hp
  · exact hp
  · exact absurd hp (by simp)

theorem fileKey_eq (hl : fs.locate p = some l) (hentry : (fs.entry? l).isSome) :
    fileKey fs p = "/" :: l := by
  have hcanonical : fs.canonical? p = some l := by
    rw [Files.canonical?, hl]
    exact Option.filter_eq_some_iff.mpr ⟨rfl, by simpa using hentry⟩
  rw [fileKey, hcanonical]

/-- What a specifier means is there. -/
theorem unmistakable_of_specifierFile? {specifier : String}
    (h : specifierFile? fs s m specifier = some p) : fs.Unmistakable p := by
  obtain ⟨x, -, hfind⟩ := Option.bind_eq_some_iff.mp h
  have hfile : fs.isFile p = true := List.find?_some hfind
  exact Files.unmistakable_of_isFile hfile

/-! ## Faithful sessions -/

/-- Whether a module is what the file at a location says. -/
def Holds (fs : Files) (s : Session) (l : Location) (m : ModuleId) : Prop :=
  ∃ p program, fs.locate p = some l ∧ readProgram fs p = .ok program ∧
    s.modules[m]? = some (Module.ofProgram m p program)

theorem Holds.of_extends (h : s.Holds fs l m) (hext : s'.Extends s) : s'.Holds fs l m := by
  obtain ⟨p, program, hl, hread, hx⟩ := h
  exact ⟨p, program, hl, hread, hext.module? hx⟩

/-- Sessions in which every module is what its file says. -/
structure Faithful (fs : Files) (s : Session) : Prop where
  numbered : s.Numbered
  files : ∀ e ∈ s.locations, ∃ l, e.1 = "/" :: l ∧ s.Holds fs l e.2

theorem faithful_start (fs : Files) (aliases : PathAliases) :
    (Session.start aliases).Faithful fs :=
  ⟨numbered_start aliases, fun _ he => absurd he List.not_mem_nil⟩

theorem Faithful.of_addFile (h : s.Faithful fs) {r : Except Error ModuleId}
    (hadd : (addFile p).on fs s = some (r, s')) : s'.Faithful fs := by
  refine ⟨(h.numbered.of_addFile hadd).1, ?_⟩
  have hext := grows_addFile p fs _ _ _ hadd
  rcases addFile_cases hadd with ⟨-, -, -, rfl⟩ | ⟨-, -, -, -, rfl⟩ | ⟨program, -, hread, -, rfl⟩
  · exact h.files
  · exact h.files
  · refine List.forall_mem_append.mpr ⟨fun e he => ?_, List.forall_mem_singleton.mpr ?_⟩
    · obtain ⟨l, hkey, hholds⟩ := h.files e he
      exact ⟨l, hkey, hholds.of_extends hext⟩
    · obtain ⟨l, text, hl, hentry⟩ := exists_file_of_readProgram hread
      refine ⟨l, fileKey_eq hl (by simp [hentry]), p, program, hl, hread, ?_⟩
      simp

theorem readProgram_of_read? {fs' : Files} (h : fs'.read? p = fs.read? p) :
    readProgram fs' p = readProgram fs p := by
  rw [readProgram, readProgram, h]

/-- Faithful sessions stay faithful while only files are written that are not loaded. -/
theorem Faithful.of_extendsBut {fs' : Files} (h : s.Faithful fs) (hext : fs'.ExtendsBut p fs)
    (hp : ∀ l, fs'.locate p = some l → "/" :: l ∉ s.locations.map Prod.fst) : s.Faithful fs' := by
  refine ⟨h.numbered, fun e he => ?_⟩
  obtain ⟨l, hkey, q, program, hq, hread, hx⟩ := h.files e he
  obtain ⟨text, hentry⟩ := file_of_readProgram hread hq
  have hne : fs'.locate p ≠ some l := by
    intro hl
    exact hp l hl (hkey ▸ List.mem_map_of_mem he)
  have hq' := Files.locate_of_follows hext.follows hq
  have hread' : fs'.read? q = fs.read? q := by
    rw [Files.read?_eq_some.mpr ⟨l, hq, hentry⟩]
    exact Files.read?_eq_some.mpr ⟨l, hq', hext.entries l _ hne hentry⟩
  exact ⟨l, hkey, q, program, hq', (readProgram_of_read? hread').trans hread, hx⟩

/-- Being faithful, however many files are added. -/
def faithful (fs : Files) : Invariant fs where
  holds := Faithful fs
  numbered h := h.numbered
  addFile h hadd := h.of_addFile hadd
  enter _ h := ⟨(numbered fs).enter _ h.numbered, h.files⟩
  leave h := ⟨(numbered fs).leave h.numbered, h.files⟩

/-! ## Adding files to faithful sessions -/

theorem mem_of_location? {key : List String} (h : s.locations.lookup key = some id) :
    (key, id) ∈ s.locations := by
  obtain ⟨before, after, hlocations, -⟩ := List.lookup_eq_some_iff.mp h
  simp [hlocations]

/-- What is known under the key of a path can be read at the path. -/
theorem Faithful.exists_program (h : s.Faithful fs) (htree : fs.IsTree)
    (hp : fs.Unmistakable p) (hid : s.locations.lookup (fileKey fs p) = some id) :
    ∃ program, readProgram fs p = .ok program := by
  obtain ⟨l, hkey, q, program, hq, hread, -⟩ := h.files _ (mem_of_location? hid)
  obtain ⟨text, hentry⟩ := file_of_readProgram hread hq
  have hpl : fs.locate p = some l := by
    rw [fileKey] at hkey
    cases hcanonical : fs.canonical? p with
    | none =>
      rw [hcanonical] at hkey
      simp [hp hcanonical l hkey] at hentry
    | some l' =>
      rw [hcanonical] at hkey
      obtain rfl := (List.cons.inj hkey).2
      exact (Option.filter_eq_some_iff.mp hcanonical).1
  exact ⟨program, readProgram_of_locate htree (hpl.trans hq.symm) hread⟩

theorem Faithful.addFile_of_error (h : s.Faithful fs) (htree : fs.IsTree)
    (hp : fs.Unmistakable p) {e : Error} (hread : readProgram fs p = .error e) :
    (addFile p).on fs s = some (.error e, s) := by
  refine Session.addFile_of_error ?_ hread
  cases hid : s.locations.lookup (fileKey fs p) with
  | none => rfl
  | some id =>
    obtain ⟨program, hok⟩ := h.exists_program htree hp hid
    exact absurd (hread.symm.trans hok) (by simp)

/-- A file that can be read is known by its location after it has been added. -/
theorem Faithful.addFile_of_ok (h : s.Faithful fs) (hl : fs.locate p = some l)
    (hread : readProgram fs p = .ok program) :
    ∃ id s', (addFile p).on fs s = some (.ok id, s') ∧ s'.Faithful fs ∧
      ("/" :: l, id) ∈ s'.locations := by
  have hkey : fileKey fs p = "/" :: l := by
    obtain ⟨text, hentry⟩ := file_of_readProgram hread hl
    exact fileKey_eq hl (by simp [hentry])
  have hadd : ∃ id s', (addFile p).on fs s = some (.ok id, s') := by
    cases hid : s.locations.lookup (fileKey fs p) with
    | some id => exact ⟨id, s, addFile_of_location? hid⟩
    | none => exact ⟨_, _, addFile_of_readProgram hid hread⟩
  obtain ⟨id, s', hadd⟩ := hadd
  exact ⟨id, s', hadd, h.of_addFile hadd,
    hkey ▸ mem_of_location? (location?_of_addFile hadd)⟩

end Session

/-! ## Sessions with the same files -/

/-- Whether no file in the working directory mentions a specifier of which nothing is left without
the extension of a compiled file. -/
def NoBareExtensions (fs : Files) : Prop :=
  ∀ p l program, fs.locate p = some l → l.dropLast = fs.workingDirectory →
    Session.readProgram fs p = .ok program →
    ∀ specifier ∈ (Module.ofProgram 0 p program).specifiers,
      specifier ≠ ".js" ∧ specifier ≠ ".mjs"

/-- One path to each file is enough to look for such specifiers. -/
theorem noBareExtensions_of_entries {fs : Files} (htree : fs.IsTree)
    (h : ∀ e ∈ fs.entries, ∃ q, fs.locate q = some e.1 ∧
      ∀ program, Session.readProgram fs q = .ok program →
        ∀ specifier ∈ (Module.ofProgram 0 q program).specifiers,
          specifier ≠ ".js" ∧ specifier ≠ ".mjs") : NoBareExtensions fs := by
  intro p l program hl _ hread specifier hspecifier
  obtain ⟨text, hentry⟩ := Session.file_of_readProgram hread hl
  have hroot : l ≠ [] := by
    rintro rfl
    simp [Files.entry?] at hentry
  rw [Files.entry?, if_neg hroot] at hentry
  obtain ⟨before, after, hentries, -⟩ := List.lookup_eq_some_iff.mp hentry
  obtain ⟨q, hq, hmentioned⟩ := h (l, .file text) (by simp [hentries])
  have hread' := Session.readProgram_of_locate htree (hq.trans hl.symm) hread
  rw [Module.specifiers_ofProgram program 0 p 0 q] at hspecifier
  exact hmentioned program hread' specifier hspecifier

namespace Correspondence

open Session

variable {fs : Files} {s s' s₁ : Session} {p q : Path} {l : Location} {m n : ModuleId}

/-- Whether two modules are known by the same key, and the first mentions a specifier, if one is
given. -/
structure SameFile (w : World) (m n : ModuleId) (specifier : Option String) : Prop where
  key : ∃ key, (key, m) ∈ w.1.locations ∧ (key, n) ∈ w.2.locations
  mentioned : ∀ sp, specifier = some sp → ∃ x, w.1.modules[m]? = some x ∧ sp ∈ x.specifiers

/-- Two faithful sessions under the same import aliases. -/
structure Alike (fs : Files) (w : World) : Prop where
  left : w.1.Faithful fs
  right : w.2.Faithful fs
  aliases : w.2.aliases = w.1.aliases

theorem SameFile.of_extends {w w₁ : World} {o : Option String} (h : SameFile w m n o)
    (hw : w₁.Extends w) : SameFile w₁ m n o := by
  obtain ⟨key, hm, hn⟩ := h.key
  refine ⟨⟨key, hw.left.locations.subset hm, hw.right.locations.subset hn⟩, fun sp hsp => ?_⟩
  obtain ⟨x, hx, hmem⟩ := h.mentioned sp hsp
  exact ⟨x, hw.left.module? hx, hmem⟩

/-- Adding one file under two paths to two sessions comes to the same module in both. -/
theorem Alike.addFile {w : World} (h : Alike fs w) (htree : fs.IsTree)
    (hpq : fs.locate q = fs.locate p) (hp : fs.Unmistakable p) (hq : fs.Unmistakable q)
    {r : Except Error ModuleId} (hadd : (addFile p).on fs w.1 = some (r, s₁)) :
    ∃ r' s₁', (addFile q).on fs w.2 = some (r', s₁') ∧ Alike fs (s₁, s₁') ∧
      Option.Rel (fun m n => SameFile (s₁, s₁') m n none) r.toOption r'.toOption := by
  cases hprogram : readProgram fs p with
  | error e =>
    rw [h.left.addFile_of_error htree hp hprogram, Option.some.injEq, Prod.mk.injEq] at hadd
    obtain ⟨rfl, rfl⟩ := hadd
    cases hprogram' : readProgram fs q with
    | error e' =>
      exact ⟨_, _, h.right.addFile_of_error htree hq hprogram', ⟨h.left, h.right, h.aliases⟩, .none⟩
    | ok program =>
      have hok := readProgram_of_locate htree hpq.symm hprogram'
      exact absurd (hprogram.symm.trans hok) (by simp)
  | ok program =>
    obtain ⟨l, text, hl, -⟩ := exists_file_of_readProgram hprogram
    have hprogram' := readProgram_of_locate htree hpq hprogram
    obtain ⟨id, s₂, hadd₂, hs₂, hid⟩ := h.left.addFile_of_ok hl hprogram
    obtain ⟨id', s₂', hadd', hs₂', hid'⟩ := h.right.addFile_of_ok (hpq.trans hl) hprogram'
    rw [hadd₂, Option.some.injEq, Prod.mk.injEq] at hadd
    obtain ⟨rfl, rfl⟩ := hadd
    have haliases : s₂'.aliases = s₂.aliases :=
      ((grows_addFile q fs _ _ _ hadd').aliases.trans h.aliases).trans
        (grows_addFile p fs _ _ _ hadd₂).aliases.symm
    exact ⟨_, _, hadd', ⟨hs₂, hs₂', haliases⟩, .some ⟨⟨_, hid, hid'⟩, nofun⟩⟩

theorem SameFile.eq_iff {w : World} {o o' : Option String} {m' n' : ModuleId} (hw : Alike fs w)
    (h : SameFile w m n o) (h' : SameFile w m' n' o') : m = m' ↔ n = n' := by
  obtain ⟨key, hm, hn⟩ := h.key
  obtain ⟨key', hm', hn'⟩ := h'.key
  rw [← hw.left.numbered.key_eq_iff hm hm', ← hw.right.numbered.key_eq_iff hn hn']

/-- Modules of the same file are what one file says. -/
theorem SameFile.holds {w : World} {o : Option String} (hw : Alike fs w) (h : SameFile w m n o) :
    ∃ l, w.1.Holds fs l m ∧ w.2.Holds fs l n := by
  obtain ⟨key, hm, hn⟩ := h.key
  obtain ⟨l, hkey, hl⟩ := hw.left.files _ hm
  obtain ⟨l', hkey', hl'⟩ := hw.right.files _ hn
  obtain rfl := (List.cons.inj (hkey.symm.trans hkey')).2
  exact ⟨l, hl, hl'⟩

theorem corresponds_of_holds (htree : fs.IsTree) (hm : s.Holds fs l m) (hn : s'.Holds fs l n) :
    ∃ x y, s.modules[m]? = some x ∧ s'.modules[n]? = some y ∧
      x.Corresponds (fun a b _ => a = m ∧ b = n) y := by
  obtain ⟨p, program, hp, hread, hx⟩ := hm
  obtain ⟨q, program', hq, hread', hy⟩ := hn
  have hsame := readProgram_of_locate htree (hp.trans hq.symm) hread'
  obtain rfl := Except.ok.inj (hread.symm.trans hsame)
  exact ⟨_, _, hx, hy, Module.corresponds_ofProgram (fun _ => ⟨rfl, rfl⟩) p q program⟩

/-- A specifier means the same file in both modules of a file. -/
theorem map_locate_specifierFile? (htree : fs.IsTree) (hbare : NoBareExtensions fs)
    (haliases : s'.aliases = s.aliases) (hm : s.Holds fs l m) (hn : s'.Holds fs l n)
    {x : Module} {specifier : String} (hx : s.modules[m]? = some x)
    (hspecifier : specifier ∈ x.specifiers) :
    (specifierFile? fs s' n specifier).map fs.locate =
      (specifierFile? fs s m specifier).map fs.locate := by
  obtain ⟨p, program, hp, hread, hx'⟩ := hm
  obtain ⟨q, program', hq, -, hy⟩ := hn
  obtain rfl := Option.some.inj (hx.symm.trans hx')
  have hfile : fs.isDirectoryAt l = false := by
    obtain ⟨text, hentry⟩ := file_of_readProgram hread hp
    simp [Files.isDirectoryAt, hentry]
  rw [specifierFile?, specifierFile?, hx, hy, haliases, Option.bind_eq_bind, Option.bind_some,
    Option.bind_some, Module.path_ofProgram, Module.path_ofProgram]
  refine map_locate_find?_isFile (map_locate_specifierFiles htree hp hq hfile ?_ s.aliases)
  rw [Module.specifiers_ofProgram program m p 0 p] at hspecifier
  exact fun hl => hbare p l program hp hl hread specifier hspecifier

/-- **Faithful sessions correspond by the files of their modules.** -/
def byFile (htree : fs.IsTree) (hbare : NoBareExtensions fs) : Correspondence fs where
  sessions := Alike fs
  ids := SameFile
  ids_of_extends hw h := h.of_extends hw
  ids_unique hw h h' := h.eq_iff hw h'
  modules := by
    intro w m n o hw h
    obtain ⟨l, hm, hn⟩ := h.holds hw
    obtain ⟨x, y, hx, hy, hxy⟩ := corresponds_of_holds htree hm hn
    have hmentioned : ∀ specifier ∈ x.specifiers, SameFile w m n (some specifier) :=
      fun specifier hmem => ⟨h.key, fun sp hsp => ⟨x, hx, Option.some.inj hsp ▸ hmem⟩⟩
    refine ⟨x, y, hx, hy, hxy.of_impliedAt ⟨?_, ?_⟩, hmentioned⟩
    · rintro a b ⟨rfl, rfl⟩
      exact ⟨h.key, nofun⟩
    · rintro specifier hmem a b ⟨rfl, rfl⟩
      exact hmentioned specifier hmem
  load := by
    intro w m n specifier r s hw h hload
    obtain ⟨l, hm, hn⟩ := h.holds hw
    obtain ⟨x, hx, hmem⟩ := h.mentioned specifier rfl
    have hfile := map_locate_specifierFile? htree hbare hw.aliases hm hn hx hmem
    rcases loadSpecifier_cases hload with ⟨hnone, rfl, rfl⟩ | ⟨p, hp, hadd⟩
    · rw [hnone, Option.map_none, Option.map_eq_none_iff] at hfile
      exact ⟨none, w.2, loadSpecifier_of_no_file hfile, hw, .none⟩
    · rw [hp, Option.map_some, Option.map_eq_some_iff] at hfile
      obtain ⟨q, hq, hpq⟩ := hfile
      have hr : ∃ added, (Session.addFile p).on fs w.1 = some (added, s) ∧ r = added.toOption := by
        rcases hadd with ⟨e, hadd, rfl⟩ | ⟨id, hadd, rfl⟩
        · exact ⟨_, hadd, rfl⟩
        · exact ⟨_, hadd, rfl⟩
      obtain ⟨added, hadded, rfl⟩ := hr
      obtain ⟨added', s', hadd', halike, hrr⟩ := hw.addFile htree hpq
        (unmistakable_of_specifierFile? hp) (unmistakable_of_specifierFile? hq) hadded
      exact ⟨added'.toOption, s', loadSpecifier_of_addFile hq hadd', halike, hrr⟩
  enter := by
    rintro s s' m n o name ⟨hleft, hright, haliases⟩ -
    exact ⟨(faithful fs).enter _ hleft, (faithful fs).enter _ hright, haliases⟩
  leave := by
    rintro s s' ⟨hleft, hright, haliases⟩
    exact ⟨(faithful fs).leave hleft, (faithful fs).leave hright, haliases⟩

/-- A file that imports from nothing but an extension, and what is meant, beside it. -/
def bareExtensionFiles : Files := ⟨["src"], [(["src"], .directory),
  (["src", "app.ts"], .file "import type { Item } from '.js'\n"),
  (["src", "index.ts"], .file "export type Item = string\n")]⟩

/-- Without bare extensions ruled out it would matter how the file that imports is spelled. -/
example :
    (((do let _ ← addFile ⟨"app.ts"⟩; loadSpecifier 0 ".js") : Analysis (Option ModuleId)).on
      bareExtensionFiles (.start .empty)).map Prod.fst = some none ∧
    (((do let _ ← addFile ⟨"./app.ts"⟩; loadSpecifier 0 ".js") : Analysis (Option ModuleId)).on
      bareExtensionFiles (.start .empty)).map Prod.fst = some (some 1) := by decide +kernel

theorem adds_byFile (htree : fs.IsTree) (hbare : NoBareExtensions fs) (hp : fs.Unmistakable p) :
    (byFile htree hbare).Adds p :=
  adds_of_addFile fun hw hadd => Alike.addFile hw htree rfl hp hp hadd

end Correspondence

end Routebook
