import Routebook.Disk.Files

/-!
# What changes to files keep

Making directories keeps everything that is there, and writing a file keeps everything but the file
itself. **No change takes a directory away,** so a path that leads somewhere goes on leading there
(`locate_of_follows`), and a file that was written is read back (`read?_of_write?`).
-/

namespace Routebook.Disk.Files

variable {fs fs' : Files} {p q : Path} {l l' : Location} {e : Entry} {text : String}

/-! ## Putting an entry -/

theorem lookup_entry (k : Location) (entries : List (Location × Entry)) :
    List.lookup l ((k, e) :: entries) = if l = k then some e else entries.lookup l := by
  by_cases h : l = k
  · simp [h]
  · have hbeq : (l == k) = false := beq_eq_false_iff_ne.mpr h
    rw [List.lookup_cons, hbeq, if_neg h]

theorem lookup_replace (entries : List (Location × Entry)) :
    (entries.map fun x => if x.1 = l then (l, e) else x).lookup l' =
      if l' = l then (entries.lookup l).map fun _ => e else entries.lookup l' := by
  induction entries with
  | nil => simp
  | cons x entries ih =>
    obtain ⟨k, v⟩ := x
    rw [List.map_cons]
    by_cases hk : k = l
    · rw [if_pos hk, lookup_entry, ih, hk, lookup_entry, lookup_entry]
      by_cases hl : l' = l
      · rw [if_pos hl, if_pos hl, if_pos rfl, Option.map_some]
      · rw [if_neg hl, if_neg hl, if_neg hl, if_neg hl]
    · rw [if_neg hk, lookup_entry, ih, lookup_entry, lookup_entry, if_neg (Ne.symm hk)]
      by_cases hl : l' = l
      · rw [if_pos hl, if_pos hl, if_neg fun h => hk (h.symm.trans hl)]
      · rw [if_neg hl, if_neg hl]

theorem lookup_isSome_iff (entries : List (Location × Entry)) :
    (entries.lookup l).isSome = entries.any (·.1 = l) := by
  induction entries with
  | nil => rfl
  | cons x entries ih =>
    obtain ⟨k, v⟩ := x
    rw [lookup_entry, List.any_cons, ← ih]
    by_cases h : l = k
    · simp [h]
    · simp [h, Ne.symm h]

/-- What is at a location after an entry has been put somewhere else than at the root. -/
theorem entry_put (hl : l ≠ []) :
    Files.entry? (fs.put l e) l' = if l' = l then some e else fs.entry? l' := by
  have hlookup : (fs.put l e).entries.lookup l' =
      if l' = l then some e else fs.entries.lookup l' := by
    rw [put]
    have hany := lookup_isSome_iff (l := l) fs.entries
    -- An entry takes the place of the one that is there, or goes to the end.
    split
    · next h =>
      rw [h] at hany
      obtain ⟨old, hold⟩ := Option.isSome_iff_exists.mp hany
      simp only [lookup_replace, hold, Option.map_some]
    · next h =>
      rw [Bool.not_eq_true] at h
      rw [h, Option.isSome_eq_false_iff, Option.isNone_iff_eq_none] at hany
      rw [List.lookup_append, lookup_entry, List.lookup_nil]
      by_cases hl : l' = l
      · rw [hl, hany, if_pos rfl, Option.none_or]
      · rw [if_neg hl, if_neg hl, Option.or_none]
  rw [ entry?, entry?, hlookup]
  by_cases h : l' = []
  · rw [if_pos h, if_pos h, if_neg fun h' => hl (h'.symm.trans h)]
  · rw [if_neg h, if_neg h]

theorem workingDirectory_put : (fs.put l e).workingDirectory = fs.workingDirectory := by
  rw [put]
  split <;> rfl

/-! ## Extending -/

/-- Files among which paths lead wherever they lead among others. -/
structure Follows (fs' fs : Files) : Prop where
  workingDirectory : fs'.workingDirectory = fs.workingDirectory
  directories : ∀ l, fs.isDirectoryAt l = true → fs'.isDirectoryAt l = true

theorem Follows.trans {fs'' : Files} (h' : fs''.Follows fs') (h : fs'.Follows fs) :
    fs''.Follows fs :=
  ⟨h'.workingDirectory.trans h.workingDirectory,
    fun l hl => h'.directories l (h.directories l hl)⟩

theorem walk_of_follows (h : fs'.Follows fs) {ns : List String} (hl : fs.walk l ns = some l') :
    fs'.walk l ns = some l' := by
  induction ns generalizing l with
  | nil => exact hl
  | cons n ns ih =>
    rw [walk] at hl ⊢
    -- A path goes on only from a directory, and that is one still.
    by_cases hdir : fs.isDirectoryAt l = true
    · rw [h.directories l hdir]
      rw [hdir] at hl
      revert hl
      simp only [Bool.not_true, Bool.false_eq_true, if_false]
      split
      · exact ih
      split
      · exact ih
      split
      · exact ih
      · exact id
    · simp [hdir] at hl

theorem locate_of_follows (h : fs'.Follows fs) (hl : fs.locate p = some l) :
    fs'.locate p = some l := by
  rw [locate] at hl ⊢
  split at hl
  · exact absurd hl (by simp)
  · next hempty =>
    rw [if_neg hempty, h.workingDirectory]
    exact walk_of_follows h hl

/-- Files that have everything that others have. -/
structure Extends (fs' fs : Files) : Prop where
  workingDirectory : fs'.workingDirectory = fs.workingDirectory
  entries : ∀ l e, fs.entry? l = some e → fs'.entry? l = some e

theorem Extends.refl (fs : Files) : fs.Extends fs := ⟨rfl, fun _ _ h => h⟩

theorem Extends.follows (h : fs'.Extends fs) : fs'.Follows fs := by
  refine ⟨h.workingDirectory, fun l hl => ?_⟩
  have hentry : fs.entry? l = some .directory := by simpa [isDirectoryAt] using hl
  simpa [isDirectoryAt] using h.entries l _ hentry

theorem Extends.trans {fs'' : Files} (h' : fs''.Extends fs') (h : fs'.Extends fs) :
    fs''.Extends fs :=
  ⟨h'.workingDirectory.trans h.workingDirectory, fun l e he => h'.entries l e (h.entries l e he)⟩

theorem read?_eq_some : fs.read? p = some text ↔
    ∃ l, fs.locate p = some l ∧ fs.entry? l = some (.file text) := by
  rw [read?, lookup]
  cases fs.locate p with
  | none => simp
  | some l =>
    rw [Option.bind_some]
    constructor
    · intro h
      split at h
      · next t hentry =>
        obtain rfl := Option.some.inj h
        exact ⟨l, rfl, hentry⟩
      · exact absurd h (by simp)
    · rintro ⟨l, hl, hentry⟩
      obtain rfl := Option.some.inj hl
      rw [hentry]

theorem read?_of_no_entries (directory : Location) (p : Path) :
    (⟨directory, []⟩ : Files).read? p = none := by
  rw [Option.eq_none_iff_forall_ne_some]
  intro text h
  obtain ⟨l, -, hentry⟩ := read?_eq_some.mp h
  by_cases hl : l = []
  · rw [ entry?, if_pos hl] at hentry
    exact absurd hentry (by simp)
  · rw [ entry?, if_neg hl] at hentry
    exact absurd hentry (by simp)

theorem exists?_of_read? (h : fs.read? p = some text) : fs.exists? p = true := by
  rw [exists?]
  rw [read?] at h
  split at h
  · next hlookup => rw [hlookup]; rfl
  · exact absurd h (by simp)

theorem Extends.read? (h : fs'.Extends fs) (hp : fs.read? p = some text) :
    fs'.read? p = some text := by
  obtain ⟨l, hl, hentry⟩ := read?_eq_some.mp hp
  exact read?_eq_some.mpr ⟨l, locate_of_follows h.follows hl, h.entries l _ hentry⟩

/-! ## Making directories -/

theorem extends_put (hl : fs.entry? l = none) : (fs.put l e).Extends fs := by
  have hroot : l ≠ [] := by
    rintro rfl
    exact absurd hl (by simp [ entry?])
  refine ⟨workingDirectory_put, fun k d hk => ?_⟩
  rw [entry_put hroot, if_neg, hk]
  rintro rfl
  exact absurd (hl.symm.trans hk) (by simp)

theorem extends_of_makeFrom {ns : List String} (h : fs.makeFrom l ns = some fs') :
    fs'.Extends fs := by
  fun_induction makeFrom fs l ns with
  | case1 fs l hdir =>
    obtain rfl := Option.some.inj h
    exact .refl _
  | case4 fs l n ns hdir hdot ih => exact ih h
  | case5 fs l n ns hdir hdot hdots ih => exact ih h
  | case7 fs l n ns hdir hdot hdots hlegal hentry ih => exact ih h
  | case9 fs l n ns hdir hdot hdots hlegal hentry ih => exact (ih h).trans (extends_put hentry)
  | _ => exact absurd h (by simp)

theorem extends_of_makeDirectories? (h : fs.makeDirectories? p = some fs') : fs'.Extends fs := by
  rw [makeDirectories?] at h
  split at h
  · obtain rfl := Option.some.inj h
    exact .refl _
  · exact extends_of_makeFrom h

/-! ## Writing files -/

theorem write?_eq_some : fs.write? p text = some fs' ↔
    ∃ l, fs.locate p = some l ∧ fs.isDirectoryAt l = false ∧ fs' = fs.put l (.file text) := by
  rw [write?]
  cases fs.locate p with
  | none => simp
  | some l =>
    simp only [Option.bind_eq_bind, Option.bind_some, Option.some.injEq, exists_eq_left']
    cases fs.isDirectoryAt l with
    | true => simp
    | false => simp [eq_comm]

/-- The root is a directory. -/
theorem ne_nil_of_not_directory (hl : fs.isDirectoryAt l = false) : l ≠ [] := by
  rintro rfl
  exact absurd hl (by simp [isDirectoryAt, entry?])

/-- Writing a file takes no directory away, because none is in its place. -/
theorem follows_of_write? (h : fs.write? p text = some fs') : fs'.Follows fs := by
  obtain ⟨l, -, hl, rfl⟩ := write?_eq_some.mp h
  refine ⟨workingDirectory_put, fun k hk => ?_⟩
  have hne : k ≠ l := by
    rintro rfl
    exact absurd (hl.symm.trans hk) (by simp)
  have hroot := ne_nil_of_not_directory hl
  rw [isDirectoryAt, entry_put hroot, if_neg hne]
  exact hk

/-- Files that have everything that others have, but for what a path leads to. -/
structure ExtendsBut (fs' : Files) (p : Path) (fs : Files) : Prop where
  follows : fs'.Follows fs
  entries : ∀ l e, fs'.locate p ≠ some l → fs.entry? l = some e → fs'.entry? l = some e

theorem Extends.extendsBut (h : fs'.Extends fs) (p : Path) : fs'.ExtendsBut p fs :=
  ⟨h.follows, fun l e _ he => h.entries l e he⟩

theorem ExtendsBut.of_extends {fs'' : Files} (h' : fs''.ExtendsBut p fs') (h : fs'.Extends fs) :
    fs''.ExtendsBut p fs :=
  ⟨h'.follows.trans h.follows, fun l e hl he => h'.entries l e hl (h.entries l e he)⟩

/-- Writing a file changes nothing but the file. -/
theorem extendsBut_of_write? (h : fs.write? p text = some fs') : fs'.ExtendsBut p fs := by
  have hfollows := follows_of_write? h
  refine ⟨hfollows, fun k e hk he => ?_⟩
  obtain ⟨l, hp, hl, rfl⟩ := write?_eq_some.mp h
  have hne : k ≠ l := by
    rintro rfl
    exact hk (locate_of_follows hfollows hp)
  rw [entry_put (ne_nil_of_not_directory hl), if_neg hne, he]

/-- **A file that was written is read back.** -/
theorem read?_of_write? (h : fs.write? p text = some fs') : fs'.read? p = some text := by
  have hfollows := follows_of_write? h
  obtain ⟨l, hp, hl, rfl⟩ := write?_eq_some.mp h
  have hroot := ne_nil_of_not_directory hl
  refine read?_eq_some.mpr ⟨l, locate_of_follows hfollows hp, ?_⟩
  rw [entry_put hroot, if_pos rfl]

/-- What is read from any file after a write is what was read before or what was written. -/
theorem read?_or_of_write? {old : String} (h : fs.write? p text = some fs')
    (hq : fs.read? q = some old) : fs'.read? q = some old ∨ fs'.read? q = some text := by
  have hfollows := follows_of_write? h
  obtain ⟨k, hk, hentry⟩ := read?_eq_some.mp hq
  obtain ⟨l, hp, hl, rfl⟩ := write?_eq_some.mp h
  have hroot := ne_nil_of_not_directory hl
  have hk' := locate_of_follows hfollows hk
  by_cases hkl : k = l
  · refine Or.inr (read?_eq_some.mpr ⟨k, hk', ?_⟩)
    rw [entry_put hroot, if_pos hkl]
  · refine Or.inl (read?_eq_some.mpr ⟨k, hk', ?_⟩)
    rw [entry_put hroot, if_neg hkl, hentry]

/-! ## Writing files into directories that may be missing -/

theorem include?_eq_some (h : fs.include? p text = some fs') :
    ∃ dirs : Files, dirs.Extends fs ∧ dirs.write? p text = some fs' := by
  obtain ⟨dirs, hdirs, hwrite⟩ := Option.bind_eq_some_iff.mp h
  exact ⟨dirs, extends_of_makeDirectories? hdirs, hwrite⟩

theorem read?_of_include? (h : fs.include? p text = some fs') : fs'.read? p = some text := by
  obtain ⟨dirs, -, hwrite⟩ := include?_eq_some h
  exact read?_of_write? hwrite

theorem read?_or_of_include? {old : String} (h : fs.include? p text = some fs')
    (hq : fs.read? q = some old) : fs'.read? q = some old ∨ fs'.read? q = some text := by
  obtain ⟨dirs, hextends, hwrite⟩ := include?_eq_some h
  exact read?_or_of_write? hwrite (hextends.read? hq)

end Routebook.Disk.Files
