import Routebook.Proofs.Disk.Spelling

/-!
# Where paths lead

Without links, where a path leads is read off the path: names go down, and `..` goes up
(`destination`). Whether the path can be followed depends on the files, **but where it leads does
not** (`destination_of_locate`). So a name that holds no slash and is not made of dots alone leads
from any path to what has this name in the path's directory (`destination_join`). And of a change it
is known beforehand which file it can affect: making directories keeps every file, and writing a
file every other file (`kept_of_write?`).
-/

namespace Routebook.Disk

/-- A name that is joined to a path stands at its end, behind the same text for all names. This text
begins as the path does and has the same names in it. -/
theorem Path.exists_endsIn_join (base : Path) : ∃ front,
    front.head? = base.text.toList.head? ∧ namesIn front = namesIn base.text.toList ∧
      ∀ name : String, '/' ∉ name.toList →
        EndsIn (base.join name).text.toList front name.toList := by
  by_cases hempty : base.text = ""
  · refine ⟨[], by simp [hempty], by simp [hempty], fun name hname => ⟨?_, .inl rfl, hname⟩⟩
    simp [Path.join, hempty]
  by_cases hslash : base.text.toList.getLast? = some '/'
  · obtain ⟨as, has⟩ := List.getLast?_eq_some_iff.mp hslash
    refine ⟨base.text.toList, rfl, rfl, fun name hname => ⟨?_, .inr ⟨as, has⟩, hname⟩⟩
    have hhead : name.toList.head? ≠ some '/' := fun h => hname (List.mem_of_head? h)
    simp [Path.join, hempty, hslash, hhead]
  · have htext : base.text.toList ≠ [] := by simpa using hempty
    refine ⟨base.text.toList ++ ['/'], List.head?_append_of_ne_nil _ htext, namesIn_concat _,
      fun name hname => ⟨?_, .inr ⟨_, rfl⟩, hname⟩⟩
    have hhead : name.toList.head? ≠ some '/' := fun h => hname (List.mem_of_head? h)
    simp [Path.join, hempty, hslash, hhead]

namespace Files

variable {fs fs' fs'' : Files} {p : Path} {l k : Location} {text : String}

/-! ## Destinations -/

/-- Where names lead from a location, if they can be followed. -/
def follow (l : Location) : List String → Location
  | [] => l
  | n :: ns => follow (if n = "." then l else if n = ".." then l.dropLast else l ++ [n]) ns

/-- Where a path leads, if it can be followed. -/
def destination (fs : Files) (p : Path) : Location :=
  follow (if p.isAbsolute then [] else fs.workingDirectory) (steps p)

/-- Where a path leads depends on nothing of the files but where paths begin. -/
theorem destination_congr (h : fs'.workingDirectory = fs.workingDirectory) (p : Path) :
    fs'.destination p = fs.destination p := by
  rw [destination, destination, h]

theorem follow_of_walk {ns : List String} (h : fs.walk l ns = some k) : follow l ns = k := by
  fun_induction walk fs l ns with
  | case1 l => exact Option.some.inj h
  | case3 l n ns hdir hdot ih => simpa [follow, eq_of_beq hdot] using ih h
  | case4 l n ns hdir hdot hdots ih => simpa [follow, eq_of_beq hdots] using ih h
  | case5 l n ns hdir hdot hdots hlegal ih =>
    rw [follow, if_neg (by simpa using hdot), if_neg (by simpa using hdots)]
    exact ih h
  | _ => exact absurd h (by simp)

/-- **A path that can be followed leads to its destination.** -/
theorem destination_of_locate (h : fs.locate p = some l) : fs.destination p = l := by
  rw [locate] at h
  split at h
  · exact absurd h (by simp)
  · exact follow_of_walk h

theorem follow_append (l : Location) (ms ns : List String) :
    follow l (ms ++ ns) = follow (follow l ms) ns := by
  induction ms generalizing l with
  | nil => rfl
  | cons m ms ih => rw [List.cons_append, follow, follow, ih]

/-- A path leads where the names between its slashes lead. -/
theorem destination_eq_follow (fs : Files) (p : Path) :
    fs.destination p = follow (fs.origin p.text.toList) (namesIn p.text.toList) := by
  have horigin : (if p.isAbsolute then [] else fs.workingDirectory) = fs.origin p.text.toList := by
    simp [origin, Path.isAbsolute]
  rw [destination, horigin, steps, ← namesIn]
  split
  · rw [follow_append]
    rfl
  · rfl

/-- **A name that is joined to a path leads into the path's directory.** -/
theorem destination_join (fs : Files) (base : Path) {name : String} (hslash : '/' ∉ name.toList)
    (hname : 2 < name.toList.length) :
    fs.destination (base.join name) = fs.destination base ++ [name] := by
  have hne : name.toList ≠ [] := fun h => by simp [h] at hname
  have hdot : name ≠ "." := fun h => by simp [h] at hname
  have hdots : name ≠ ".." := fun h => by simp [h] at hname
  obtain ⟨front, hhead, hnames, hends⟩ := base.exists_endsIn_join
  have horigin : fs.origin front = fs.origin base.text.toList := by rw [origin, origin, hhead]
  rw [destination_eq_follow, destination_eq_follow, origin_of_endsIn (hends name hslash),
    (hends name hslash).namesIn_eq, namesIn_of_not_mem hslash hne, String.ofList_toList, horigin,
    hnames, follow_append, follow, if_neg hdot, if_neg hdots, follow]

/-! ## What is kept -/

/-- What is at a location is what was there, or a directory that was made where nothing was. -/
def Kept (fs' fs : Files) (l : Location) : Prop :=
  fs'.entry? l = fs.entry? l ∨ fs.entry? l = none ∧ fs'.entry? l = some .directory

theorem Kept.refl (fs : Files) (l : Location) : fs.Kept fs l := .inl rfl

theorem Kept.trans (h' : fs''.Kept fs' l) (h : fs'.Kept fs l) : fs''.Kept fs l := by
  rcases h, h' with ⟨h | ⟨hnone, hdir⟩, h' | ⟨hnone', hdir'⟩⟩
  · exact .inl (h'.trans h)
  · exact .inr ⟨h.symm.trans hnone', hdir'⟩
  · exact .inr ⟨hnone, h'.trans hdir⟩
  · exact .inr ⟨hnone, hdir'⟩

/-- A directory is put only where nothing is. -/
theorem kept_put_directory (hk : fs.entry? k = none) (l : Location) :
    (fs.put k .directory).Kept fs l := by
  have hroot : k ≠ [] := by
    rintro rfl
    exact absurd hk (by simp [ entry?])
  by_cases hl : l = k
  · exact .inr ⟨hl ▸ hk, by rw [entry_put hroot, if_pos hl]⟩
  · exact .inl (by rw [entry_put hroot, if_neg hl])

theorem kept_of_makeFrom {ns : List String} (h : fs.makeFrom k ns = some fs') (l : Location) :
    fs'.Kept fs l := by
  fun_induction makeFrom fs k ns with
  | case1 fs k hdir =>
    obtain rfl := Option.some.inj h
    exact .refl _ l
  | case4 fs k n ns hdir hdot ih => exact ih h
  | case5 fs k n ns hdir hdot hdots ih => exact ih h
  | case7 fs k n ns hdir hdot hdots hlegal hentry ih => exact ih h
  | case9 fs k n ns hdir hdot hdots hlegal hentry ih =>
    exact (ih h).trans (kept_put_directory hentry l)
  | _ => exact absurd h (by simp)

/-- Making directories keeps every place. -/
theorem kept_of_makeDirectories? (h : fs.makeDirectories? p = some fs') (l : Location) :
    fs'.Kept fs l := by
  rw [makeDirectories?] at h
  split at h
  · obtain rfl := Option.some.inj h
    exact .refl _ l
  · exact kept_of_makeFrom h l

/-- **Writing a file keeps every place but its destination.** -/
theorem kept_of_write? (h : fs.write? p text = some fs')
    (hl : fs.destination p ≠ l) : fs'.Kept fs l := by
  obtain ⟨k, hk, hfile, rfl⟩ := write?_eq_some.mp h
  rw [destination_of_locate hk] at hl
  exact .inl (by rw [entry_put (ne_nil_of_not_directory hfile), if_neg hl.symm])

end Files

end Routebook.Disk
