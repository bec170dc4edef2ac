import Mathlib.Data.List.Basic
import Routebook.Proofs.Disk.Files
import Routebook.Session.Basic

/-!
# Spellings of a path

A file can be reached under many paths: with dots, with doubled slashes, from the working directory
or from the root. In a tree, where everything is in a directory, **a path that leads to a file ends
in the file's name, and what stands before the name leads to the file's directory**
(`Files.exists_spells`). So the name of a file is the same under all its paths
(`Files.Spells.fileName?`), and a path that is joined to its parent leads on from its directory
(`Files.Spells.join`). There is one exception: a file that is named without any directory has a
parent without text, and what is put behind that is taken from the root if it begins with a slash.
-/

namespace Routebook.Disk

open Text (cutAt)

/-! ## Cutting a text at slashes -/

section Cutting

variable {m : Char} {as bs cs : List Char}

theorem cutAt_ne_nil (m : Char) (cs : List Char) : cutAt m cs ≠ [] := by
  cases cs with
  | nil => simp [cutAt]
  | cons c cs =>
    rw [cutAt]
    split
    · exact List.cons_ne_nil _ _
    · split <;> exact List.cons_ne_nil _ _

theorem cutAt_append (m : Char) (as bs : List Char) :
    cutAt m (as ++ m :: bs) = cutAt m as ++ cutAt m bs := by
  induction as with
  | nil => simp [cutAt]
  | cons a as ih =>
    rw [List.cons_append, cutAt, cutAt, ih]
    by_cases ha : a = m
    · rw [if_pos ha, if_pos ha, List.cons_append]
    · rw [if_neg ha, if_neg ha]
      obtain ⟨first, rest, hcut⟩ := List.exists_cons_of_ne_nil (cutAt_ne_nil m as)
      rw [hcut]
      rfl

theorem cutAt_of_not_mem (h : m ∉ cs) : cutAt m cs = [cs] := by
  induction cs with
  | nil => rfl
  | cons c cs ih =>
    have hc : c ≠ m := fun he => h (he ▸ List.mem_cons_self)
    rw [cutAt, if_neg hc, ih fun hcs => h (List.mem_cons_of_mem _ hcs)]

end Cutting

/-- The names between the slashes of a text. -/
def namesIn (cs : List Char) : List String :=
  ((cutAt '/' cs).map String.ofList).filter (· != "")

/-- A text that a name without slashes stands at the end of. -/
structure EndsIn (cs front name : List Char) : Prop where
  append : cs = front ++ name
  slash : front = [] ∨ ∃ as, front = as ++ ['/']
  name : '/' ∉ name

theorem exists_endsIn (cs : List Char) : ∃ front name, EndsIn cs front name := by
  induction cs with
  | nil => exact ⟨[], [], rfl, Or.inl rfl, List.not_mem_nil⟩
  | cons c cs ih =>
    obtain ⟨front, name, rfl, hslash, hname⟩ := ih
    by_cases hc : front = []
    · -- The name goes on to the left, unless a slash stands there.
      subst hc
      by_cases hcslash : c = '/'
      · exact ⟨[c], name, rfl, Or.inr ⟨[], by rw [hcslash]; rfl⟩, hname⟩
      · refine ⟨[], c :: name, rfl, Or.inl rfl, ?_⟩
        rw [List.mem_cons, not_or]
        exact ⟨fun he => hcslash he.symm, hname⟩
    · obtain ⟨as, rfl⟩ := hslash.resolve_left hc
      exact ⟨c :: as ++ ['/'], name, by simp, Or.inr ⟨c :: as, rfl⟩, hname⟩

section Names

variable {as bs cs front name : List Char}

theorem namesIn_append (as bs : List Char) :
    namesIn (as ++ '/' :: bs) = namesIn as ++ namesIn bs := by
  rw [namesIn, cutAt_append, List.map_append, List.filter_append]
  rfl

theorem namesIn_nil : namesIn [] = [] := rfl

theorem namesIn_concat (as : List Char) : namesIn (as ++ ['/']) = namesIn as := by
  rw [namesIn_append, namesIn_nil, List.append_nil]

theorem namesIn_of_not_mem (h : '/' ∉ name) (hname : name ≠ []) :
    namesIn name = [String.ofList name] := by
  have hne : String.ofList name ≠ "" := fun he => hname (by simpa using congrArg String.toList he)
  simp [namesIn, cutAt_of_not_mem h, hne]

theorem EndsIn.namesIn_eq (h : EndsIn cs front name) :
    namesIn cs = namesIn front ++ namesIn name := by
  rw [h.append]
  rcases h.slash with rfl | ⟨as, rfl⟩
  · simp [namesIn_nil]
  · rw [List.append_assoc, List.singleton_append, namesIn_append, namesIn_concat]

theorem EndsIn.ne_slash (h : EndsIn cs front name) : ∀ c ∈ name.reverse, (c != '/') = true := by
  intro c hc
  rw [bne_iff_ne]
  rintro rfl
  exact h.name (List.mem_reverse.mp hc)

/-- Read from its end, a text has the characters of the name before its last slash. -/
theorem EndsIn.takeWhile_reverse (h : EndsIn cs front name) :
    (name.reverse ++ front.reverse).takeWhile (· != '/') = name.reverse := by
  rw [List.takeWhile_append_of_pos h.ne_slash]
  rcases h.slash with rfl | ⟨as, rfl⟩ <;> simp

theorem EndsIn.dropWhile_reverse (h : EndsIn cs front name) :
    (name.reverse ++ front.reverse).dropWhile (· != '/') = front.reverse := by
  rw [List.dropWhile_append_of_pos h.ne_slash]
  rcases h.slash with rfl | ⟨as, rfl⟩ <;> simp

/-- The last part of a text is the name at its end. -/
theorem EndsIn.getLast?_cutAt (h : EndsIn cs front name) : (cutAt '/' cs).getLast? = some name := by
  rw [h.append]
  rcases h.slash with rfl | ⟨as, rfl⟩
  · rw [List.nil_append, cutAt_of_not_mem h.name]
    rfl
  · rw [List.append_assoc, List.singleton_append, cutAt_append, cutAt_of_not_mem h.name]
    exact List.getLast?_concat

end Names

/-! ## Steps -/

section Steps

variable {as bs cs front name : List Char}

/-- The names a text is followed by, and a dot where a name is missing at its end. -/
def stepsIn (cs : List Char) : List String :=
  namesIn cs ++ if (cutAt '/' cs).getLast? = some [] then ["."] else []

theorem stepsIn_append (as bs : List Char) :
    stepsIn (as ++ '/' :: bs) = namesIn as ++ stepsIn bs := by
  have hlast : (cutAt '/' (as ++ '/' :: bs)).getLast? = (cutAt '/' bs).getLast? := by
    rw [cutAt_append, List.getLast?_append_of_ne_nil _ (cutAt_ne_nil '/' bs)]
  rw [stepsIn, stepsIn, hlast, namesIn_append, List.append_assoc]

theorem EndsIn.stepsIn_eq (h : EndsIn cs front name) :
    stepsIn cs = namesIn front ++ [if name = [] then "." else String.ofList name] := by
  rw [stepsIn, h.getLast?_cutAt, h.namesIn_eq, List.append_assoc]
  by_cases hname : name = []
  · simp [hname, namesIn_nil]
  · simp [hname, namesIn_of_not_mem h.name hname]

/-- A text that names nothing is empty or begins with a slash. -/
theorem head?_of_namesIn_eq_nil (h : namesIn cs = []) (hcs : cs ≠ []) : cs.head? = some '/' := by
  cases cs with
  | nil => exact absurd rfl hcs
  | cons c cs =>
    by_cases hc : c = '/'
    · rw [hc]
      rfl
    · obtain ⟨first, rest, hcut⟩ := List.exists_cons_of_ne_nil (cutAt_ne_nil '/' cs)
      rw [namesIn, cutAt, if_neg hc, hcut] at h
      simp at h

end Steps

namespace Files

variable {fs : Files} {p q : Path} {l d : Location} {front name : List Char}

theorem walk_append (l : Location) (ms ns : List String) :
    fs.walk l (ms ++ ns) = (fs.walk l ms).bind fun d => fs.walk d ns := by
  fun_induction walk fs l ms with
  | case1 l => rfl
  | case2 l n ms hdir => simp [walk, hdir]
  | case3 l n ms hdir hdot ih => simpa [walk, hdir, hdot] using ih
  | case4 l n ms hdir hdot hdots ih => simpa [walk, hdir, hdot, hdots] using ih
  | case5 l n ms hdir hdot hdots hlegal ih => simpa [walk, hdir, hdot, hdots, hlegal] using ih
  | case6 l n ms hdir hdot hdots hlegal => simp [walk, hdir, hdot, hdots, hlegal]

theorem walk_dot (l : Location) :
    fs.walk l ["."] = if fs.isDirectoryAt l then some l else none := by
  cases h : fs.isDirectoryAt l <;> simp [walk, h]

/-- Where a path begins. -/
def origin (fs : Files) (cs : List Char) : Location :=
  if cs.head? = some '/' then [] else fs.workingDirectory

theorem locate_eq_walk (h : p.text.toList ≠ []) :
    fs.locate p = fs.walk (fs.origin p.text.toList) (stepsIn p.text.toList) := by
  have htext : p.text ≠ "" := fun he => h (by rw [he]; rfl)
  have hlast : (((cutAt '/' p.text.toList).map String.ofList).getLast? == some "") =
      decide ((cutAt '/' p.text.toList).getLast? = some []) := by
    rw [List.getLast?_map]
    cases (cutAt '/' p.text.toList).getLast? with
    | none => rfl
    | some cs => cases cs <;> simp
  have horigin : (if p.isAbsolute then [] else fs.workingDirectory) = fs.origin p.text.toList := by
    simp [origin, Path.isAbsolute]
  rw [locate, if_neg (by simpa using htext), horigin, steps, hlast, stepsIn, ← namesIn]
  by_cases hslash : (cutAt '/' p.text.toList).getLast? = some []
  · cases hnames : namesIn p.text.toList with
    | nil =>
      -- Of such a path nothing but slashes is there, so it begins at the root.
      have hroot : fs.origin p.text.toList = [] :=
        if_pos (head?_of_namesIn_eq_nil hnames h)
      simp [hslash, hroot, walk, isDirectoryAt, entry?]
    | cons n ns => simp [hslash]
  · simp [hslash]

/-! ## Paths of files -/

/-- A tree: everything that is there is in a directory. -/
def IsTree (fs : Files) : Prop := ∀ l, (fs.entry? l).isSome → fs.isDirectoryAt l.dropLast = true

theorem isTree_of_entries (h : ∀ e ∈ fs.entries, fs.isDirectoryAt e.1.dropLast = true) :
    fs.IsTree := by
  intro l hl
  by_cases hroot : l = []
  · rw [hroot]
    simp [isDirectoryAt, entry?]
  · rw [ entry?, if_neg hroot] at hl
    obtain ⟨e, he⟩ := Option.isSome_iff_exists.mp hl
    obtain ⟨before, after, hentries, -⟩ := List.lookup_eq_some_iff.mp he
    exact h (l, e) (by simp [hentries])

/-- A path that ends in the name of something in a directory, which the text before the name leads
to. -/
structure Spells (fs : Files) (p : Path) (front name : List Char) (d : Location) : Prop where
  ends : EndsIn p.text.toList front name
  proper : name ≠ [] ∧ name ≠ ['.'] ∧ name ≠ ['.', '.']
  walk : fs.walk (fs.origin p.text.toList) (namesIn front) = some d

/-- **In a tree, a path that leads to anything but a directory ends in its name.** -/
theorem exists_spells (htree : fs.IsTree) (hl : fs.locate p = some l)
    (hfile : fs.isDirectoryAt l = false) :
    ∃ front name d, fs.Spells p front name d ∧ l = d ++ [String.ofList name] := by
  have htext : p.text.toList ≠ [] := by
    intro h
    have hempty : p.text = "" := by simpa using h
    simp [locate, hempty] at hl
  obtain ⟨front, name, hends⟩ := exists_endsIn p.text.toList
  rw [locate_eq_walk htext, hends.stepsIn_eq, walk_append, Option.bind_eq_some_iff] at hl
  obtain ⟨d, hwalk, hd⟩ := hl
  -- The last step is taken from a directory, and only a name leads out of the directories.
  have hdir : fs.isDirectoryAt d = true := by
    by_contra hdir
    simp [Files.walk, hdir] at hd
  have hup : fs.isDirectoryAt d.dropLast = true := htree d (by
    have hentry : fs.entry? d = some .directory := by simpa [isDirectoryAt] using hdir
    rw [hentry]
    rfl)
  by_cases hname : name = [] ∨ name = ['.']
  · have hstep : (if name = [] then "." else String.ofList name) = "." := by
      rcases hname with rfl | rfl <;> rfl
    rw [hstep, walk_dot, if_pos hdir] at hd
    exact absurd (Option.some.inj hd ▸ hdir) (by simp [hfile])
  · rw [not_or] at hname
    rw [if_neg hname.1, Files.walk, hdir] at hd
    by_cases hdots : name = ['.', '.']
    · rw [hdots] at hd
      exact absurd (Option.some.inj hd ▸ hup) (by simp [hfile])
    · refine ⟨front, name, d, ⟨hends, ⟨hname.1, hname.2, hdots⟩, hwalk⟩, ?_⟩
      have hdot : String.ofList name ≠ "." := fun h =>
        hname.2 (by simpa using congrArg String.toList h)
      have hup' : String.ofList name ≠ ".." := fun h =>
        hdots (by simpa using congrArg String.toList h)
      by_cases hlegal : isLegalName (String.ofList name) = true
      · simp only [hdot, hup', hlegal, Files.walk, Bool.not_true, Bool.false_eq_true, beq_iff_eq,
          if_false, if_true, Option.some.injEq] at hd
        exact hd.symm
      · simp [hdot, hup', hlegal] at hd

end Files

/-! ## Parents -/

section Parents

open Routebook.Disk.Path (trimReversed)

variable {fs : Files} {p : Path} {l d : Location} {cs front name : List Char}

/-- A name at the end of a text is not trimmed. -/
theorem trimReversed_name (hslash : '/' ∉ name) (hname : name ≠ []) (hdot : name ≠ ['.'])
    (front : List Char) : trimReversed (name.reverse ++ front) = name.reverse ++ front := by
  have hmem : '/' ∉ name.reverse := by simpa using hslash
  have hne : name.reverse ≠ [] := by simpa using hname
  have hne_dot : name.reverse ≠ ['.'] := fun h => hdot (by simpa using congrArg List.reverse h)
  generalize name.reverse = last at hmem hne hne_dot
  cases last with
  | nil => exact absurd rfl hne
  | cons c cs =>
    rw [List.mem_cons, not_or] at hmem
    cases cs with
    | nil =>
      have hc : c ≠ '.' := fun h => hne_dot (by rw [h])
      rw [List.singleton_append, trimReversed] <;> simp_all [eq_comm]
    | cons b bs =>
      rw [List.mem_cons, not_or] at hmem
      rw [List.cons_append, List.cons_append, trimReversed] <;> simp_all [eq_comm]

/-- The first character stays where it is, so an absolute path stays absolute. -/
theorem getLast?_trimReversed (cs : List Char) : (trimReversed cs).getLast? = cs.getLast? := by
  fun_induction trimReversed cs with
  | case1 => rfl
  | case2 cs hcs ih =>
    rw [ih]
    cases cs with
    | nil => exact absurd rfl hcs
    | cons c cs => rfl
  | case3 => rfl
  | case4 cs hcs ih =>
    rw [ih]
    cases cs with
    | nil => exact absurd rfl hcs
    | cons c cs => rfl
  | case5 cs => rfl

/-- A slash is left at the end only if nothing else is left. -/
theorem trimReversed_eq_of_head? (h : (trimReversed cs).head? = some '/') :
    trimReversed cs = ['/'] := by
  fun_induction trimReversed cs with
  | case1 => rfl
  | case2 cs hcs ih => exact ih h
  | case3 => rfl
  | case4 cs hcs ih => exact ih h
  | case5 cs h₁ h₂ h₃ h₄ =>
    cases cs with
    | nil => simp at h
    | cons c cs =>
      obtain rfl := Option.some.inj h
      exact absurd rfl (h₂ cs)

theorem walk_of_walk_dot {ns : List String} (h : fs.walk l (ns ++ ["."]) = some d) :
    fs.walk l ns = some d := by
  rw [Files.walk_append, Option.bind_eq_some_iff] at h
  obtain ⟨d', hwalk, hdot⟩ := h
  rw [Files.walk_dot] at hdot
  split at hdot
  · rw [hwalk, hdot]
  · exact absurd hdot (by simp)

/-- Trimming leaves a text that leads to the same place. -/
theorem walk_trimReversed (h : fs.walk l (namesIn cs.reverse) = some d) :
    fs.walk l (namesIn (trimReversed cs).reverse) = some d := by
  fun_induction trimReversed cs with
  | case1 => exact h
  | case2 cs hcs ih =>
    rw [List.reverse_cons, namesIn_concat] at h
    exact ih h
  | case3 => exact walk_of_walk_dot h
  | case4 cs hcs ih =>
    have hnames : namesIn ('.' :: '/' :: cs).reverse = namesIn cs.reverse ++ ["."] := by
      rw [List.reverse_cons, List.reverse_cons, List.append_assoc, List.singleton_append,
        namesIn_append]
      rfl
    rw [hnames] at h
    exact ih (walk_of_walk_dot h)
  | case5 cs => exact h

theorem EndsIn.parent?_eq (h : EndsIn p.text.toList front name) (hname : name ≠ [])
    (hdot : name ≠ ['.']) :
    p.parent? = some ⟨String.ofList (trimReversed front.reverse).reverse⟩ := by
  have htext : p.text.toList.reverse = name.reverse ++ front.reverse := by
    rw [h.append, List.reverse_append]
  have hlast : name.reverse ≠ [] := by simpa using hname
  rw [Path.parent?, htext, trimReversed_name h.name hname hdot]
  split
  · next hnil => exact absurd (List.append_eq_nil_iff.mp hnil).1 hlast
  · next hroot =>
    obtain ⟨c, cs, hcs⟩ := List.exists_cons_of_ne_nil hlast
    rw [hcs, List.cons_append, List.cons.injEq] at hroot
    have hc := h.ne_slash c (by simp [hcs])
    exact absurd hroot.1 (by simpa using hc)
  · rw [h.dropWhile_reverse]

theorem EndsIn.fileName?_eq (h : EndsIn p.text.toList front name)
    (hname : name ≠ [] ∧ name ≠ ['.'] ∧ name ≠ ['.', '.']) :
    p.fileName? = some (String.ofList name) := by
  have htext : p.text.toList.reverse = name.reverse ++ front.reverse := by
    rw [h.append, List.reverse_append]
  rw [Path.fileName?, htext, trimReversed_name h.name hname.1 hname.2.1, h.takeWhile_reverse,
    List.reverse_reverse]
  simp [hname]

end Parents

/-! ## Paths beside a file -/

/-- A path behind a text and a slash. -/
def Path.under (as : List Char) (q : Path) : Path := ⟨String.ofList (as ++ '/' :: q.text.toList)⟩

namespace Files

open Routebook.Disk.Path (trimReversed)

variable {fs : Files} {p : Path} {d : Location} {cs front name : List Char}

theorem locate_under (as : List Char) (q : Path) :
    fs.locate (q.under as) =
      (fs.walk (fs.origin (as ++ ['/'])) (namesIn as)).bind fun d =>
        fs.walk d (stepsIn q.text.toList) := by
  have htext : (q.under as).text.toList = as ++ '/' :: q.text.toList := String.toList_ofList
  have horigin : fs.origin (as ++ '/' :: q.text.toList) = fs.origin (as ++ ['/']) := by
    cases as <;> rfl
  rw [locate_eq_walk (by simp [htext]), htext, horigin, stepsIn_append, walk_append]

/-- What a path begins with is not the name at its end. -/
theorem origin_of_endsIn (h : EndsIn cs front name) : fs.origin cs = fs.origin front := by
  rw [h.append]
  rcases h.slash with rfl | ⟨as, rfl⟩
  · cases name with
    | nil => rfl
    | cons c name =>
      have hc : c ≠ '/' := fun hc => h.name (hc ▸ List.mem_cons_self)
      simp [origin, hc]
  · cases as <;> rfl

/-- **A path that is joined to a file's parent leads on from the file's directory,** unless the file
is named without any directory. -/
theorem Spells.join (h : fs.Spells p front name d) (hfront : front ≠ []) :
    ∃ as, (∀ rel : String, rel.toList.head? = some '.' →
      (p.parent?.getD ⟨"."⟩).join rel = Path.under as ⟨rel⟩) ∧
        ∀ q, fs.locate (Path.under as q) = fs.walk d (stepsIn q.text.toList) := by
  have hwalk := h.walk
  rw [origin_of_endsIn h.ends, ← List.reverse_reverse front] at hwalk
  replace hwalk := walk_trimReversed hwalk
  have hlast := getLast?_trimReversed front.reverse
  have hroot : (trimReversed front.reverse).head? = some '/' → trimReversed front.reverse = ['/'] :=
    trimReversed_eq_of_head?
  rw [h.ends.parent?_eq h.proper.1 h.proper.2.1, Option.getD_some]
  rw [List.reverse_reverse] at hwalk
  generalize trimReversed front.reverse = trimmed at hwalk hlast hroot
  rw [List.getLast?_reverse] at hlast
  have hne : trimmed ≠ [] := by
    rintro rfl
    exact hfront (List.head?_eq_none_iff.mp hlast.symm)
  have horigin : fs.origin trimmed.reverse = fs.origin front := by
    rw [origin, origin, List.head?_reverse, hlast]
  rw [← horigin] at hwalk
  by_cases hslash : trimmed.head? = some '/'
  · -- The file is in the root.
    obtain rfl := hroot hslash
    refine ⟨[], fun rel hrel => ?_, fun q => ?_⟩
    · simp [Path.join, hrel, Path.under]
    · obtain rfl := Option.some.inj hwalk
      rw [locate_under]
      rfl
  · refine ⟨trimmed.reverse, fun rel hrel => ?_, fun q => ?_⟩
    · have hne' : String.ofList trimmed.reverse ≠ "" := fun he => hne (by
        simpa using congrArg String.toList he)
      simp [Path.join, hrel, Path.under, String.ext_iff, hslash, hne']
    · have hstart : fs.origin (trimmed.reverse ++ ['/']) = fs.origin trimmed.reverse := by
        have hreverse : trimmed.reverse ≠ [] := by simpa using hne
        rw [origin, origin, List.head?_append_of_ne_nil _ hreverse]
      rw [locate_under, hstart, hwalk]
      rfl

/-- The parent of a file that is named without any directory has no text. -/
theorem Spells.parent?_of_bare (h : fs.Spells p [] name d) :
    p.parent? = some ⟨""⟩ ∧ d = fs.workingDirectory := by
  have hwalk := h.walk
  rw [origin_of_endsIn h.ends] at hwalk
  exact ⟨h.ends.parent?_eq h.proper.1 h.proper.2.1, (Option.some.inj hwalk).symm⟩

theorem Spells.fileName? (h : fs.Spells p front name d) : p.fileName? = some (String.ofList name) :=
  h.ends.fileName?_eq h.proper

end Files

end Routebook.Disk
