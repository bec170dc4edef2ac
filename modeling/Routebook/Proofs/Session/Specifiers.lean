import Routebook.Proofs.Disk.Spelling
import Routebook.Session.Lookup

/-!
# The files that a specifier can mean

The paths that are tried for a relative specifier are made from the path of the file it stands in.
Other spellings of that path give other paths, but **they lead to the same places**
(`map_locate_specifierFiles`), because they are taken from the file's directory. The exceptions are
`".js"` and `".mjs"`: without the extension nothing is left of them, and in a file that is named
without any directory the rest is taken from the root.
-/

namespace Routebook

open Disk (Files Path Location stepsIn)

/-! ## Beginnings and ends -/

section Ends

variable {ending cs rest : List Char}

theorem afterStart?_eq_some : afterStart? ending cs = some rest ↔ cs = ending ++ rest := by
  fun_induction afterStart? ending cs with
  | case1 cs => simp [eq_comm]
  | case2 p ps cs ih => simp [ih]
  | case3 p ps c cs hne => simp [Ne.symm hne]
  | case4 p ps => simp

theorem beforeEnd?_eq_some : beforeEnd? ending cs = some rest ↔ cs = rest ++ ending := by
  rw [beforeEnd?, Option.map_eq_some_iff]
  constructor
  · rintro ⟨back, hback, rfl⟩
    have hcs := congrArg List.reverse (afterStart?_eq_some.mp hback)
    simpa using hcs
  · rintro rfl
    exact ⟨rest.reverse, afterStart?_eq_some.mpr (List.reverse_append ..), List.reverse_reverse _⟩

/-- An ending without slashes is found behind the last slash. -/
theorem beforeEnd?_behind (hending : '/' ∉ ending) (as cs : List Char) :
    beforeEnd? ending (as ++ '/' :: cs) = (beforeEnd? ending cs).map (as ++ '/' :: ·) := by
  ext rest
  rw [beforeEnd?_eq_some, Option.map_eq_some_iff]
  constructor
  · intro h
    rcases List.append_eq_append_iff.mp h with ⟨bs, hrest, hcs⟩ | ⟨bs, -, hslash⟩
    · cases bs with
      | nil =>
        rw [List.nil_append] at hcs
        exact absurd (hcs ▸ List.mem_cons_self) hending
      | cons b bs =>
        rw [List.cons_append, List.cons.injEq] at hcs
        obtain ⟨rfl, hcs⟩ := hcs
        exact ⟨bs, beforeEnd?_eq_some.mpr hcs, hrest.symm⟩
    · exact absurd (by simp [hslash]) hending
  · rintro ⟨rest, hrest, rfl⟩
    rw [beforeEnd?_eq_some.mp hrest]
    simp

theorem withoutCompiledExtension_behind (as cs : List Char) :
    withoutCompiledExtension (as ++ '/' :: cs) = as ++ '/' :: withoutCompiledExtension cs := by
  rw [withoutCompiledExtension, withoutCompiledExtension, beforeEnd?_behind (by decide),
    beforeEnd?_behind (by decide)]
  cases beforeEnd? ".js".toList cs with
  | some rest => rfl
  | none => cases beforeEnd? ".mjs".toList cs <;> rfl

theorem endsWith_behind {s : String} (hs : '/' ∉ s.toList) (as cs : List Char) :
    endsWith (as ++ '/' :: cs) s = endsWith cs s := by
  rw [endsWith, endsWith, beforeEnd?_behind hs, Option.isSome_map]

/-- What is left without the extension begins as the text does, unless nothing is left. -/
theorem head?_withoutCompiledExtension (hjs : cs ≠ ".js".toList) (hmjs : cs ≠ ".mjs".toList) :
    (withoutCompiledExtension cs).head? = cs.head? := by
  have hcut : ∀ ending rest, cs ≠ ending → beforeEnd? ending cs = some rest →
      rest.head? = cs.head? := by
    intro ending rest hne hrest
    obtain rfl := beforeEnd?_eq_some.mp hrest
    cases rest with
    | nil => exact absurd rfl hne
    | cons c rest => rfl
  rw [withoutCompiledExtension]
  cases hrest : beforeEnd? ".js".toList cs with
  | some rest => exact hcut _ rest hjs hrest
  | none =>
    cases hrest : beforeEnd? ".mjs".toList cs with
    | some rest => exact hcut _ rest hmjs hrest
    | none => rfl

end Ends

/-! ## Candidates -/

theorem candidates_under (as : List Char) (q : Path) :
    candidates (q.under as) = (candidates q).map (Disk.Path.under as) := by
  have htext : (q.under as).text.toList = as ++ '/' :: q.text.toList := String.toList_ofList
  simp only [candidates, htext, withoutCompiledExtension_behind,
    endsWith_behind (s := ".ts") (by decide), endsWith_behind (s := ".tsx") (by decide),
    List.map_append, List.map_map]
  congr 1
  · split <;> rfl
  · refine List.map_congr_left fun s _ => ?_
    simp [Disk.Path.under, String.ext_iff]

/-- What a relative specifier can mean is relative, except where nothing is left of it. -/
theorem head?_of_mem_candidates {specifier : String} (hdot : specifier.toList.head? = some '.')
    (hjs : specifier ≠ ".js") (hmjs : specifier ≠ ".mjs") {q : Path}
    (hq : q ∈ candidates ⟨specifier⟩) : q.text.toList.head? = some '.' := by
  have hstem : (withoutCompiledExtension specifier.toList).head? = some '.' := by
    rw [head?_withoutCompiledExtension (fun h => hjs (String.toList_inj.mp h))
      (fun h => hmjs (String.toList_inj.mp h)), hdot]
  rcases List.mem_append.mp hq with hwritten | htried
  · split at hwritten
    · rw [List.mem_singleton.mp hwritten]
      exact hdot
    · exact absurd hwritten List.not_mem_nil
  · obtain ⟨s, -, rfl⟩ := List.mem_map.mp htried
    simp [hstem]

/-! ## Where candidates lead -/

section Locations

variable {fs : Files} {p q : Path} {l d : Location} {front name : List Char} {specifier : String}

/-- The candidates for a relative specifier lead on from the directory of the file it stands in. -/
theorem map_locate_candidates (h : fs.Spells p front name d)
    (hdot : specifier.toList.head? = some '.')
    (hbare : front = [] → specifier ≠ ".js" ∧ specifier ≠ ".mjs") :
    (candidates ((p.parent?.getD ⟨"."⟩).join specifier)).map fs.locate =
      (candidates ⟨specifier⟩).map fun q => fs.walk d (stepsIn q.text.toList) := by
  by_cases hfront : front = []
  · subst hfront
    obtain ⟨hparent, hd⟩ := h.parent?_of_bare
    obtain ⟨hjs, hmjs⟩ := hbare rfl
    have hjoin : Disk.Path.join ⟨""⟩ specifier = ⟨specifier⟩ := by simp [Disk.Path.join]
    rw [hparent, Option.getD_some, hjoin]
    refine List.map_congr_left fun q hq => ?_
    have hhead := head?_of_mem_candidates hdot hjs hmjs hq
    have hne : q.text.toList ≠ [] := by
      intro hnil
      simp [hnil] at hhead
    have horigin : fs.origin q.text.toList = fs.workingDirectory := if_neg (by simp [hhead])
    rw [Files.locate_eq_walk hne, horigin, hd]
  · obtain ⟨as, hjoin, hlocate⟩ := h.join hfront
    rw [hjoin specifier hdot, candidates_under, List.map_map]
    exact List.map_congr_left fun q _ => hlocate q

/-- **The files that a specifier can mean are the same for all spellings of the path of the file it
stands in.** -/
theorem map_locate_specifierFiles (htree : fs.IsTree) (hp : fs.locate p = some l)
    (hq : fs.locate q = some l) (hl : fs.isDirectoryAt l = false)
    (hbare : l.dropLast = fs.workingDirectory → specifier ≠ ".js" ∧ specifier ≠ ".mjs")
    (aliases : PathAliases) :
    ((specifierBases aliases q specifier).flatMap candidates).map fs.locate =
      ((specifierBases aliases p specifier).flatMap candidates).map fs.locate := by
  by_cases hdot : specifier.toList.head? = some '.'
  · obtain ⟨front, name, d, hspells, rfl⟩ := Files.exists_spells htree hp hl
    obtain ⟨front', name', d', hspells', hloc⟩ := Files.exists_spells htree hq hl
    obtain ⟨rfl, -⟩ := List.append_inj' hloc rfl
    have hbase : ∀ r : Path, (specifierBases aliases r specifier).flatMap candidates =
        candidates ((r.parent?.getD ⟨"."⟩).join specifier) := by
      intro r
      simp [specifierBases, hdot]
    rw [List.dropLast_concat] at hbare
    have hbare_of : ∀ {r front name}, fs.Spells r front name d → front = [] →
        specifier ≠ ".js" ∧ specifier ≠ ".mjs" := by
      rintro r front name h rfl
      exact hbare h.parent?_of_bare.2
    rw [hbase, hbase, map_locate_candidates hspells hdot (hbare_of hspells),
      map_locate_candidates hspells' hdot (hbare_of hspells')]
  · simp [specifierBases, hdot]

/-! ## What is found under them -/

theorem isFile_of_locate (h : fs.locate q = fs.locate p) : fs.isFile q = fs.isFile p := by
  rw [Files.isFile, Files.isFile, Files.read?, Files.read?, Files.lookup, Files.lookup, h]

/-- The first file of two lists of paths that lead to the same places is the same. -/
theorem map_locate_find?_isFile {ps qs : List Path}
    (h : qs.map fs.locate = ps.map fs.locate) :
    (qs.find? fs.isFile).map fs.locate = (ps.find? fs.isFile).map fs.locate := by
  induction ps generalizing qs with
  | nil =>
    rw [List.map_nil, List.map_eq_nil_iff] at h
    rw [h]
  | cons p ps ih =>
    cases qs with
    | nil => exact absurd h (by simp)
    | cons q qs =>
      rw [List.map_cons, List.map_cons, List.cons.injEq] at h
      rw [List.find?_cons, List.find?_cons, isFile_of_locate h.1]
      cases fs.isFile p with
      | true => rw [Option.map_some, Option.map_some, h.1]
      | false => exact ih h.2

end Locations

end Routebook
