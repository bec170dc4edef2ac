import Routebook.Pattern.Reader
import Routebook.Proofs.Config.Check
import Routebook.Proofs.Disk.Destination
import Routebook.Proofs.Path.Join
import Routebook.Proofs.Text.Words

/-!
# Names of intermediate files

A group's intermediate file is named after the group. The words of the group's name, which are its
longest runs of small letters and digits once capitals have become small (`Group.words`), stand in
the file's name with a hyphen between each and the next. Anything else only parts words, letters
beyond ASCII among it. **So the words can be read off the file's name,** and two groups have one file
exactly if their names have the same words.

The same name comes out letter by letter (`Group.slug`): what is neither a letter nor a digit becomes
a hyphen, unless one was written last, and in the end the hyphens at both ends are cut off.

A name of this kind holds no slash and is not made of dots, so **its file is in the directory of the
intermediate files,** however that is spelled (`Files.destination_join`).
-/

namespace Routebook

open Disk (Files)
open Unicode (isSmallOrDigit)

namespace Group

variable {cs out word : List Char} {ws vs : List (List Char)}

theorem hyphenated_eq_intercalate : ∀ ws : List (List Char), hyphenated ws = ['-'].intercalate ws
  | [] => rfl
  | [w] => List.intercalate_singleton.symm
  | w :: v :: ws => by
    rw [hyphenated, hyphenated_eq_intercalate (v :: ws), List.intercalate_cons_cons,
      List.append_assoc, List.singleton_append]
    exact List.cons_ne_nil v ws

theorem isSlug_hyphenated (hne : ws ≠ []) (h : ∀ w ∈ ws, IsWord w) : IsSlug (hyphenated ws) := by
  fun_induction hyphenated ws with
  | case1 => exact absurd rfl hne
  | case2 w => exact .word (h w List.mem_cons_self)
  | case3 w ws hws ih =>
    exact .hyphen (h w List.mem_cons_self)
      (ih hws fun v hv => h v (List.mem_cons_of_mem _ hv))

/-- **Words can be read off their hyphenated form.** -/
theorem hyphenated_inj (hws : ws ≠ []) (hvs : vs ≠ []) (hw : ∀ w ∈ ws, IsWord w)
    (hv : ∀ v ∈ vs, IsWord v) : hyphenated ws = hyphenated vs ↔ ws = vs := by
  refine ⟨fun h => ?_, congrArg hyphenated⟩
  rw [hyphenated_eq_intercalate, hyphenated_eq_intercalate] at h
  calc ws = (['-'].intercalate ws).splitOn '-' :=
        (List.splitOn_intercalate '-' (fun w hmem => (hw w hmem).hyphen_not_mem) hws).symm
    _ = (['-'].intercalate vs).splitOn '-' := by rw [h]
    _ = vs := List.splitOn_intercalate '-' (fun v hmem => (hv v hmem).hyphen_not_mem) hvs

/-! ## The words of a name -/

/-- The words of a name: the longest runs of small letters and digits in its small form. A name
without any counts as one word. -/
def words (name : String) : List (List Char) :=
  match Text.runs isSmallOrDigit (Unicode.lower name.toList) with
  | [] => ["group".toList]
  | ws => ws

theorem wordsFrom_eq_runs (hword : ∀ c ∈ word, isSmallOrDigit c = true)
    (hcs : ∀ c ∈ cs, c.isAlphanum = isSmallOrDigit c) :
    wordsFrom word cs = Text.runs isSmallOrDigit (word ++ cs) := by
  fun_induction wordsFrom word cs with
  | case1 => rfl
  | case2 word hne => rw [List.append_nil, Text.runs_of_forall hword, if_neg hne]
  | case3 word c cs hc ih =>
    obtain ⟨hsmall, hcs⟩ := List.forall_mem_cons.mp hcs
    have hword' : ∀ d ∈ word ++ [c], isSmallOrDigit d = true :=
      List.forall_mem_append.mpr ⟨hword, List.forall_mem_singleton.mpr (hsmall ▸ hc)⟩
    rw [ih hword' hcs, List.append_assoc, List.singleton_append]
  | case4 c cs hc ih =>
    obtain ⟨hsmall, hcs⟩ := List.forall_mem_cons.mp hcs
    rw [ih nofun hcs, Text.runs_append_cons (by simpa [hsmall] using hc)]
    rfl
  | case5 word c cs hc hne ih =>
    obtain ⟨hsmall, hcs⟩ := List.forall_mem_cons.mp hcs
    rw [ih nofun hcs, Text.runs_append_cons (by simpa [hsmall] using hc),
      Text.runs_of_forall hword, if_neg hne]
    rfl

/-- Once capitals have become small, the letters of ASCII that are left are small ones. -/
theorem isAlphanum_of_mem_lower (name : String) :
    ∀ c ∈ Unicode.lower name.toList, c.isAlphanum = isSmallOrDigit c :=
  fun _ hc => Unicode.isAlphanum_of_not_isUpper (Unicode.isUpper_of_mem_lower hc)

theorem nameWords_eq_words (name : String) : nameWords name = words name := by
  have hfrom : wordsFrom [] (Unicode.lower name.toList) =
      Text.runs isSmallOrDigit (Unicode.lower name.toList) :=
    wordsFrom_eq_runs (List.forall_mem_nil _) (isAlphanum_of_mem_lower name)
  cases hruns : Text.runs isSmallOrDigit (Unicode.lower name.toList) with
  | nil => simp only [nameWords, words, hfrom, hruns]
  | cons w ws => simp only [nameWords, words, hfrom, hruns]

theorem isWord_of_mem_wordsFrom (hword : ∀ c ∈ word, isSmallOrDigit c = true)
    (hcs : ∀ c ∈ cs, c.isAlphanum = isSmallOrDigit c) : ∀ w ∈ wordsFrom word cs, IsWord w := by
  fun_induction wordsFrom word cs with
  | case1 => exact nofun
  | case2 word hne => exact List.forall_mem_singleton.mpr ⟨hne, hword⟩
  | case3 word c cs hc ih =>
    obtain ⟨hsmall, hcs⟩ := List.forall_mem_cons.mp hcs
    exact ih (List.forall_mem_append.mpr ⟨hword, List.forall_mem_singleton.mpr (hsmall ▸ hc)⟩) hcs
  | case4 c cs hc ih => exact ih nofun (List.forall_mem_cons.mp hcs).2
  | case5 word c cs hc hne ih =>
    exact List.forall_mem_cons.mpr ⟨⟨hne, hword⟩, ih nofun (List.forall_mem_cons.mp hcs).2⟩

theorem isWord_of_mem_nameWords (name : String) : ∀ w ∈ nameWords name, IsWord w := by
  have hwords : ∀ w ∈ wordsFrom [] (Unicode.lower name.toList), IsWord w :=
    isWord_of_mem_wordsFrom (List.forall_mem_nil _) (isAlphanum_of_mem_lower name)
  rw [nameWords]
  split
  · exact List.forall_mem_singleton.mpr
      ⟨List.cons_ne_nil _ _, List.all_eq_true.mp (by decide)⟩
  · exact hwords

theorem nameWords_ne_nil (name : String) : nameWords name ≠ [] := by
  rw [nameWords]
  split
  · exact List.cons_ne_nil _ _
  · next hne => exact hne

/-! ## Letter by letter -/

/-- What is written once a character has been read: the character itself if it is a letter or a
digit, otherwise a hyphen unless one was written last. -/
def slugStep (out : List Char) (c : Char) : List Char :=
  if c.isAlphanum then out ++ [c]
  else if out.getLast? = some '-' then out
  else out ++ ['-']

/-- A text without the hyphens at its ends. -/
def trimHyphens (cs : List Char) : List Char := Path.stripEnd '-' (Path.stripStart '-' cs)

/-- The name of a group as the name of a file, written letter by letter. -/
def slug (name : String) : List Char :=
  match trimHyphens ((Unicode.lower name.toList).foldl slugStep []) with
  | [] => "group".toList
  | cs => cs

theorem trimHyphens_cons (cs : List Char) : trimHyphens ('-' :: cs) = trimHyphens cs := by
  have hstart : Path.stripStart '-' ('-' :: cs) = Path.stripStart '-' cs := by
    simp [Path.stripStart]
  rw [trimHyphens, hstart, trimHyphens]

theorem trimHyphens_concat (cs : List Char) : trimHyphens (cs ++ ['-']) = trimHyphens cs := by
  have hend : Path.stripEnd '-' (cs ++ ['-']) = Path.stripEnd '-' cs := by
    simp [Path.stripEnd]
  rw [trimHyphens, ← Path.stripStart_stripEnd, hend, Path.stripStart_stripEnd, trimHyphens]

/-- There are no hyphens at the ends of words with hyphens between them. -/
theorem trimHyphens_of_isSlug (h : IsSlug cs) : trimHyphens cs = cs := by
  rw [trimHyphens, Path.stripStart_eq_self_iff.mpr h.head?_ne,
    Path.stripEnd_eq_self_iff.mpr h.getLast?_ne]

/-- **Between words, one hyphen is left of whatever stands there.** What has been written is a word
that may go on, behind a text that is empty or ends in a hyphen. -/
theorem trimHyphens_foldl_slugStep (hout : out = [] ∨ out.getLast? = some '-') (hword : '-' ∉ word) :
    trimHyphens (cs.foldl slugStep (out ++ word)) =
      trimHyphens (out ++ hyphenated (wordsFrom word cs)) := by
  fun_induction wordsFrom word cs generalizing out with
  | case1 => rfl
  | case2 word hne => rfl
  | case3 word c cs hc ih =>
    have hword' : '-' ∉ word ++ [c] := by
      rw [List.mem_append, not_or]
      refine ⟨hword, fun hmem => ?_⟩
      rw [← List.mem_singleton.mp hmem] at hc
      exact absurd hc (by decide)
    rw [List.foldl_cons, slugStep, if_pos hc, List.append_assoc, ih hout hword']
  | case4 c cs hc ih =>
    rw [List.append_nil, List.foldl_cons, slugStep, if_neg hc]
    rcases hout with rfl | hout
    · have hfirst := ih (.inr rfl : ['-'] = [] ∨ ['-'].getLast? = some '-') hword
      rw [List.append_nil, List.singleton_append, trimHyphens_cons] at hfirst
      exact hfirst
    · rw [if_pos hout]
      have hagain := ih (.inr hout) hword
      rwa [List.append_nil] at hagain
  | case5 word c cs hc hne ih =>
    have hlast : (out ++ word).getLast? ≠ some '-' := by
      rw [List.getLast?_append_of_ne_nil _ hne]
      exact fun hlast => hword (List.mem_of_getLast? hlast)
    have hnext := ih (.inr List.getLast?_concat : out ++ word ++ ['-'] = [] ∨ _) List.not_mem_nil
    rw [List.append_nil] at hnext
    rw [List.foldl_cons, slugStep, if_neg hc, if_neg hlast, hnext]
    cases wordsFrom [] cs with
    | nil =>
      rw [hyphenated, hyphenated, List.append_nil]
      exact trimHyphens_concat (out ++ word)
    | cons w ws => simp [hyphenated]

/-- **Letter by letter, the words of a name come out with hyphens between them.** -/
theorem slug_eq_hyphenated (name : String) : slug name = hyphenated (nameWords name) := by
  have hwords := isWord_of_mem_wordsFrom (List.forall_mem_nil _) (isAlphanum_of_mem_lower name)
  have htrim : trimHyphens ((Unicode.lower name.toList).foldl slugStep []) =
      trimHyphens (hyphenated (wordsFrom [] (Unicode.lower name.toList))) :=
    trimHyphens_foldl_slugStep (.inl rfl) List.not_mem_nil
  rw [slug, htrim, nameWords]
  cases hfrom : wordsFrom [] (Unicode.lower name.toList) with
  | nil => rfl
  | cons w ws =>
    rw [hfrom] at hwords
    have hslug := isSlug_hyphenated (List.cons_ne_nil w ws) hwords
    rw [trimHyphens_of_isSlug hslug]
    split
    · next hnil => exact absurd hnil hslug.ne_nil
    · rfl

theorem isSlug_slug (name : String) : IsSlug (slug name) := by
  rw [slug_eq_hyphenated]
  exact isSlug_hyphenated (nameWords_ne_nil name) (isWord_of_mem_nameWords name)

/-! ## The file -/

variable {g h : Group}

theorem fileName_eq_slug (g : Group) :
    g.fileName = String.ofList (slug g.name) ++ ".json" := by
  rw [slug_eq_hyphenated, fileName]

/-- **Two groups have one file exactly if their names have the same words.** -/
theorem fileName_eq_fileName_iff : g.fileName = h.fileName ↔ words g.name = words h.name := by
  rw [fileName, fileName, String.append_left_inj, String.ofList_inj,
    hyphenated_inj (nameWords_ne_nil _) (nameWords_ne_nil _) (isWord_of_mem_nameWords _)
      (isWord_of_mem_nameWords _), nameWords_eq_words, nameWords_eq_words]

/-- The name of an intermediate file leads to a file in its directory. -/
theorem slash_not_mem_fileName (g : Group) : '/' ∉ g.fileName.toList := by
  rw [fileName_eq_slug, String.toList_append, String.toList_ofList, List.mem_append, not_or]
  refine ⟨fun h => ?_, by decide⟩
  rcases (isSlug_slug g.name).mem_cases h with h | h
  · exact absurd h (by decide)
  · exact absurd h (by decide)

theorem length_fileName (g : Group) : 5 ≤ g.fileName.toList.length := by
  have hjson : ".json".toList.length = 5 := rfl
  rw [fileName, String.toList_append, List.length_append, hjson]
  exact Nat.le_add_left ..

end Group

namespace Config

/-- **Every intermediate file is in the directory of the intermediate files.** -/
theorem destination_intermediateFile (fs : Files) (c : Config) (g : Group) :
    fs.destination (c.intermediateFile g) =
      fs.destination c.intermediateDirectory ++ [g.fileName] :=
  fs.destination_join c.intermediateDirectory g.slash_not_mem_fileName
    (Nat.lt_of_lt_of_le (by decide) g.length_fileName)

/-- **Intermediate files have safe names, and share one only where this is meant.** The name is
made of words of small letters and digits with single hyphens between them, as it comes out letter by
letter; it leads to a file in the directory of the intermediate files; two groups share it exactly if
their names have the same words; and no two groups of a checked configuration do. -/
theorem fileNames_apart [PatternEngine] :
    (∀ g : Group, IsSlug (Group.slug g.name) ∧
      g.fileName = String.ofList (Group.slug g.name) ++ ".json") ∧
    (∀ (fs : Files) (c : Config) (g : Group), fs.destination (c.intermediateFile g) =
      fs.destination c.intermediateDirectory ++ [g.fileName]) ∧
    (∀ g h : Group, g.fileName = h.fileName ↔ Group.words g.name = Group.words h.name) ∧
    ∀ (fs : Files) (c : Config), c.problem? fs = none → (c.groups.map Group.fileName).Nodup :=
  ⟨fun g => ⟨Group.isSlug_slug g.name, g.fileName_eq_slug⟩, destination_intermediateFile,
    fun _ _ => Group.fileName_eq_fileName_iff, fun _ _ h =>
      List.pairwise_map.mpr ((apart_of_problem? h).imp Group.Apart.fileName)⟩

attribute [local instance] Pattern.engine

/-- Groups whose names have words in them only with their capitals made small, or none at all. -/
def threeNames : Config where
  openapi := "3.0.3"
  info := ⟨"Cities", "1", none⟩
  output := ⟨"openapi.json"⟩
  docMarker := defaultDocMarker
  groups := ["\u0130stanbul (API)", "--\u212A2--", "\u2600"].map fun name =>
    { name, appTypePath := ⟨"app.ts"⟩ }

theorem fileNames_apart_threeNames :
    threeNames.problem? ⟨[], [(["app.ts"], .file "")]⟩ = none ∧
      threeNames.groups.map Group.fileName = ["i-stanbul-api.json", "k2.json", "group.json"] ∧
      (threeNames.groups.map Group.fileName).Nodup := by
  have hproblem : threeNames.problem? ⟨[], [(["app.ts"], .file "")]⟩ = none := by decide +kernel
  obtain ⟨-, -, -, hnodup⟩ := fileNames_apart
  exact ⟨hproblem, by decide +kernel, hnodup _ _ hproblem⟩

end Config

end Routebook
