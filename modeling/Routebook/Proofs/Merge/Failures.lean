import Routebook.Proofs.Disk.Files
import Routebook.Proofs.Merge.LastWriter

/-!
# Groups that cannot be merged

A group is handed in with its document or with the file that should hold it (`Submission`). What can
be wrong with it does not depend on what has been merged so far (`submit_eq_some_iff`): the file
cannot be read or holds no document, or a pattern among the exclusions cannot be read. **Then the
paths stay as they are, and the tag of the group is all that it leaves** (`submit_of_failure`). So
in any sequence the groups that fail might as well not have been there (`intact_of_failures`), as
far as paths are concerned.
-/

namespace Routebook

/-! ## The first pattern that cannot be read -/

namespace Exclusions

variable [PatternEngine]

/-- A list of exclusions fails at a pattern: it cannot be read, and all before it can. -/
structure FailsAt (es : List Exclusion) (text : String) : Prop where
  unreadable : PatternEngine.read? text = none
  first : ∃ before after, es = before ++ .pattern text :: after ∧
    ∀ earlier, .pattern earlier ∈ before → (PatternEngine.read? earlier).isSome

theorem add_eq_error_iff {r : Exclusions} {e : Exclusion} {text : String} :
    r.add e = .error text ↔ e = .pattern text ∧ PatternEngine.read? text = none := by
  cases e with
  | literal path => simp [add]
  | pattern p =>
    simp only [add, Exclusion.pattern.injEq]
    cases hp : PatternEngine.read? p with
    | some _ =>
      refine ⟨nofun, ?_⟩
      rintro ⟨rfl, hnone⟩
      exact absurd (hp.symm.trans hnone) (by simp)
    | none =>
      rw [Except.error.injEq]
      exact ⟨fun h => ⟨h, h ▸ hp⟩, And.left⟩

/-- A list fails at its head, or the head is no obstacle and it fails further on. -/
theorem failsAt_cons {e : Exclusion} {es : List Exclusion} {text : String} :
    FailsAt (e :: es) text ↔ (e = .pattern text ∧ PatternEngine.read? text = none) ∨
      ((∀ earlier, e = .pattern earlier → (PatternEngine.read? earlier).isSome) ∧
        FailsAt es text) := by
  constructor
  · rintro ⟨hbad, before, after, hes, hbefore⟩
    cases before with
    | nil => exact .inl ⟨(List.cons.inj hes).1, hbad⟩
    | cons b before =>
      obtain ⟨rfl, rfl⟩ := List.cons.inj hes
      refine .inr ⟨fun earlier h => hbefore earlier (h ▸ List.mem_cons_self), hbad, before, after,
        rfl, fun p hp => hbefore p (List.mem_cons_of_mem _ hp)⟩
  · rintro (⟨rfl, hbad⟩ | ⟨hhead, hbad, before, after, rfl, hbefore⟩)
    · exact ⟨hbad, [], es, rfl, nofun⟩
    · refine ⟨hbad, e :: before, after, rfl, fun p hp => ?_⟩
      rcases List.mem_cons.mp hp with hp | hp
      · exact hhead p hp.symm
      · exact hbefore p hp

theorem foldlM_add_eq_error_iff {es : List Exclusion} {r : Exclusions} {text : String} :
    es.foldlM add r = .error text ↔ FailsAt es text := by
  induction es generalizing r with
  | nil =>
    refine ⟨nofun, ?_⟩
    rintro ⟨-, before, after, hes, -⟩
    exact absurd hes (by simp)
  | cons e es ih =>
    rw [List.foldlM_cons, failsAt_cons]
    cases hadd : r.add e with
    | ok r' =>
      have hfine : ∀ bad, ¬ (e = .pattern bad ∧ PatternEngine.read? bad = none) := fun bad h =>
        absurd (hadd.symm.trans (add_eq_error_iff.mpr h)) (by simp)
      have hhead : ∀ earlier, e = .pattern earlier → (PatternEngine.read? earlier).isSome :=
        fun earlier he => Option.isSome_iff_ne_none.mpr fun hnone => hfine earlier ⟨he, hnone⟩
      show es.foldlM add r' = _ ↔ _
      rw [ih]
      exact ⟨fun h => .inr ⟨hhead, h⟩, fun h => (h.resolve_left (hfine text)).2⟩
    | error bad =>
      obtain ⟨rfl, hbad⟩ := add_eq_error_iff.mp hadd
      show Except.error bad = Except.error text ↔ _
      rw [Except.error.injEq]
      constructor
      · rintro rfl
        exact .inl ⟨rfl, hbad⟩
      · rintro (⟨he, -⟩ | ⟨hhead, -⟩)
        · exact Exclusion.pattern.inj he
        · have hsome := hhead bad rfl
          rw [hbad] at hsome
          exact absurd hsome (by simp)

theorem ofList_eq_error_iff {es : List Exclusion} {text : String} :
    ofList es = .error text ↔ FailsAt es text := foldlM_add_eq_error_iff

/-- Exclusions can be read if all their patterns can. -/
theorem exists_ofList {es : List Exclusion}
    (h : ∀ text, .pattern text ∈ es → (PatternEngine.read? text).isSome) :
    ∃ rules, ofList es = .ok rules := by
  cases hlist : ofList es with
  | ok rules => exact ⟨rules, rfl⟩
  | error text =>
    obtain ⟨hnone, before, after, rfl, -⟩ := ofList_eq_error_iff.mp hlist
    have hsome := h text (List.mem_append_right before List.mem_cons_self)
    rw [hnone] at hsome
    cases hsome

end Exclusions

/-! ## What is handed in -/

/-- A group that is to be merged: with its document, or with the file for it among the files as they
are then. -/
inductive Submission where
  | document (group : Group) (document : Document)
  | file (files : Disk.Files) (group : Group) (path : Disk.Path)

namespace Submission

def group : Submission → Group
  | document g _ => g
  | file _ g _ => g

/-- Whether there is nothing at the path of the group's file. -/
def IsMissing : Submission → Prop
  | document _ _ => False
  | file fs _ p => fs.exists? p = false

/-- What can be wrong with a group that is to be merged. -/
inductive Fails [PatternEngine] : Submission → Error → Prop
  | pattern {g : Group} {text : String} (d : Document)
      (h : Exclusions.FailsAt g.exclusions text) :
      Fails (.document g d) (.invalidConfig (.badPattern none text))
  | unreadable {fs : Disk.Files} {p : Disk.Path} (g : Group) (hthere : fs.exists? p = true)
      (h : fs.read? p = none) : Fails (.file fs g p) (.io p)
  | malformed {fs : Disk.Files} {p : Disk.Path} {text : String} (g : Group)
      (hread : fs.read? p = some text) (h : (Json.read? text).bind Document.ofJson? = none) :
      Fails (.file fs g p) (.malformedDocument .json)
  | inFile {fs : Disk.Files} {p : Disk.Path} {text : String} {g : Group} {d : Document}
      {e : Error} (hread : fs.read? p = some text)
      (hd : (Json.read? text).bind Document.ofJson? = some d) (h : Fails (.document g d) e) :
      Fails (.file fs g p) e

end Submission

namespace Merged

section

variable [PatternEngine]

def submit (m : Merged) : Submission → Merged × Option Error
  | .document g d => m.addGroup g d
  | .file fs g p => m.addFile fs g p

/-- Merge one group after another and go on after those that fail. The groups that did not fail are
told as well. -/
def submitAll (m : Merged) : List Submission → Merged × List Submission
  | [] => (m, [])
  | x :: xs =>
    let rest := (m.submit x).1.submitAll xs
    (rest.1, if (m.submit x).2.isNone then x :: rest.2 else rest.2)

/-! ## One group -/

theorem addGroup_eq_some_iff {m : Merged} {g : Group} {d : Document} {e : Error} :
    (m.addGroup g d).2 = some e ↔ (Submission.document g d).Fails e := by
  constructor
  · intro h
    rw [addGroup] at h
    cases hlist : Exclusions.ofList g.exclusions with
    | ok rules => simp [hlist] at h
    | error text =>
      simp only [hlist, Option.some.injEq] at h
      obtain rfl := h
      exact .pattern d (Exclusions.ofList_eq_error_iff.mp hlist)
  · rintro ⟨-, h⟩
    rw [addGroup, Exclusions.ofList_eq_error_iff.mpr h]

/-- What a file adds: the tag alone, or what its document adds behind the tag. -/
theorem addFile_of_document {m : Merged} {fs : Disk.Files} {g : Group} {p : Disk.Path}
    {text : String} {d : Document} (hread : fs.read? p = some text)
    (hd : (Json.read? text).bind Document.ofJson? = some d) :
    m.addFile fs g p = (m.addTag g.name).addGroup g d := by
  rw [addFile, Disk.Files.exists?_of_read? hread, hread]
  simp only [Bool.not_true, Bool.false_eq_true, if_false, hd]

/-- **Whether a group fails, and how, does not depend on what has been merged before.** -/
theorem submit_eq_some_iff {m : Merged} {x : Submission} {e : Error} :
    (m.submit x).2 = some e ↔ x.Fails e := by
  cases x with
  | document g d => exact addGroup_eq_some_iff
  | file fs g p =>
    rw [submit]
    constructor
    · intro h
      cases hthere : fs.exists? p with
      | false => simp [addFile, hthere] at h
      | true =>
        cases hread : fs.read? p with
        | none =>
          simp only [addFile, hthere, hread, Bool.not_true, Bool.false_eq_true, if_false,
            Option.some.injEq] at h
          obtain rfl := h
          exact .unreadable g hthere hread
        | some text =>
          cases hd : (Json.read? text).bind Document.ofJson? with
          | none =>
            simp only [addFile, hthere, hread, hd, Bool.not_true, Bool.false_eq_true, if_false,
              Option.some.injEq] at h
            obtain rfl := h
            exact .malformed g hread hd
          | some d =>
            rw [addFile_of_document hread hd] at h
            exact .inFile hread hd (addGroup_eq_some_iff.mp h)
    · intro h
      cases h with
      | unreadable _ hthere hread => simp [addFile, hthere, hread]
      | malformed _ hread hd => simp [addFile, Disk.Files.exists?_of_read? hread, hread, hd]
      | inFile hread hd h =>
        rw [addFile_of_document hread hd]
        exact addGroup_eq_some_iff.mpr h

instance (x : Submission) : Decidable (∃ e, x.Fails e) :=
  decidable_of_iff ((empty.submit x).2.isSome = true) <| by
    rw [Option.isSome_iff_exists]
    exact exists_congr fun e => submit_eq_some_iff

theorem isNone_submit_iff {m : Merged} {x : Submission} :
    (m.submit x).2.isNone = true ↔ ¬ ∃ e, x.Fails e := by
  rw [Option.isNone_iff_eq_none, Option.eq_none_iff_forall_ne_some, not_exists]
  exact forall_congr' fun e => not_congr submit_eq_some_iff

/-- **A group that fails leaves its tag and nothing else,** and so does one whose file is
missing. -/
theorem submit_of_failure {m : Merged} {x : Submission}
    (h : (m.submit x).2 ≠ none ∨ x.IsMissing) : (m.submit x).1 = m.addTag x.group.name := by
  have hgroup : ∀ {m : Merged} {g : Group} {d : Document} {e : Error},
      (Submission.document g d).Fails e → (m.addGroup g d).1 = m.addTag g.name := by
    rintro m g d e ⟨-, hpattern⟩
    rw [addGroup, Exclusions.ofList_eq_error_iff.mpr hpattern]
  rcases h with h | h
  · obtain ⟨e, he⟩ := Option.ne_none_iff_exists'.mp h
    cases submit_eq_some_iff.mp he with
    | pattern d hpattern => exact hgroup (.pattern d hpattern)
    | unreadable g hthere hread => simp [submit, addFile, hthere, hread, Submission.group]
    | malformed g hread hd =>
      simp [submit, addFile, Disk.Files.exists?_of_read? hread, hread, hd, Submission.group]
    | @inFile fs p text g d e hread hd hfails =>
      rw [submit, addFile_of_document hread hd, hgroup hfails, addTag_addTag]
      rfl
  · cases x with
    | document g d => exact h.elim
    | file fs g p => simp [submit, addFile, show fs.exists? p = false from h, Submission.group]

/-! ## One group after another -/

/-- Tags do not matter for what becomes of the paths. -/
theorem paths_addGroup_congr {m m' : Merged} (h : m.paths = m'.paths) (g : Group) (d : Document) :
    (m.addGroup g d).1.paths = (m'.addGroup g d).1.paths := by
  rw [addGroup, addGroup]
  cases Exclusions.ofList g.exclusions with
  | error text => simp only [paths_addTag, h]
  | ok rules => simp only [paths_addTag, h]

theorem paths_submit_congr {m m' : Merged} (h : m.paths = m'.paths) (x : Submission) :
    (m.submit x).1.paths = (m'.submit x).1.paths := by
  cases x with
  | document g d => exact paths_addGroup_congr h g d
  | file fs g p =>
    have htag : (m.addTag g.name).paths = (m'.addTag g.name).paths := by
      rw [paths_addTag, paths_addTag, h]
    rw [submit, submit, addFile, addFile]
    cases fs.exists? p with
    | false => exact htag
    | true =>
      cases fs.read? p with
      | none => exact htag
      | some text =>
        dsimp only [Bool.not_true]
        cases (Json.read? text).bind Document.ofJson? with
        | none => exact htag
        | some d => exact paths_addGroup_congr htag g d

/-- The groups that did not fail are those with which nothing is wrong. -/
theorem submitted_submitAll (m : Merged) (xs : List Submission) :
    (m.submitAll xs).2 = xs.filter fun x => ¬ ∃ e, x.Fails e := by
  induction xs generalizing m with
  | nil => rfl
  | cons x xs ih =>
    rw [submitAll, ih, List.filter_cons]
    by_cases h : ∃ e, x.Fails e
    · have hsome : (m.submit x).2.isNone = false :=
        Bool.eq_false_iff.mpr fun hnone => isNone_submit_iff.mp hnone h
      simp [h, hsome]
    · have hnone : (m.submit x).2.isNone = true := isNone_submit_iff.mpr h
      simp [h, hnone]

/-- Groups that fail can be left out, from wherever merging goes on with the same paths. -/
theorem paths_submitAll_filter {m m' : Merged} (h : m.paths = m'.paths) (xs : List Submission) :
    (m'.submitAll (xs.filter fun x => ¬ ∃ e, x.Fails e)).1.paths = (m.submitAll xs).1.paths := by
  induction xs generalizing m m' with
  | nil => exact h.symm
  | cons x xs ih =>
    rw [List.filter_cons]
    by_cases hx : ∃ e, x.Fails e
    · obtain ⟨e, he⟩ := hx
      have hfailed : (m.submit x).2 ≠ none := by
        rw [submit_eq_some_iff.mpr he]
        exact Option.some_ne_none e
      have hpaths : (m.submit x).1.paths = m'.paths := by
        rw [submit_of_failure (.inl hfailed), paths_addTag, h]
      rw [if_neg (by simpa using ⟨e, he⟩), ih hpaths]
      rfl
    · rw [if_pos (by simpa using hx)]
      exact ih (paths_submit_congr h x)

/-- **A group that fails leaves the merge intact.** Of one that cannot be read, holds no document or
has a pattern that cannot be read, only the tag is kept, as of one whose file is missing; and after
any sequence of groups the paths are those of the groups that did not fail. -/
theorem intact_of_failures (m : Merged) (x : Submission) (xs : List Submission) :
    (∀ e, (m.submit x).2 = some e ↔ x.Fails e) ∧
      ((m.submit x).2 ≠ none ∨ x.IsMissing → (m.submit x).1.paths = m.paths ∧
        (m.submit x).1.tags =
          if x.group.name ∈ m.tags then m.tags else m.tags ++ [x.group.name]) ∧
      (m.submitAll xs).2 = xs.filter (fun x => ¬ ∃ e, x.Fails e) ∧
      (m.submitAll (m.submitAll xs).2).1.paths = (m.submitAll xs).1.paths := by
  refine ⟨fun e => submit_eq_some_iff, fun h => ?_, submitted_submitAll m xs, ?_⟩
  · rw [submit_of_failure h]
    exact ⟨paths_addTag m _, tags_addTag m _⟩
  · rw [submitted_submitAll]
    exact paths_submitAll_filter rfl xs

end

/-! ### A sequence in which most groups fail -/

section Mixed

attribute [local instance] Pattern.engine

def brokenFiles : Disk.Files :=
  ⟨[], [(["torn.json"], .file "\x7b"), (["folder.json"], .directory)]⟩

/-- A group whose last exclusion cannot be read. -/
def unreadableGroup : Group :=
  { name := "users", appTypePath := ⟨"users.ts"⟩
    exclusions := [.literal "/internal", .pattern "^/a", .pattern "("] }

/-- Between two groups that do not fail, one with a bad pattern, one with a torn file, one whose
file is a directory, and one without a file. -/
def mixedSubmissions : List Submission :=
  [.document { name := "users", appTypePath := ⟨"users.ts"⟩ }
      (.ofPaths [("/users/:id", PathItem.empty.put .get { summary := some "first" })]),
    .document unreadableGroup
      (.ofPaths [("/users/:id", PathItem.empty.put .get { summary := some "second" })]),
    .file brokenFiles { name := "torn", appTypePath := ⟨"torn.ts"⟩ } ⟨"/torn.json"⟩,
    .file brokenFiles { name := "folder", appTypePath := ⟨"folder.ts"⟩ } ⟨"/folder.json"⟩,
    .file brokenFiles { name := "missing", appTypePath := ⟨"missing.ts"⟩ } ⟨"/missing.json"⟩,
    .document { name := "admin", appTypePath := ⟨"admin.ts"⟩ }
      (.ofPaths [("/admin", PathItem.empty.put .get { summary := some "third" })])]

theorem intact_of_failures_mixed :
    let m := (empty.submitAll (mixedSubmissions.take 1)).1
    let x := Submission.document unreadableGroup
      (.ofPaths [("/users/:id", PathItem.empty.put .get { summary := some "second" })])
    (m.submit x).2 = some (.invalidConfig (.badPattern none "(")) ∧
      (m.submit x).1.paths = m.paths ∧ (m.submit x).1.tags = ["users"] ∧
      (empty.submitAll mixedSubmissions).2.map (·.group.name) = ["users", "missing", "admin"] ∧
      (empty.submitAll (empty.submitAll mixedSubmissions).2).1.paths =
        (empty.submitAll mixedSubmissions).1.paths ∧
      (empty.submitAll mixedSubmissions).1.paths.keys = ["/users/\x7bid\x7d", "/admin"] := by
  intro m x
  obtain ⟨-, hkept, -, hpaths⟩ := intact_of_failures m x mixedSubmissions
  have hfails : (m.submit x).2 = some (.invalidConfig (.badPattern none "(")) := by
    decide +kernel
  have hkept := hkept (.inl (by rw [hfails]; exact Option.some_ne_none _))
  have hall := (intact_of_failures empty x mixedSubmissions).2.2.2
  refine ⟨hfails, hkept.1, hkept.2.trans (by decide +kernel), by decide +kernel, hall, ?_⟩
  decide +kernel

end Mixed

end Merged

end Routebook
