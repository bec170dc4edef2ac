import Routebook.Proofs.Merge.WellFormed
import Routebook.Proofs.Path.Join

/-!
# Merging a merged document again

What merging does to a document it does once. Paths are put into their normal form, operations
without tags get one, responses that are described by a type are described anew or dropped; and
**none of these leaves anything that another of them would change** (`Merged.Settled`). So a group
that has no mount point, says nothing by hand and leaves nothing out takes a merged document over as
it is (`Merged.addGroup_of_neutral`).

This holds of every document that merging can come to, from whatever files and whatever was merged
before it failed. Such a document need not be well-formed: its paths may have no operations, and its
operations no summaries and no responses.
-/

namespace Routebook

/-! ## Operations -/

/-- An operation of which merging has nothing left to change. -/
structure Operation.Settled (o : Operation) : Prop where
  tagged : o.Tagged
  descriptions : ∀ r ∈ o.responses, ¬ typeMark <:+: r.2.description.toList

theorem not_typeMark_defaultDescription : ¬ typeMark <:+: defaultDescription.toList := by
  rw [← holdsText_iff]
  decide +kernel

/-- A response that is kept is not described by a type any more. -/
theorem Response.not_typeMark_of_cleaned? {r r' : Response} (h : r.cleaned? = some r') :
    ¬ typeMark <:+: r'.description.toList := by
  rw [cleaned?] at h
  split at h
  · next hdump =>
    obtain rfl := Option.some.inj h
    rwa [isTypeDump, Bool.not_eq_true', Bool.eq_false_iff, ne_eq, holdsText_iff] at hdump
  · split at h
    · exact absurd h (by simp)
    · obtain rfl := Option.some.inj h
      exact not_typeMark_defaultDescription

theorem not_typeMark_of_mem_cleanedResponses {rs : Table Response} {e : String × Response}
    (h : e ∈ cleanedResponses rs) : ¬ typeMark <:+: e.2.description.toList := by
  obtain ⟨⟨status, r⟩, -, hr⟩ := List.mem_filterMap.mp h
  obtain ⟨r', hcleaned, rfl⟩ := Option.map_eq_some_iff.mp hr
  exact Response.not_typeMark_of_cleaned? hcleaned

/-- Whatever an operation was, a group contributes a settled one. -/
theorem Group.settled_contribute (g : Group) (path : String) (m : Method) (o : Operation) :
    (g.contribute path m o).Settled := by
  rw [contribute]
  cases g.manualEntry? m path with
  | none =>
    exact ⟨Operation.tagged_withTag g.name o, fun _ => not_typeMark_of_mem_cleanedResponses⟩
  | some e =>
    exact ⟨Operation.tagged_withTag g.name (e.apply o),
      fun _ => not_typeMark_of_mem_cleanedResponses⟩

theorem Operation.Settled.withTag_eq {o : Operation} (h : o.Settled) (tag : String) :
    o.withTag tag = o := by
  obtain ⟨t, ts, htags⟩ := h.tagged
  rw [withTag, htags]
  rfl

/-- A group that says nothing by hand contributes a settled operation as it is. -/
theorem Group.contribute_of_settled {g : Group} (hmanual : g.manual = []) {o : Operation}
    (h : o.Settled) (path : String) (m : Method) : g.contribute path m o = o := by
  have hentry : g.manualEntry? m path = none := by
    rw [ manualEntry?, hmanual]
    rfl
  simp only [contribute, hentry, h.withTag_eq, cleanedResponses_eq_self h.descriptions]

/-! ## Merged documents -/

/-- A path item of which merging has nothing left to change. It may be empty. -/
def PathItem.Settled (item : PathItem) : Prop := ∀ m o, item.operation? m = some o → o.Settled

theorem PathItem.settled_empty : PathItem.empty.Settled := nofun

/-- What a group contributes to settled operations is settled, because the new ones are. -/
theorem PathItem.settled_merge {old : PathItem} (hold : old.Settled) (g : Group) (path : String)
    (item : PathItem) : (old.merge (item.mapOperations (g.contribute path))).Settled := by
  intro m o ho
  rw [merge, mapOperations] at ho
  cases hnew : item.operation? m with
  | none =>
    simp only [hnew, Option.map_none, Option.none_or] at ho
    exact hold m o ho
  | some p =>
    simp only [hnew, Option.map_some, Option.some_or] at ho
    obtain rfl := Option.some.inj ho
    exact g.settled_contribute path m p

/-- A group that has no mount point, says nothing by hand and leaves nothing out. -/
structure Group.Neutral (g : Group) : Prop where
  mount : g.mount = none
  manual : g.manual = []
  exclusions : g.exclusions = []

namespace Merged

/-- What merging comes to: documents of groups, from memory or from files, one after another. One
that fails leaves its tag, and others may follow. -/
inductive Reached [PatternEngine] : Merged → Prop
  | empty : Reached .empty
  | group {m : Merged} (h : Reached m) (g : Group) (d : Document) : Reached (m.addGroup g d).1
  | file {m : Merged} (h : Reached m) (fs : Disk.Files) (g : Group) (p : Disk.Path) :
    Reached (m.addFile fs g p).1

/-- Paths of which merging has nothing left to change. -/
structure Settled (ps : Table PathItem) : Prop where
  keyed : Table.Keyed PathItem.Settled ps
  normal : ∀ key ∈ Table.keys ps, Path.normalize key = key

theorem Settled.addPath {ps : Table PathItem} (h : Settled ps) (g : Group) (rules : Exclusions)
    (e : String × PathItem) : Settled (addPath g rules ps e) := by
  rw [Merged.addPath]
  dsimp only
  split
  · exact h
  · refine ⟨h.keyed.update (PathItem.settled_merge PathItem.settled_empty _ _ _) fun old hold =>
      PathItem.settled_merge hold _ _ _, fun key hkey => ?_⟩
    rw [Table.keys_update] at hkey
    split at hkey
    · exact h.normal key hkey
    · rcases List.mem_append.mp hkey with hkey | hkey
      · exact h.normal key hkey
      · rw [List.mem_singleton.mp hkey]
        exact Path.normalize_normalize _

theorem Settled.addGroup [PatternEngine] {m : Merged} (h : Settled m.paths) (g : Group)
    (d : Document) :
    Settled (m.addGroup g d).1.paths := by
  rw [Merged.addGroup, ← paths_addTag m g.name] at *
  generalize m.addTag g.name = m at h
  cases Exclusions.ofList g.exclusions with
  | error pattern => exact h
  | ok rules =>
    show Settled (d.paths.foldl (Merged.addPath g rules) m.paths)
    generalize m.paths = ps at h
    induction d.paths generalizing ps with
    | nil => exact h
    | cons e es ih => exact ih _ (h.addPath g rules e)

/-- **Whatever has been merged, merging has nothing left to change in it.** -/
theorem Reached.settled [PatternEngine] {m : Merged} (h : m.Reached) : Settled m.paths := by
  induction h with
  | empty => exact ⟨.nil, nofun⟩
  | group _ g d ih => exact ih.addGroup g d
  | @file m _ fs g p ih =>
    -- A file adds its group's tag, and its document if there is one.
    have htag : Settled (m.addTag g.name).paths := by
      rw [paths_addTag]
      exact ih
    rw [addFile]
    split
    · exact htag
    · split
      · exact htag
      · split
        · exact htag
        · exact htag.addGroup g _

/-! ## Once more -/

/-- A neutral group puts a settled path where the document has it. -/
theorem addPath_of_neutral {g : Group} (hg : g.Neutral) {e : String × PathItem}
    (hnormal : Path.normalize e.1 = e.1) (hitem : e.2.Settled) {ps : Table PathItem}
    (hnew : e.1 ∉ Table.keys ps) : addPath g ⟨[], []⟩ ps e = ps ++ [e] := by
  have hpath : g.fullPath e.1 = e.1 := by
    rw [Group.fullPath, hg.mount, Option.map_none, Option.getD_none, Path.join_empty, hnormal]
  have hsame : e.2.mapOperations (g.contribute e.1) = e.2 := by
    refine PathItem.ext_operation fun m => ?_
    cases ho : e.2.operation? m with
    | none => simp only [PathItem.mapOperations, ho, Option.map_none]
    | some o =>
      simp only [PathItem.mapOperations, ho, Option.map_some,
        Group.contribute_of_settled hg.manual (hitem m o ho)]
  have halone : PathItem.empty.merge e.2 = e.2 :=
    PathItem.ext_operation fun m => Option.or_none
  have hkept : Exclusions.excludes ⟨[], []⟩ e.1 = false := rfl
  simp only [addPath, hpath, hkept, hsame, Bool.false_eq_true, if_false, Table.update,
    Table.get?_eq_none_iff.mpr hnew, Option.getD_none, halone, Table.insert_of_not_mem hnew]

theorem foldl_addPath_of_neutral {g : Group} (hg : g.Neutral) {es : Table PathItem}
    (hes : Settled es) {ps : Table PathItem} (hnew : ∀ key ∈ Table.keys es, key ∉ Table.keys ps) :
    es.foldl (addPath g ⟨[], []⟩) ps = ps ++ es := by
  induction es generalizing ps with
  | nil => exact (List.append_nil ps).symm
  | cons e es ih =>
    obtain ⟨hfirst, hrest⟩ := List.nodup_cons.mp hes.keyed.nodup
    have htail : Settled es :=
      ⟨⟨hrest, fun d hd => hes.keyed.values d (List.mem_cons_of_mem _ hd)⟩,
        fun key hkey => hes.normal key (List.mem_cons_of_mem _ hkey)⟩
    rw [List.foldl_cons, addPath_of_neutral hg (hes.normal e.1 List.mem_cons_self)
      (hes.keyed.values e List.mem_cons_self) (hnew e.1 List.mem_cons_self),
      ih htail fun key hkey => ?_, List.append_assoc, List.singleton_append]
    rw [Table.keys, List.map_append, List.mem_append, not_or]
    refine ⟨hnew key (List.mem_cons_of_mem _ hkey), fun he => ?_⟩
    obtain rfl := List.mem_singleton.mp he
    exact hfirst hkey

/-- **A neutral group takes over a merged document as it is:** every path in its place, with its
operations, their tags and their responses. -/
theorem addGroup_of_neutral [PatternEngine] {m : Merged} (hm : m.Reached) {g : Group}
    (hg : g.Neutral) (openapi : String) (info : Info) (servers : Option (List Server)) :
    Merged.empty.addGroup g (m.document openapi info servers) = (⟨[g.name], m.paths⟩, none) := by
  rw [addGroup, hg.exclusions]
  show (_, none) = _
  have hpaths : m.paths.foldl (addPath g ⟨[], []⟩) [] = [] ++ m.paths :=
    foldl_addPath_of_neutral hg hm.settled fun _ _ => List.not_mem_nil
  rw [List.nil_append] at hpaths
  exact congrArg (fun ps => ((⟨[g.name], ps⟩ : Merged), (none : Option Error))) hpaths

attribute [local instance] Pattern.engine

/-- A document of which everything has to be changed, once merged: a path with a parameter,
responses that are described by types, an operation without tags, and a path without operations. -/
def remounted : Merged :=
  (empty.addGroup { name := "users", appTypePath := ⟨"users.ts"⟩, mount := some "/api" } <|
    .ofPaths [
      ("/users/:id", PathItem.empty.put .get {
        responses := [
          ("200", ⟨"import(\"./types\").User", some [("application/json", .ofType "object")]⟩),
          ("404", ⟨"import(\"./types\").Failure", none⟩)] }),
      ("/:", .empty)]).1

theorem reached_remounted : remounted.Reached := .group .empty _ _

theorem addGroup_of_neutral_remounted :
    remounted.Reached ∧ Group.Neutral { name := "all", appTypePath := ⟨"app.ts"⟩ } ∧
    remounted.paths.keys = ["/api/users/\x7bid\x7d", "/api/:"] ∧
    ((Paths.slot remounted.paths "/api/users/\x7bid\x7d" .get).map fun o =>
      (o.tags, o.responses.map fun r => (r.1, r.2.description))) =
        some (some ["users"], [("200", defaultDescription)]) ∧
    empty.addGroup { name := "all", appTypePath := ⟨"app.ts"⟩ }
      (remounted.document defaultOpenapi ⟨"", "", none⟩ none) =
        (⟨["all"], remounted.paths⟩, none) :=
  ⟨reached_remounted, ⟨rfl, rfl, rfl⟩, by decide +kernel, by decide +kernel,
    addGroup_of_neutral reached_remounted ⟨rfl, rfl, rfl⟩ _ _ _⟩

end Merged

end Routebook
