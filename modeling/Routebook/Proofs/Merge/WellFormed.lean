import Routebook.Proofs.Document.Build
import Routebook.Proofs.Merge.LastWriter
import Routebook.Proofs.Path.Normal

/-!
# Merging keeps documents well-formed

A merged document has its paths in normal form, none without an operation, and every operation of
it has a summary, a tag and a response (`wellFormed_of_addGroups`). Tags are what merging adds. What
it takes away are responses that are described by a type, **and no document that was built has
any**, so no operation loses its last response.
-/

namespace Routebook

/-! ## Types in descriptions -/

theorem holdsText_iff (part cs : List Char) : holdsText part cs = true ↔ part <:+: cs := by
  induction cs with
  | nil => simp [holdsText]
  | cons c cs ih =>
    rw [holdsText, Bool.or_eq_true, List.isPrefixOf_iff_prefix, ih, List.infix_cons_iff]

/-- Responses that are not described by types stay as they are. -/
theorem cleanedResponses_eq_self {rs : Table Response}
    (h : ∀ r ∈ rs, ¬ typeMark <:+: r.2.description.toList) : cleanedResponses rs = rs := by
  rw [cleanedResponses]
  induction rs with
  | nil => rfl
  | cons r rs ih =>
    have hr : r.2.cleaned? = some r.2 := by
      have : r.2.isTypeDump = false := by
        rw [Response.isTypeDump, ← Bool.not_eq_true, holdsText_iff]
        exact h r List.mem_cons_self
      rw [Response.cleaned?, this]
      rfl
    rw [List.filterMap_cons, ih fun q hq => h q (List.mem_cons_of_mem _ hq)]
    simp only [hr, Option.map_some]

/-! ## Contributed operations -/

/-- An operation that is listed under a tag. -/
def Operation.Tagged (o : Operation) : Prop := ∃ tag tags, o.tags = some (tag :: tags)

theorem Operation.tagged_withTag (tag : String) (o : Operation) : (o.withTag tag).Tagged := by
  rw [withTag]
  cases ho : o.tags with
  | none => exact ⟨tag, [], rfl⟩
  | some ts =>
    cases ts with
    | nil => exact ⟨tag, [], rfl⟩
    | cons t ts => exact ⟨t, ts, by simp [ho]⟩

theorem Operation.wellFormed_withTag {o : Operation} (h : o.WellFormed) (tag : String) :
    (o.withTag tag).WellFormed := by
  rw [withTag]
  split
  · exact ⟨h.summary, h.responses, h.descriptions⟩
  · exact h

/-- What is said by hand never takes a summary away. -/
theorem ManualEntry.wellFormed_apply {o : Operation} (h : o.WellFormed) (e : ManualEntry) :
    (e.apply o).WellFormed := by
  refine ⟨?_, h.responses, h.descriptions⟩
  rw [apply]
  cases he : e.summary with
  | none => simpa [he] using h.summary
  | some s => simp

/-- Cleaning leaves a well-formed operation as it is. -/
theorem Operation.cleaned_eq_self {o : Operation} (h : o.WellFormed) :
    { o with responses := cleanedResponses o.responses } = o := by
  rw [cleanedResponses_eq_self h.descriptions]

theorem Group.wellFormed_contribute {o : Operation} (h : o.WellFormed) (g : Group) (path : String)
    (m : Method) : (g.contribute path m o).WellFormed ∧ (g.contribute path m o).Tagged := by
  cases hm : g.manualEntry? m path with
  | none =>
    have hwf := Operation.wellFormed_withTag h g.name
    have heq : g.contribute path m o = o.withTag g.name := by
      rw [contribute, hm]
      exact Operation.cleaned_eq_self hwf
    rw [heq]
    exact ⟨hwf, Operation.tagged_withTag g.name o⟩
  | some e =>
    have hwf := Operation.wellFormed_withTag (ManualEntry.wellFormed_apply h e) g.name
    have heq : g.contribute path m o = (e.apply o).withTag g.name := by
      rw [contribute, hm]
      exact Operation.cleaned_eq_self hwf
    rw [heq]
    exact ⟨hwf, Operation.tagged_withTag g.name (e.apply o)⟩

/-! ## Merged documents -/

/-- A path item of a merged document. -/
structure PathItem.Merged (item : PathItem) : Prop where
  wellFormed : item.WellFormed
  tagged : ∀ m o, item.operation? m = some o → o.Tagged

/-- **What a reader of a merged document can rely on.** -/
structure Document.WellFormed (d : Document) : Prop where
  normal : ∀ e ∈ d.paths, Path.normalize e.1 = e.1
  settled : ∀ e ∈ d.paths, Path.Settled e.1.toList
  items : ∀ e ∈ d.paths, e.2.WellFormed
  tagged : ∀ e ∈ d.paths, ∀ m o, e.2.operation? m = some o → o.Tagged

/-- What a contribution adds to a path item of a merged document is one again. -/
theorem PathItem.merged_merge {c : Contribution} (hc : c.item.WellFormed) {old : PathItem}
    (hold : ∀ m o, old.operation? m = some o → o.WellFormed ∧ o.Tagged) :
    (old.merge (c.item.mapOperations (c.group.contribute c.key))).Merged := by
  have hall : ∀ m o, (old.merge (c.item.mapOperations (c.group.contribute c.key))).operation? m =
      some o → o.WellFormed ∧ o.Tagged := by
    intro m o ho
    rw [merge, mapOperations] at ho
    cases hnew : c.item.operation? m with
    | none =>
      simp only [hnew, Option.map_none, Option.none_or] at ho
      exact hold m o ho
    | some p =>
      simp only [hnew, Option.map_some, Option.some_or] at ho
      obtain rfl := Option.some.inj ho
      exact Group.wellFormed_contribute (hc.operations m p hnew) c.group c.key m
  refine ⟨⟨?_, fun m o ho => (hall m o ho).1⟩, fun m o ho => (hall m o ho).2⟩
  -- Merging takes no operation away, so what is contributed occupies the item.
  obtain ⟨m, hm⟩ := hc.occupied
  obtain ⟨p, hp⟩ := Option.isSome_iff_exists.mp hm
  refine ⟨m, ?_⟩
  rw [merge, mapOperations]
  simp only [hp, Option.map_some, Option.some_or, Option.isSome_some]

theorem keyed_foldl_addTo {cs : List Contribution} {ps : Paths}
    (hps : Table.Keyed PathItem.Merged ps)
    (hcs : ∀ c ∈ cs, c.item.WellFormed) :
    Table.Keyed PathItem.Merged (cs.foldl Contribution.addTo ps) := by
  induction cs generalizing ps with
  | nil => exact hps
  | cons c cs ih =>
    have hc := hcs c List.mem_cons_self
    refine ih (hps.update ?_ fun old hold => ?_) fun d hd => hcs d (List.mem_cons_of_mem _ hd)
    · exact PathItem.merged_merge hc fun m o ho => absurd ho (by simp [PathItem.empty])
    · exact PathItem.merged_merge hc fun m o ho =>
        ⟨hold.wellFormed.operations m o ho, hold.tagged m o ho⟩

/-- **Documents with well-formed operations are merged into a well-formed document.** -/
theorem Merged.wellFormed_of_addGroups [PatternEngine] {gds : GroupDocuments} {m : Merged}
    {openapi : String} {info : Info} {servers : Option (List Server)}
    (h : Merged.empty.addGroups gds = .ok m)
    (hgds : ∀ gd ∈ gds, ∀ e ∈ gd.2.paths, e.2.WellFormed) :
    (m.document openapi info servers).WellFormed := by
  obtain ⟨-, rfl⟩ := addGroups_eq_ok_iff.mp h
  have hcs : ∀ c ∈ gds.contributions, c.item.WellFormed := by
    intro c hc
    obtain ⟨gd, hgd, hc⟩ := List.mem_flatMap.mp hc
    obtain ⟨e, he, rfl⟩ := List.mem_map.mp hc
    exact hgds gd hgd e (List.mem_filter.mp he).1
  have hkeyed := keyed_foldl_addTo .nil hcs
  -- No path is put in that was not normalized by the group it comes from.
  have hkey : ∀ e ∈ gds.contributions.foldl Contribution.addTo [], ∃ path,
      e.1 = Path.normalize path := by
    intro e he
    have hmem : e.1 ∈ Table.keys (gds.contributions.foldl Contribution.addTo []) :=
      List.mem_map_of_mem he
    rw [keys_foldl_addTo] at hmem
    obtain ⟨c, -, hc⟩ := List.mem_map.mp (mem_firstOccurrences.mp hmem).1
    exact ⟨_, hc.symm⟩
  refine ⟨fun e he => ?_, fun e he => ?_, fun e he => (hkeyed.values e he).wellFormed,
    fun e he => (hkeyed.values e he).tagged⟩
  · obtain ⟨path, hpath⟩ := hkey e he
    rw [hpath, Path.normalize_normalize]
  · obtain ⟨path, hpath⟩ := hkey e he
    rw [hpath]
    exact Path.settled_normalize path

end Routebook
