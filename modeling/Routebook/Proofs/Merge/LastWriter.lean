import Routebook.Merge.Basic
import Routebook.Pattern.Reader
import Routebook.Proofs.Table

/-!
# The last writer of an operation

Merging the documents of groups one after another is putting the paths they contribute into one
table, one after another (`addGroups_eq_ok_iff`). From that, `addGroups_lastWriter` says what the
merged document is without a table: **its paths are the contributed ones in the order in which they
first occur, and at each path and method stands what the last contribution to it wrote there.**
Several paths of a document, or of several documents, may become the same path.

Merging everything once more then changes nothing: no path is new, and the last writer of each
operation is the one it has already.
-/

namespace Routebook

/-! ## Contributions -/

/-- Whether a path of the group's document is left out. -/
def Group.leavesOut [PatternEngine] (g : Group) (path : String) : Bool :=
  match Exclusions.ofList g.exclusions with
  | .ok rules => rules.excludes (g.fullPath path)
  | .error _ => false

/-- A path of a group's document that is not left out, and its operations there. -/
structure Contribution where
  group : Group
  path : String
  item : PathItem

namespace Contribution

/-- The path in the merged document. -/
def key (c : Contribution) : String := c.group.fullPath c.path

/-- The operation that is contributed for a method, as the group writes it. -/
def operation? (c : Contribution) (m : Method) : Option Operation :=
  (c.item.operation? m).map (c.group.contribute c.key m)

/-- Put a contribution into the paths that have been merged so far. -/
def addTo (ps : Table PathItem) (c : Contribution) : Table PathItem :=
  Table.update c.key
    (fun old => (old.getD .empty).merge (c.item.mapOperations (c.group.contribute c.key))) ps

/-- What the last of some contributions to a path and method writes there. -/
def lastWritten (cs : List Contribution) (path : String) (m : Method) : Option Operation :=
  cs.reverse.findSome? fun c => if c.key = path then c.operation? m else none

end Contribution

/-- What a group contributes, in the order of its document. -/
def Group.contributions [PatternEngine] (g : Group) (d : Document) : List Contribution :=
  (d.paths.filter fun e => !g.leavesOut e.1).map fun e => ⟨g, e.1, e.2⟩

/-- Groups with their documents, in the order in which they are merged. -/
abbrev GroupDocuments := List (Group × Document)

/-- What all groups contribute, in the order of the groups. -/
def GroupDocuments.contributions [PatternEngine] (gds : GroupDocuments) : List Contribution :=
  gds.flatMap fun gd => gd.1.contributions gd.2

namespace Merged

/-- Merge the documents of some groups one after another, up to the first that fails. -/
def addGroups [PatternEngine] (m : Merged) : GroupDocuments → Except Error Merged
  | [] => .ok m
  | (g, d) :: rest =>
    match m.addGroup g d with
    | (m, none) => m.addGroups rest
    | (_, some e) => .error e

/-! ## Merging as a fold over the contributions -/

theorem foldl_addPath [PatternEngine] {g : Group} {rules : Exclusions}
    (h : Exclusions.ofList g.exclusions = .ok rules) (es ps : Table PathItem) :
    es.foldl (addPath g rules) ps =
      ((es.filter fun e => !g.leavesOut e.1).map fun e => (⟨g, e.1, e.2⟩ : Contribution)).foldl
        Contribution.addTo ps := by
  induction es generalizing ps with
  | nil => rfl
  | cons e es ih =>
    have hout : g.leavesOut e.1 = rules.excludes (g.fullPath e.1) := by rw [Group.leavesOut, h]
    rw [List.foldl_cons, ih, addPath, ← hout]
    cases he : g.leavesOut e.1 with
    | true => simp [he]
    | false => simp [he, Contribution.addTo, Contribution.key]

theorem tags_addTag (m : Merged) (name : String) :
    (m.addTag name).tags = if name ∈ m.tags then m.tags else m.tags ++ [name] := by
  rw [addTag]
  by_cases h : name ∈ m.tags
  · rw [if_pos (List.contains_iff_mem.mpr h), if_pos h]
  · rw [if_neg (fun hc => h (List.contains_iff_mem.mp hc)), if_neg h]

theorem paths_addTag (m : Merged) (name : String) : (m.addTag name).paths = m.paths := by
  rw [addTag]
  split <;> rfl

theorem addTag_addTag (m : Merged) (name : String) :
    (m.addTag name).addTag name = m.addTag name := by
  have hmem : (m.addTag name).tags.contains name = true := by
    rw [List.contains_iff_mem, tags_addTag]
    split
    · assumption
    · exact List.mem_append_right _ (List.mem_singleton_self _)
  rw [addTag, if_pos hmem]

/-- Merging succeeds exactly if every group's exclusions can be read, and what it comes to does not
depend on how the contributions are spread over the groups. -/
theorem addGroups_eq_ok_iff [PatternEngine] {m m' : Merged} {gds : GroupDocuments} :
    m.addGroups gds = .ok m' ↔
      (∀ gd ∈ gds, ∃ rules, Exclusions.ofList gd.1.exclusions = .ok rules) ∧
        m' = ⟨m.tags ++ firstOccurrences m.tags (gds.map fun gd => gd.1.name),
          gds.contributions.foldl Contribution.addTo m.paths⟩ := by
  induction gds generalizing m with
  | nil => simp [addGroups, firstOccurrences, GroupDocuments.contributions, eq_comm]
  | cons gd rest ih =>
    obtain ⟨g, d⟩ := gd
    cases h : Exclusions.ofList g.exclusions with
    | error pattern => simp [addGroups, addGroup, h]
    | ok rules =>
      -- What the first group leaves is its tag and its contributions, and the rest goes on there.
      have hadd : m.addGroups ((g, d) :: rest) = addGroups ⟨(m.addTag g.name).tags,
          (g.contributions d).foldl Contribution.addTo m.paths⟩ rest := by
        simp only [addGroups, addGroup, h, paths_addTag, foldl_addPath h, Group.contributions]
      rw [hadd, ih, List.map_cons, append_firstOccurrences_cons, ← tags_addTag]
      simp only [List.forall_mem_cons, h, Except.ok.injEq, exists_eq', true_and,
        GroupDocuments.contributions, List.flatMap_cons, List.foldl_append]

/-! ## The table of the contributions -/

theorem keys_foldl_addTo (cs : List Contribution) (ps : Paths) :
    Table.keys (cs.foldl Contribution.addTo ps) =
      Table.keys ps ++ firstOccurrences (Table.keys ps) (cs.map Contribution.key) :=
  Table.keys_foldl_update Contribution.key _ cs ps

theorem slot_addTo (ps : Paths) (c : Contribution) (path : String) (m : Method) :
    Paths.slot (c.addTo ps) path m =
      (if c.key = path then c.operation? m else none).or (ps.slot path m) := by
  rw [Paths.slot, Contribution.addTo, Table.get?_update]
  by_cases h : c.key = path
  · rw [if_pos h, if_pos h.symm, ← h, Paths.slot]
    cases hold : Table.get? ps c.key with
    | none => simp [PathItem.merge, PathItem.mapOperations, PathItem.empty, Contribution.operation?]
    | some item => simp [PathItem.merge, PathItem.mapOperations, Contribution.operation?]
  · rw [if_neg h, if_neg fun he => h he.symm, Option.none_or, Paths.slot]

/-- Later contributions win over earlier ones, and any over what was there before. -/
theorem slot_foldl_addTo (cs : List Contribution) (ps : Paths) (path : String) (m : Method) :
    Paths.slot (cs.foldl Contribution.addTo ps) path m =
      (Contribution.lastWritten cs path m).or (ps.slot path m) := by
  induction cs generalizing ps with
  | nil => simp [Contribution.lastWritten]
  | cons c cs ih =>
    -- The head is the earliest writer: it counts only where no later one writes.
    rw [List.foldl_cons, ih, slot_addTo, ← Option.or_assoc]
    congr 1
    simp only [Contribution.lastWritten, List.reverse_cons, List.findSome?_append]
    cases h : cs.reverse.findSome? fun c => if c.key = path then c.operation? m else none with
    | none => simp
    | some o => simp

/-- **The last writer of an operation has it, and a path keeps the place of its first.** -/
theorem addGroups_lastWriter [PatternEngine] {gds : GroupDocuments} {m : Merged} {openapi : String}
    {info : Info} {servers : Option (List Server)} (h : Merged.empty.addGroups gds = .ok m) :
    Table.keys (m.document openapi info servers).paths =
        firstOccurrences [] (gds.contributions.map Contribution.key) ∧
      (∀ path method, Paths.slot (m.document openapi info servers).paths path method =
        Contribution.lastWritten gds.contributions path method) ∧
      m.addGroups gds = .ok m := by
  obtain ⟨hread, rfl⟩ := addGroups_eq_ok_iff.mp h
  have hkeys : Table.keys (gds.contributions.foldl Contribution.addTo []) =
      firstOccurrences [] (gds.contributions.map Contribution.key) := keys_foldl_addTo _ []
  have hslot : ∀ path method, Paths.slot (gds.contributions.foldl Contribution.addTo []) path method
      = Contribution.lastWritten gds.contributions path method := by
    intro path method
    rw [slot_foldl_addTo]
    exact Option.or_none
  refine ⟨hkeys, hslot, addGroups_eq_ok_iff.mpr ⟨hread, ?_⟩⟩
  -- The second round finds every tag, every path and every operation as it would write them.
  have htags : firstOccurrences (firstOccurrences [] (gds.map fun gd => gd.1.name))
      (gds.map fun gd => gd.1.name) = [] :=
    firstOccurrences_eq_nil fun a ha => mem_firstOccurrences.mpr ⟨ha, List.not_mem_nil⟩
  have hold : ∀ key ∈ gds.contributions.map Contribution.key,
      key ∈ Table.keys (gds.contributions.foldl Contribution.addTo []) := by
    intro key hkey
    rw [hkeys]
    exact mem_firstOccurrences.mpr ⟨hkey, List.not_mem_nil⟩
  have hagain : gds.contributions.foldl Contribution.addTo [] =
      gds.contributions.foldl Contribution.addTo
        (gds.contributions.foldl Contribution.addTo []) := by
    refine Paths.ext_slot ?_ ?_ fun path method => ?_
    · rw [hkeys]
      exact nodup_firstOccurrences ..
    · rw [keys_foldl_addTo _ (gds.contributions.foldl Contribution.addTo []),
        firstOccurrences_eq_nil hold, List.append_nil]
    · rw [slot_foldl_addTo _ (gds.contributions.foldl Contribution.addTo []), hslot,
        Option.or_self]
  simp only [Merged.empty, List.nil_append, htags, List.append_nil, ← hagain]

attribute [local instance] Pattern.engine

/-- A group whose two spellings of one path become the same, and one that adds to it. -/
def sharedPath : GroupDocuments :=
  [({ name := "users", appTypePath := ⟨"users.ts"⟩, mount := some "/api/",
      exclusions := [.literal "/api/internal"] },
    .ofPaths [("/users/:id", PathItem.empty.put .get { summary := some "first" }),
      ("/internal", PathItem.empty.put .get { summary := some "left out" }),
      ("users/\x7bid\x7d", PathItem.empty.put .get { summary := some "second" })]),
    ({ name := "admin", appTypePath := ⟨"admin.ts"⟩ },
    .ofPaths [("/admin", PathItem.empty.put .get { summary := some "third" }),
      ("/api/users/:id\x7b[0-9]+\x7d", PathItem.empty.put .delete { summary := some "fourth" })])]

theorem addGroups_lastWriter_sharedPath :
    ∃ m, Merged.empty.addGroups sharedPath = .ok m ∧
      Table.keys (m.document defaultOpenapi ⟨"", "", none⟩ none).paths =
        ["/api/users/\x7bid\x7d", "/admin"] ∧
      (Paths.slot (m.document defaultOpenapi ⟨"", "", none⟩ none).paths "/api/users/\x7bid\x7d"
        .get).bind Operation.summary = some "second" ∧
      (Paths.slot (m.document defaultOpenapi ⟨"", "", none⟩ none).paths "/api/users/\x7bid\x7d"
        .delete).bind Operation.tags = some ["admin"] ∧
      m.addGroups sharedPath = .ok m := by
  have hread : ∀ gd ∈ sharedPath, ∃ rules, Exclusions.ofList gd.1.exclusions = .ok rules := by
    intro gd hgd
    simp only [sharedPath, List.mem_cons, List.not_mem_nil, or_false] at hgd
    rcases hgd with rfl | rfl
    · exact ⟨⟨[Path.normalize "/api/internal"], []⟩, rfl⟩
    · exact ⟨⟨[], []⟩, rfl⟩
  have h := (addGroups_eq_ok_iff (m := Merged.empty)).mpr ⟨hread, rfl⟩
  obtain ⟨hkeys, hslot, hagain⟩ := addGroups_lastWriter h
  refine ⟨_, h, hkeys.trans (by decide +kernel), ?_, ?_, hagain⟩
  · rw [hslot]
    decide +kernel
  · rw [hslot]
    decide +kernel

end Merged

end Routebook
