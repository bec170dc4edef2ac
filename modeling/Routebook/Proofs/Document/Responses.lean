import Mathlib
import Routebook.Document.Build
import Routebook.Proofs.Session.Analysis
import Routebook.Proofs.Table

/-!
# Responses by status and media type

The branches of a method are sorted into responses one after another, first by status and then by
media type. Seen from the result, nothing of that order of work is left (`responses_eq_some_iff`):
**there is one response for each status, in the order in which the statuses first occur, and what it
holds under a media type are the schemas of all branches of that status and media type, in their
order.** A branch without content still counts for its status.

Every branch is asked for its schema once, in its turn (`answered`); sorting comes after that
(`responses_eq`). So the session is left as the branches leave it.
-/

namespace Routebook

open Disk (Files)

/-! ## Statuses -/

/-- The key of the responses of a status: the decimal number, or the word for no number. -/
def statusText : Option Nat → String
  | some code => toString code
  | none => defaultStatus

theorem Branch.statusKey_eq (b : Branch) : b.statusKey = statusText b.status := by
  rw [statusKey]
  cases b.status <;> rfl

/-- Different statuses have different keys: no number is written as the word. -/
theorem statusText_injective : Function.Injective statusText := by
  have hword : ∀ code : Nat, toString code ≠ defaultStatus := by
    intro code h
    have hnumber : defaultStatus.isNat = true := h ▸ Nat.isNat_repr code
    exact absurd hnumber (by cbv; exact Bool.false_ne_true)
  intro a b h
  match a, b with
  | some m, some n => rw [Nat.repr_inj.mp h]
  | some m, none => exact absurd h (hword m)
  | none, some n => exact absurd h.symm (hword n)
  | none, none => rfl

/-! ## What branches answer -/

/-- A branch with the schema of its content, if it has any. -/
abbrev AnsweredBranch := Branch × Option Schema

/-- What branches of a status contain: the media type and the schema of each that has content, in
their order. -/
def contentsFor (as : List AnsweredBranch) (status : Option Nat) : List (String × Schema) :=
  (as.filter fun a => a.1.status = status).filterMap fun a => a.2.map fun s => (a.1.mediaType, s)

/-- The schemas among them under one media type. -/
def schemasFor (as : List AnsweredBranch) (status : Option Nat) (mediaType : String) :
    List Schema :=
  ((contentsFor as status).filter fun c => c.1 = mediaType).map Prod.snd

/-- One schema for all: none for none, the only one as it is, and a choice between several. -/
def combined : List Schema → Option Schema
  | [] => none
  | [s] => some s
  | ss => some (.ofAlternatives ss)

/-- What the response of a status has to be. -/
structure Response.Collects (r : Response) (as : List AnsweredBranch) (status : Option Nat) :
    Prop where
  description : r.description = statusDescription (statusText status)
  content : ∀ mediaType,
    Table.get? (r.content.getD []) mediaType = combined (schemasFor as status mediaType)
  mediaTypes :
    Table.keys (r.content.getD []) = firstOccurrences [] ((contentsFor as status).map Prod.fst)
  noContent : r.content = none ↔ contentsFor as status = []

/-- What the responses of some branches have to be. -/
structure Grouped (as : List AnsweredBranch) (rs : Table Response) : Prop where
  statuses : Table.keys rs = (firstOccurrences [] (as.map fun a => a.1.status)).map statusText
  response : ∀ status r, Table.get? rs (statusText status) = some r → r.Collects as status

/-! ## Nothing else is a grouping -/

theorem Response.Collects.unique {r r' : Response} {as : List AnsweredBranch} {status : Option Nat}
    (h : r.Collects as status) (h' : r'.Collects as status) : r = r' := by
  have hcontent : r.content.getD [] = r'.content.getD [] := by
    refine Table.ext_get? ?_ (h.mediaTypes.trans h'.mediaTypes.symm) fun mediaType => ?_
    · rw [h.mediaTypes]
      exact nodup_firstOccurrences ..
    · rw [h.content, h'.content]
  have hnone : r.content = none ↔ r'.content = none := h.noContent.trans h'.noContent.symm
  obtain ⟨description, content⟩ := r
  obtain ⟨description', content'⟩ := r'
  obtain rfl : description = description' := h.description.trans h'.description.symm
  cases content with
  | none => exact congrArg _ (hnone.mp rfl).symm
  | some c =>
    cases content' with
    | none => exact absurd (hnone.mpr rfl) (by simp)
    | some c' => rw [show c = c' from hcontent]

theorem Grouped.unique {as : List AnsweredBranch} {rs rs' : Table Response} (h : Grouped as rs)
    (h' : Grouped as rs') : rs = rs' := by
  have hkeys : Table.keys rs = Table.keys rs' := h.statuses.trans h'.statuses.symm
  refine Table.ext_get? ?_ hkeys fun key => ?_
  · rw [h.statuses]
    exact (nodup_firstOccurrences ..).map statusText_injective
  by_cases hkey : key ∈ Table.keys rs
  · have hsome : ∀ ts : Table Response, key ∈ Table.keys ts → ∃ r, Table.get? ts key = some r := by
      intro ts hts
      rw [← Option.ne_none_iff_exists', ne_eq, Table.get?_eq_none_iff]
      exact not_not_intro hts
    obtain ⟨r, hr⟩ := hsome rs hkey
    obtain ⟨r', hr'⟩ := hsome rs' (hkeys ▸ hkey)
    -- Every key is the key of a status, and both have the one response that collects for it.
    obtain ⟨status, -, rfl⟩ := List.mem_map.mp (h.statuses ▸ hkey)
    rw [hr, hr', (h.response status r hr).unique (h'.response status r' hr')]
  · rw [Table.get?_eq_none_iff.mpr hkey, Table.get?_eq_none_iff.mpr (hkeys ▸ hkey)]

/-! ## Sorting -/

namespace ResponseGroups

/-- Put a branch into the groups. -/
def addAnswer (gs : ResponseGroups) (a : AnsweredBranch) : ResponseGroups :=
  let gs := gs.addStatus a.1.statusKey
  match a.2 with
  | none => gs
  | some s => gs.addSchema a.1.statusKey a.1.mediaType s

/-- The content of a status after one more branch of it. -/
def addContent (a : AnsweredBranch) (content : Table (List Schema)) : Table (List Schema) :=
  match a.2 with
  | none => content
  | some s => Table.update a.1.mediaType (fun ss => ss.getD [] ++ [s]) content

/-- A branch changes nothing but the content of its status. -/
theorem addAnswer_eq (gs : ResponseGroups) (a : AnsweredBranch) :
    gs.addAnswer a =
      Table.update (statusText a.1.status) (fun c => addContent a (c.getD [])) gs := by
  obtain ⟨b, schema⟩ := a
  rw [addAnswer, ← b.statusKey_eq]
  cases schema with
  | none => rfl
  | some s => exact Table.update_update ..

theorem keys_foldl_addAnswer (as : List AnsweredBranch) :
    Table.keys (as.foldl addAnswer []) =
      (firstOccurrences [] (as.map fun a => a.1.status)).map statusText := by
  simp only [funext₂ addAnswer_eq]
  rw [Table.keys_foldl_update (fun a : AnsweredBranch => statusText a.1.status)
    (fun a c => addContent a (c.getD [])), ← firstOccurrences_map statusText_injective,
    List.map_map]
  rfl

/-- The content of a status is made by its own branches. -/
theorem get?_foldl_addAnswer {as : List AnsweredBranch} {status : Option Nat}
    {content : Table (List Schema)}
    (h : Table.get? (as.foldl addAnswer []) (statusText status) = some content) :
    content = (as.filter fun a => a.1.status = status).foldl (fun c a => addContent a c) [] := by
  have hfold : ∀ (as : List AnsweredBranch) (old : Option (Table (List Schema))),
      (as.foldl (fun old a => some (addContent a (old.getD []))) old).getD [] =
        as.foldl (fun c a => addContent a c) (old.getD []) := by
    intro as
    induction as with
    | nil => exact fun _ => rfl
    | cons a as ih => exact fun old => ih _
  simp only [funext₂ addAnswer_eq] at h
  rw [Table.get?_foldl_update (fun a : AnsweredBranch => statusText a.1.status)
    (fun a c => addContent a (c.getD []))] at h
  have hcontent := hfold (as.filter fun a => statusText a.1.status = statusText status) none
  simp only [statusText_injective.eq_iff] at h hcontent
  exact (congrArg (·.getD []) h).symm.trans hcontent

theorem foldl_addContent (as : List AnsweredBranch) (c : Table (List Schema)) :
    as.foldl (fun c a => addContent a c) c =
      (as.filterMap fun a => a.2.map fun s => (a.1.mediaType, s)).foldl
        (fun c p => Table.update p.1 (fun ss => ss.getD [] ++ [p.2]) c) c := by
  induction as generalizing c with
  | nil => rfl
  | cons a as ih =>
    obtain ⟨b, schema⟩ := a
    cases schema with
    | none => exact ih c
    | some s => exact ih _

end ResponseGroups

theorem foldl_append_singleton (ss : List Schema) (old : Option (List Schema)) :
    ss.foldl (fun old s => some (old.getD [] ++ [s])) old =
      if ss = [] then old else some (old.getD [] ++ ss) := by
  induction ss generalizing old with
  | nil => rfl
  | cons s ss ih =>
    rw [List.foldl_cons, ih]
    by_cases h : ss = []
    · simp [h]
    · simp [h]

theorem map_choice_eq_combined (ss : List Schema) :
    (if ss = [] then none else some ss).map choice = combined ss := by
  match ss with
  | [] => rfl
  | [s] => rfl
  | s :: t :: ss => rfl

/-- The response that is made of some branches of a status collects them. -/
theorem collects_responseOf (as : List AnsweredBranch) (status : Option Nat) :
    (responseOf (statusText status) ((as.filter fun a => a.1.status = status).foldl
      (fun c a => ResponseGroups.addContent a c) [])).Collects as status := by
  rw [ResponseGroups.foldl_addContent]
  change (responseOf (statusText status) ((contentsFor as status).foldl _ [])).Collects as status
  generalize hcontent : (contentsFor as status).foldl
    (fun c p => Table.update p.1 (fun ss => ss.getD [] ++ [p.2]) c) [] = content
  have hkeys : Table.keys content =
      firstOccurrences [] ((contentsFor as status).map Prod.fst) := by
    rw [← hcontent]
    exact Table.keys_foldl_update Prod.fst
      (fun p : String × Schema => fun ss => ss.getD [] ++ [p.2]) (contentsFor as status) []
  have hget : ∀ mediaType, Table.get? content mediaType =
      if schemasFor as status mediaType = [] then none
      else some (schemasFor as status mediaType) := by
    intro mediaType
    rw [← hcontent, Table.get?_foldl_update Prod.fst
      (fun p : String × Schema => fun ss => ss.getD [] ++ [p.2])]
    have hfold := foldl_append_singleton (schemasFor as status mediaType) none
    rw [schemasFor, List.foldl_map] at hfold
    exact hfold
  -- A response without content and one with an empty table of contents are the same to ask for.
  have hchosen : (responseOf (statusText status) content).content.getD [] =
      content.map fun e => (e.1, choice e.2) := by
    cases content with
    | nil => rfl
    | cons e content => rfl
  refine ⟨rfl, fun mediaType => ?_, ?_, ?_⟩
  · rw [hchosen, Table.get?_map fun _ => choice, hget]
    exact map_choice_eq_combined _
  · rw [hchosen, Table.keys_map fun _ => choice, hkeys]
  · have hempty : content = [] ↔ contentsFor as status = [] := by
      rw [← List.map_eq_nil_iff, show content.map Prod.fst = _ from hkeys]
      cases contentsFor as status with
      | nil => simp [firstOccurrences]
      | cons c cs => simp [firstOccurrences]
    rw [← hempty]
    cases content with
    | nil => simp [responseOf]
    | cons e content => simp [responseOf]

/-- Branches that are sorted into groups are grouped. -/
theorem grouped_foldl_addAnswer (as : List AnsweredBranch) :
    Grouped as ((as.foldl ResponseGroups.addAnswer []).map fun e => (e.1, responseOf e.1 e.2)) := by
  constructor
  · rw [Table.keys_map, ResponseGroups.keys_foldl_addAnswer]
  · intro status r hr
    rw [Table.get?_map, Option.map_eq_some_iff] at hr
    obtain ⟨content, hcontent, rfl⟩ := hr
    rw [ResponseGroups.get?_foldl_addAnswer hcontent]
    exact collects_responseOf as status

namespace Session

variable {fs : Files} {s s' : Session}

/-- The schema of what a branch contains: that of its output, unless it has none or one that is no
content. Which output it is comes to light when its names are resolved. -/
def contentOf (b : Branch) : Analysis (Option Schema) := do
  match b.output with
  | none => return none
  | some output =>
    let output ← resolve output
    if isNoContent output then return none else return some (← schemaOf output)

def answered (b : Branch) : Analysis AnsweredBranch := do return (b, ← contentOf b)

theorem addBranch_eq (gs : ResponseGroups) (b : Branch) :
    addBranch gs b = do return gs.addAnswer (← answered b) := by
  rw [addBranch, answered, contentOf]
  cases b.output with
  | none => rfl
  | some output =>
    simp only [bind_assoc]
    refine bind_congr fun resolved => ?_
    split
    · rfl
    · simp only [bind_assoc, pure_bind]
      rfl

theorem responses_eq (branches : List Branch) : responses branches = do
    let as ← branches.mapM answered
    return (as.foldl ResponseGroups.addAnswer []).map fun e => (e.1, responseOf e.1 e.2) := by
  rw [responses, Analysis.foldlM_eq_mapM_foldl addBranch_eq]
  simp only [bind_assoc, pure_bind]

/-- **Branches come to the responses that group them, and to no others.** They come to none only
where one of them has no outcome. -/
theorem responses_eq_some_iff {branches : List Branch} {rs : Table Response} :
    (responses branches).on fs s = some (rs, s') ↔
      ∃ as, (branches.mapM answered).on fs s = some (as, s') ∧ Grouped as rs := by
  rw [responses_eq]
  constructor
  · intro h
    obtain ⟨as, s₁, has, h⟩ := Analysis.on_bind_eq_some.mp h
    obtain ⟨rfl, rfl⟩ := Analysis.on_pure_eq_some.mp h
    exact ⟨as, has, grouped_foldl_addAnswer as⟩
  · rintro ⟨as, has, hgrouped⟩
    rw [hgrouped.unique (grouped_foldl_addAnswer as)]
    exact Analysis.on_bind has

end Session

end Routebook
