import Mathlib.Data.List.Basic
import Routebook.Proofs.Text.Dedent

/-!
# Slices at byte offsets

A text is stored as its bytes in UTF-8, and moving one to the left cuts it at byte offsets that were
counted beforehand. Such a cut is there only if the offset is not behind the end and not inside a
character (`cutBytes?`, `cutBytes?_eq_some_iff`). **Every cut of `slicedDedent?` is there**
(`slicedDedent?_eq`): what is counted is spaces and tabs, which are a byte each, so that texts made
of them share as many bytes as characters.
-/

namespace Routebook.Text

variable {a b cs line indent : List Char} {all block ls : List (List Char)}

/-! ## Bytes -/

def byteLength : List Char → Nat
  | [] => 0
  | c :: cs => c.utf8Size + byteLength cs

@[simp] theorem byteLength_nil : byteLength [] = 0 := rfl

@[simp] theorem byteLength_cons (c : Char) (cs : List Char) :
    byteLength (c :: cs) = c.utf8Size + byteLength cs := rfl

@[simp] theorem byteLength_append (a b : List Char) :
    byteLength (a ++ b) = byteLength a + byteLength b := by
  induction a with
  | nil => simp
  | cons c a ih => rw [List.cons_append, byteLength_cons, byteLength_cons, ih, Nat.add_assoc]

/-- The two parts of a text at a byte offset, if the offset is where a character begins or the text
ends. -/
def cutBytes? : Nat → List Char → Option (List Char × List Char)
  | 0, cs => some ([], cs)
  | _ + 1, [] => none
  | n + 1, c :: cs =>
    if c.utf8Size ≤ n + 1 then
      (cutBytes? (n + 1 - c.utf8Size) cs).map fun cut => (c :: cut.1, cut.2)
    else none

theorem cutBytes?_eq_some_iff {n : Nat} :
    cutBytes? n cs = some (a, b) ↔ a ++ b = cs ∧ byteLength a = n := by
  fun_induction cutBytes? n cs generalizing a b with
  | case1 cs =>
    cases a with
    | nil => simp [eq_comm]
    | cons c a => simp [(Char.utf8Size_pos c).ne']
  | case2 n =>
    simp only [reduceCtorEq, List.append_eq_nil_iff, false_iff]
    rintro ⟨⟨rfl, -⟩, hn⟩
    cases hn
  | case3 n c cs hle ih =>
    rw [Option.map_eq_some_iff]
    constructor
    · rintro ⟨⟨a', b'⟩, hcut, hparts⟩
      obtain ⟨rfl, hlength⟩ := ih.mp hcut
      obtain ⟨rfl, rfl⟩ : c :: a' = a ∧ b' = b := Prod.mk.inj hparts
      refine ⟨rfl, ?_⟩
      rw [byteLength_cons]
      omega
    · rintro ⟨hparts, hlength⟩
      cases a with
      | nil => cases hlength
      | cons d a =>
        obtain ⟨rfl, hrest⟩ := List.cons.inj hparts
        rw [byteLength_cons] at hlength
        exact ⟨(a, b), ih.mpr ⟨hrest, by omega⟩, rfl⟩
  | case4 n c cs hlt =>
    simp only [reduceCtorEq, false_iff]
    rintro ⟨hparts, hlength⟩
    cases a with
    | nil => cases hlength
    | cons d a =>
      obtain ⟨rfl, -⟩ := List.cons.inj hparts
      rw [byteLength_cons] at hlength
      omega

theorem cutBytes?_byteLength (a b : List Char) :
    cutBytes? (byteLength a) (a ++ b) = some (a, b) :=
  cutBytes?_eq_some_iff.mpr ⟨rfl, rfl⟩

/-- How many bytes two texts begin with that are the same. -/
def sharedBytes (a b : List Char) : Nat :=
  (((a.flatMap String.utf8EncodeChar).zip (b.flatMap String.utf8EncodeChar)).takeWhile
    fun both => both.1 == both.2).length

/-- **Spaces and tabs are a byte each,** so that the bytes two indentations share are characters. -/
theorem sharedBytes_eq (ha : IsIndentation a) (hb : IsIndentation b) :
    sharedBytes a b = byteLength (commonPrefix a b) := by
  fun_induction commonPrefix a b with
  | case1 as c bs ih =>
    have hrest : sharedBytes as bs = byteLength (commonPrefix as bs) :=
      ih (fun d hd => ha d (List.mem_cons_of_mem c hd)) fun d hd => hb d (List.mem_cons_of_mem c hd)
    have hbyte : ∃ byte, String.utf8EncodeChar c = [byte] ∧ c.utf8Size = 1 := by
      obtain rfl | rfl := ha c List.mem_cons_self
      · exact ⟨_, rfl, rfl⟩
      · exact ⟨_, rfl, rfl⟩
    obtain ⟨byte, hencode, hsize⟩ := hbyte
    rw [byteLength_cons, ← hrest, sharedBytes, List.flatMap_cons, List.flatMap_cons, hencode, hsize,
      List.singleton_append, List.singleton_append, List.zip_cons_cons,
      List.takeWhile_cons, if_pos (beq_self_eq_true byte), List.length_cons, sharedBytes,
      Nat.add_comm]
  | case2 c as d bs hne =>
    obtain rfl | rfl := ha c List.mem_cons_self
    · obtain rfl | rfl := hb d List.mem_cons_self
      · exact absurd rfl hne
      · rfl
    · obtain rfl | rfl := hb d List.mem_cons_self
      · rfl
      · exact absurd rfl hne
  | case3 as bs hnot =>
    cases as with
    | nil => rfl
    | cons c as =>
      cases bs with
      | nil => simp [sharedBytes]
      | cons d bs => exact (hnot c as d bs rfl rfl).elim

/-! ## Moving a text by slices -/

/-- The lines from one to before another one, if they are in that order and are there. -/
def sliceLines? (start stop : Nat) (ls : List (List Char)) : Option (List (List Char)) :=
  if start ≤ stop ∧ stop ≤ ls.length then some ((ls.take stop).drop start) else none

/-- The lines from the first with text up to the last with text. -/
def slicedBlock? (ls : List (List Char)) : Option (List (List Char)) :=
  let start := ls.findIdx fun line => !isAllBlank line
  let stop := match ls.reverse.findIdx? fun line => !isAllBlank line with
    | none => start
    | some i => ls.length - i
  sliceLines? start stop ls

/-- The indentation of a line, which is as long as what is not behind it. -/
def slicedIndentation? (line : List Char) : Option (List Char) :=
  let behind := line.dropWhile fun c => c == ' ' || c == '\t'
  (cutBytes? (byteLength line - byteLength behind) line).map Prod.fst

/-- One more line, after lines that have some indentation in common. -/
def sliceShared? (shared : Option (List Char)) (line : List Char) :
    Option (Option (List Char)) := do
  let indent ← slicedIndentation? line
  match shared with
  | none => return some indent
  | some shared => return some (← cutBytes? (sharedBytes shared indent) shared).1

def sliceLine? (indent line : List Char) : Option (List Char) :=
  if isAllBlank line then some []
  else (cutBytes? (byteLength indent) line).map fun cut => trimEnd cut.2

/-- A text moved to the left by slices, if all of them are there. -/
def slicedDedent? (cs : List Char) : Option (List Char) := do
  let block ← slicedBlock? (lines cs)
  let shared ← (block.filter fun line => !isAllBlank line).foldlM sliceShared? none
  return unlines (← block.mapM (sliceLine? (shared.getD [])))

/-- Behind blank lines, the first line with text has as many lines before it. -/
theorem findIdx?_append_cons {blanks : List (List Char)}
    (hblanks : ∀ line ∈ blanks, isAllBlank line = true) (hline : isAllBlank line = false) :
    (blanks ++ line :: ls).findIdx? (fun line => !isAllBlank line) = some blanks.length := by
  have hnone : blanks.findIdx? (fun line => !isAllBlank line) = none :=
    List.findIdx?_eq_none_iff.mpr fun line hline => by simp [hblanks line hline]
  rw [List.findIdx?_append, hnone, List.findIdx?_cons, hline]
  simp

theorem sliceLines?_append (before block after : List (List Char)) :
    sliceLines? before.length (before.length + block.length) (before ++ block ++ after) =
      some block := by
  have htake : (before ++ block ++ after).take (before.length + block.length) =
      before ++ block := by
    rw [← List.length_append, List.take_left]
  rw [sliceLines?, htake, List.drop_left, if_pos (by simp)]

theorem Block.slicedBlock?_eq (h : Block all block) : slicedBlock? all = some block := by
  obtain ⟨⟨before, after, rfl, hbefore, hafter⟩, hfirst, hlast⟩ := h
  obtain rfl | ⟨rest, last, rfl⟩ := List.eq_nil_or_concat' block
  · have hblank : ∀ line ∈ before ++ [] ++ after, (!isAllBlank line) = false := by
      simpa [or_imp, forall_and] using And.intro hbefore hafter
    have hstart := List.findIdx_eq_length_of_false hblank
    have hstop : (before ++ [] ++ after).reverse.findIdx? (fun line => !isAllBlank line) = none :=
      List.findIdx?_eq_none_iff.mpr fun line hline => hblank line (List.mem_reverse.mp hline)
    have hslice := sliceLines?_append (before ++ [] ++ after) [] []
    simp only [List.append_nil, List.length_nil, Nat.add_zero] at hslice hstart hstop
    simp only [slicedBlock?, List.append_nil, hstart, hstop, hslice]
  · have htext := hlast last (by simp)
    have hstart : (before ++ (rest ++ [last]) ++ after).findIdx (fun line => !isAllBlank line) =
        before.length := by
      have hne : rest ++ [last] ≠ [] := by simp
      obtain ⟨line, behind, hcons⟩ := List.exists_cons_of_ne_nil hne
      rw [hcons] at hfirst ⊢
      rw [List.append_assoc, List.cons_append]
      exact (List.findIdx?_eq_some_iff_findIdx_eq.mp
        (findIdx?_append_cons hbefore (hfirst line rfl))).2
    have hstop : (before ++ (rest ++ [last]) ++ after).reverse.findIdx?
        (fun line => !isAllBlank line) = some after.length := by
      have hreverse : (before ++ (rest ++ [last]) ++ after).reverse =
          after.reverse ++ last :: (rest.reverse ++ before.reverse) := by simp
      rw [hreverse, ← List.length_reverse]
      exact findIdx?_append_cons (fun line hline => hafter line (List.mem_reverse.mp hline)) htext
    have hlength : (before ++ (rest ++ [last]) ++ after).length - after.length =
        before.length + (rest ++ [last]).length := by
      rw [List.length_append, Nat.add_sub_cancel, List.length_append]
    simp only [slicedBlock?, hstart, hstop, hlength, sliceLines?_append]

theorem slicedIndentation?_eq (line : List Char) :
    slicedIndentation? line = some (indentation line) := by
  have hline : indentation line ++ line.dropWhile (fun c => c == ' ' || c == '\t') = line :=
    List.takeWhile_append_dropWhile
  have hlength := congrArg byteLength hline
  rw [byteLength_append] at hlength
  have hcut := cutBytes?_byteLength (indentation line)
    (line.dropWhile fun c => c == ' ' || c == '\t')
  rw [hline] at hcut
  rw [slicedIndentation?, ← hlength, Nat.add_sub_cancel, hcut]
  rfl

theorem isIndentation_indentation (line : List Char) : IsIndentation (indentation line) :=
  (prefix_indentation_iff.mp List.prefix_rfl).1

theorem sliceShared?_none (line : List Char) :
    sliceShared? none line = some (some (indentation line)) := by
  simp [sliceShared?, slicedIndentation?_eq]

theorem sliceShared?_some (ha : IsIndentation a) (line : List Char) :
    sliceShared? (some a) line = some (some (commonPrefix a (indentation line))) := by
  obtain ⟨⟨rest, hrest⟩, -⟩ := prefix_commonPrefix_iff.mp
    (List.prefix_rfl (l := commonPrefix a (indentation line)))
  have hcut := cutBytes?_byteLength (commonPrefix a (indentation line)) rest
  rw [hrest, ← sharedBytes_eq ha (isIndentation_indentation line)] at hcut
  simp [sliceShared?, slicedIndentation?_eq, hcut]

theorem foldlM_sliceShared? (ha : IsIndentation a) :
    ls.foldlM sliceShared? (some a) = some (some ((ls.map indentation).foldl commonPrefix a)) := by
  induction ls generalizing a with
  | nil => rfl
  | cons line ls ih =>
    have hshared : IsIndentation (commonPrefix a (indentation line)) := fun c hc =>
      ha c ((prefix_commonPrefix_iff.mp List.prefix_rfl).1.subset hc)
    rw [List.foldlM_cons, sliceShared?_some ha]
    exact ih hshared

theorem sliceLine?_eq (h : isAllBlank line = false → indent <+: line) :
    sliceLine? indent line = some (shiftLine indent line) := by
  cases hblank : isAllBlank line with
  | true => rw [sliceLine?, if_pos hblank, shiftLine_of_isAllBlank hblank]
  | false =>
    obtain ⟨rest, rfl⟩ := h hblank
    rw [sliceLine?, if_neg (by simp [hblank]), cutBytes?_byteLength, shiftLine_append hblank]
    rfl

theorem foldlM_sliceShared?_none (block : List (List Char)) :
    ∃ shared, (block.filter fun line => !isAllBlank line).foldlM sliceShared? none = some shared ∧
      shared.getD [] = commonIndentation block := by
  cases hlines : block.filter fun line => !isAllBlank line with
  | nil => exact ⟨none, rfl, by rw [commonIndentation, hlines]; rfl⟩
  | cons line ls =>
    refine ⟨some ((ls.map indentation).foldl commonPrefix (indentation line)), ?_, ?_⟩
    · rw [List.foldlM_cons, sliceShared?_none]
      exact foldlM_sliceShared? (isIndentation_indentation line)
    · rw [commonIndentation, hlines]
      rfl

theorem mapM_sliceLine? (h : ∀ line ∈ ls, isAllBlank line = false → indent <+: line) :
    ls.mapM (sliceLine? indent) = some (ls.map (shiftLine indent)) := by
  induction ls with
  | nil => rfl
  | cons line ls ih =>
    rw [List.mapM_cons, sliceLine?_eq (h line List.mem_cons_self),
      ih fun l hl => h l (List.mem_cons_of_mem line hl)]
    rfl

/-- **No slice is out of range or inside a character,** and together they move the text. -/
theorem slicedDedent?_eq (cs : List Char) : slicedDedent? cs = some (dedentChars cs) := by
  have hblock := block_withoutBlankEnds (lines cs)
  have hindent := hblock.commonIndentation
  obtain ⟨shared, hshared, hgetD⟩ := foldlM_sliceShared?_none (withoutBlankEnds (lines cs))
  have hlines := mapM_sliceLine? hindent.common
  simp only [slicedDedent?, hblock.slicedBlock?_eq, hshared, Option.bind_eq_bind,
    Option.bind_some, hgetD, hlines]
  rfl

/-- **A text moved to the left** is made of the lines of its block: the longest indentation that all
of them with text have in common is gone, and so are the blanks at their ends. All slices that are
taken on the way are there, and what was moved to the left stays where it is. -/
theorem dedent_eq_intercalate_shifted (s : String) :
    (∃ all block indent shifted, HasLines s.toList all ∧ Block all block ∧
      CommonIndentation block indent ∧ List.Forall₂ (Shifted indent) block shifted ∧
      (dedent s).toList = ['\n'].intercalate shifted) ∧
    slicedDedent? s.toList = some (dedent s).toList ∧ dedent (dedent s) = dedent s := by
  have hchars : (dedent s).toList = dedentChars s.toList := String.toList_ofList
  refine ⟨?_, ?_, ?_⟩
  · rw [hchars]
    exact dedentChars_eq s.toList
  · rw [hchars]
    exact slicedDedent?_eq s.toList
  · rw [dedent, hchars, dedentChars_dedentChars]
    rfl

/-- A tab and a space have nothing in common. -/
example : dedent "  \tx\n    y" = "\tx\n  y" := by decide +kernel

end Routebook.Text
