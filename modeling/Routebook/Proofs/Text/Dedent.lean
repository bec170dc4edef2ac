import Mathlib.Data.List.DropRight
import Mathlib.Data.List.Forall2
import Routebook.Proofs.Text.Lines

/-!
# A text moved to the left

**`dedent` takes away the longest indentation that all lines with text have in common, and nothing
else but blanks at line ends and blank lines at either end** (`dedentChars_eq`). The walk keeps a
common beginning of the indentations it has seen; that it is the longest follows from what begins a
common beginning: just what begins both (`prefix_commonPrefix_iff`).

What was moved to the left once stays where it is (`dedentChars_dedentChars`): its lines have no
indentation in common any more, or it would not have been the longest that was taken.
-/

namespace Routebook.Text

variable {c : Char} {a b p line kept indent : List Char} {all block ls : List (List Char)}

/-! ## Blanks -/

theorem isAllBlank_eq_false_iff : isAllBlank line = false ↔ ∃ c ∈ line, isBlank c = false := by
  simp [isAllBlank]

theorem trimEnd_eq_rdropWhile (cs : List Char) : trimEnd cs = cs.rdropWhile isBlank := rfl

theorem withoutBlankEnds_eq_rdropWhile (ls : List (List Char)) :
    withoutBlankEnds ls = (ls.dropWhile isAllBlank).rdropWhile isAllBlank := rfl

/-- Whether the last character of a text is there and is no blank. -/
def EndsInText (cs : List Char) : Prop := ∃ c, cs.getLast? = some c ∧ isBlank c = false

theorem EndsInText.isAllBlank (h : EndsInText line) : isAllBlank line = false := by
  obtain ⟨c, hlast, hc⟩ := h
  exact isAllBlank_eq_false_iff.mpr ⟨c, List.mem_of_getLast? hlast, hc⟩

theorem EndsInText.trimEnd_eq (h : EndsInText line) : trimEnd line = line := by
  obtain ⟨c, hlast, hc⟩ := h
  rw [trimEnd_eq_rdropWhile, List.rdropWhile_eq_self_iff]
  intro hne
  rw [List.getLast?_eq_some_getLast hne] at hlast
  rw [Option.some.inj hlast, hc]
  exact Bool.false_ne_true

theorem EndsInText.getLast?_ne (h : EndsInText line) (hc : isBlank c = true) :
    line.getLast? ≠ some c := by
  rintro hlast
  obtain ⟨d, hd, hd'⟩ := h
  rw [Option.some.inj (hd.symm.trans hlast), hc] at hd'
  cases hd'

theorem endsInText_trimEnd (h : isAllBlank line = false) : EndsInText (trimEnd line) := by
  rw [trimEnd_eq_rdropWhile]
  have hne : line.rdropWhile isBlank ≠ [] := fun hnil => by
    obtain ⟨c, hc, hblank⟩ := isAllBlank_eq_false_iff.mp h
    rw [List.rdropWhile_eq_nil_iff.mp hnil c hc] at hblank
    cases hblank
  exact ⟨_, List.getLast?_eq_some_getLast hne,
    Bool.eq_false_iff.mpr (List.rdropWhile_last_not _ _ hne)⟩

theorem exists_trimEnd_append (line : List Char) :
    ∃ trailing, isAllBlank trailing = true ∧ trimEnd line ++ trailing = line :=
  ⟨line.rtakeWhile isBlank, List.all_eq_true.mpr fun _ hc => List.mem_rtakeWhile_imp hc,
    List.rdropWhile_append_rtakeWhile⟩

/-! ## What lines have in common -/

/-- **What begins the common beginning of two texts is what begins both.** -/
theorem prefix_commonPrefix_iff : p <+: commonPrefix a b ↔ p <+: a ∧ p <+: b := by
  fun_induction commonPrefix a b generalizing p with
  | case1 as c bs ih =>
    cases p with
    | nil => simp
    | cons d p =>
      simp only [List.cons_prefix_cons, ih]
      tauto
  | case2 a as b bs hne =>
    rw [List.prefix_nil]
    constructor
    · rintro rfl
      exact ⟨List.nil_prefix, List.nil_prefix⟩
    · rintro ⟨ha, hb⟩
      cases p with
      | nil => rfl
      | cons c p =>
        have hca := (List.cons_prefix_cons.mp ha).1
        exact absurd (hca.symm.trans (List.cons_prefix_cons.mp hb).1) hne
  | case3 as bs hnot =>
    rw [List.prefix_nil]
    constructor
    · rintro rfl
      exact ⟨List.nil_prefix, List.nil_prefix⟩
    · rintro ⟨⟨as, rfl⟩, ⟨bs, rfl⟩⟩
      cases p with
      | nil => rfl
      | cons c p => exact (hnot c _ c _ rfl rfl).elim

theorem prefix_foldl_commonPrefix_iff :
    p <+: ls.foldl commonPrefix a ↔ p <+: a ∧ ∀ l ∈ ls, p <+: l := by
  induction ls generalizing a with
  | nil => simp
  | cons l ls ih =>
    rw [List.foldl_cons, ih, prefix_commonPrefix_iff, List.forall_mem_cons, and_assoc]

/-- Whether a text is nothing but spaces and tabs. -/
def IsIndentation (cs : List Char) : Prop := ∀ c ∈ cs, c = ' ' ∨ c = '\t'

theorem IsIndentation.isAllBlank (h : IsIndentation line) : isAllBlank line = true := by
  refine List.all_eq_true.mpr fun c hc => ?_
  obtain rfl | rfl := h c hc <;> rfl

theorem prefix_indentation_iff : p <+: indentation line ↔ IsIndentation p ∧ p <+: line := by
  have htest (c : Char) : (c == ' ' || c == '\t') = true ↔ c = ' ' ∨ c = '\t' := by simp
  constructor
  · intro h
    refine ⟨fun c hc => ?_, h.trans (List.takeWhile_prefix _)⟩
    exact (htest c).mp (List.all_eq_true.mp List.all_takeWhile c (h.subset hc))
  · rintro ⟨hp, rest, rfl⟩
    rw [indentation, List.takeWhile_append_of_pos fun c hc => (htest c).mpr (hp c hc)]
    exact List.prefix_append ..

/-- **What begins the common indentation of some lines is what is indentation and begins them
all,** blank lines apart. -/
theorem prefix_commonIndentation_iff (hne : ∃ l ∈ ls, isAllBlank l = false) :
    p <+: commonIndentation ls ↔
      IsIndentation p ∧ ∀ l ∈ ls, isAllBlank l = false → p <+: l := by
  obtain ⟨l, hl, htext⟩ := hne
  rw [commonIndentation]
  split
  · next hnil =>
    rw [List.map_eq_nil_iff] at hnil
    have hmem : l ∈ ls.filter fun l => !isAllBlank l := by simp [hl, htext]
    rw [hnil] at hmem
    cases hmem
  · next first rest hcons =>
    have hmem (q : List Char) : (∀ l ∈ ls, isAllBlank l = false → q <+: indentation l) ↔
        ∀ i ∈ first :: rest, q <+: i := by
      rw [← hcons, List.forall_mem_map]
      simp [and_imp]
    rw [prefix_foldl_commonPrefix_iff, ← List.forall_mem_cons, ← hmem]
    simp only [prefix_indentation_iff]
    exact ⟨fun h => ⟨(h l hl htext).1, fun m hm hmtext => (h m hm hmtext).2⟩,
      fun h m hm hmtext => ⟨h.1, h.2 m hm hmtext⟩⟩

/-! ## The text as a block -/

/-- A run of lines without the blank ones at either end. -/
structure Block (all block : List (List Char)) : Prop where
  ends : ∃ before after, all = before ++ block ++ after ∧
    (∀ line ∈ before, isAllBlank line = true) ∧ ∀ line ∈ after, isAllBlank line = true
  first : ∀ line, block.head? = some line → isAllBlank line = false
  last : ∀ line, block.getLast? = some line → isAllBlank line = false

/-- The indentation that all lines with text have in common: there is no longer one. -/
structure CommonIndentation (block : List (List Char)) (indent : List Char) : Prop where
  indentation : IsIndentation indent
  common : ∀ line ∈ block, isAllBlank line = false → indent <+: line
  longest : block ≠ [] → ∀ c, c = ' ' ∨ c = '\t' →
    ∃ line ∈ block, isAllBlank line = false ∧ ¬ indent ++ [c] <+: line

/-- What is left of a line: nothing of a blank one, and otherwise what stands between the
indentation and the blanks at the end. -/
inductive Shifted (indent : List Char) : List Char → List Char → Prop
  | blank {line : List Char} (hblank : isAllBlank line = true) : Shifted indent line []
  | text {kept trailing : List Char} (hkept : EndsInText kept)
      (htrailing : isAllBlank trailing = true) : Shifted indent (indent ++ kept ++ trailing) kept

/-! ## Without blank ends -/

theorem withoutBlankEnds_prefix (ls : List (List Char)) :
    withoutBlankEnds ls <+: ls.dropWhile isAllBlank := List.rdropWhile_prefix _ _

theorem block_withoutBlankEnds (all : List (List Char)) : Block all (withoutBlankEnds all) := by
  have hrest := all.takeWhile_append_dropWhile (p := isAllBlank)
  have hback := List.rdropWhile_append_rtakeWhile (p := isAllBlank) (l := all.dropWhile isAllBlank)
  refine ⟨⟨all.takeWhile isAllBlank, (all.dropWhile isAllBlank).rtakeWhile isAllBlank, ?_,
    fun line hline => List.all_eq_true.mp List.all_takeWhile line hline,
    fun line hline => List.mem_rtakeWhile_imp hline⟩, fun line hhead => ?_, fun line hlast => ?_⟩
  · rw [List.append_assoc, withoutBlankEnds_eq_rdropWhile, hback, hrest]
  · obtain ⟨rest, hrest⟩ := List.head?_eq_some_iff.mp hhead
    have hfirst : (all.dropWhile isAllBlank).head? = some line := by
      obtain ⟨after, hafter⟩ := withoutBlankEnds_prefix all
      rw [← hafter, hrest]
      rfl
    have htext := List.head?_dropWhile_not isAllBlank all
    rwa [hfirst] at htext
  · have hne : withoutBlankEnds all ≠ [] := by
      rintro hnil
      rw [hnil] at hlast
      cases hlast
    rw [List.getLast?_eq_some_getLast hne] at hlast
    rw [← Option.some.inj hlast]
    exact Bool.eq_false_iff.mpr (List.rdropWhile_last_not _ _ hne)

theorem withoutBlankEnds_eq_self (hfirst : ∀ line, ls.head? = some line → isAllBlank line = false)
    (hlast : ∀ line, ls.getLast? = some line → isAllBlank line = false) :
    withoutBlankEnds ls = ls := by
  have hdrop : ls.dropWhile isAllBlank = ls := by
    cases ls with
    | nil => rfl
    | cons line ls => rw [List.dropWhile_cons, hfirst line rfl, if_neg Bool.false_ne_true]
  rw [withoutBlankEnds_eq_rdropWhile, hdrop, List.rdropWhile_eq_self_iff]
  intro hne
  rw [hlast _ (List.getLast?_eq_some_getLast hne)]
  exact Bool.false_ne_true

theorem Block.mem (h : Block all block) (hline : line ∈ block) : line ∈ all := by
  obtain ⟨⟨before, after, rfl, -⟩, -, -⟩ := h
  exact List.mem_append_left _ (List.mem_append_right _ hline)

theorem Block.exists_text (h : Block all block) (hne : block ≠ []) :
    ∃ line ∈ block, isAllBlank line = false := by
  obtain ⟨line, ls, rfl⟩ := List.exists_cons_of_ne_nil hne
  exact ⟨line, List.mem_cons_self, h.first line rfl⟩

/-! ## The indentation that is taken away -/

theorem Block.commonIndentation (h : Block all block) :
    CommonIndentation block (commonIndentation block) := by
  cases hblock : block with
  | nil => exact ⟨nofun, nofun, fun hne => absurd rfl hne⟩
  | cons line ls =>
    rw [← hblock]
    have hne : block ≠ [] := by simp [hblock]
    have hiff (p : List Char) := prefix_commonIndentation_iff (p := p) (h.exists_text hne)
    obtain ⟨hindent, hcommon⟩ := (hiff _).mp List.prefix_rfl
    refine ⟨hindent, hcommon, fun _ c hc => ?_⟩
    by_contra! hall
    -- A longer one would begin the longest one.
    have hlonger := (hiff (Text.commonIndentation block ++ [c])).mpr ⟨fun d hd => ?_, hall⟩
    · exact absurd hlonger.length_le (by simp)
    · obtain hd | hd := List.mem_append.mp hd
      · exact hindent d hd
      · rwa [List.mem_singleton.mp hd]

/-! ## Line by line -/

theorem shiftLine_of_isAllBlank (h : isAllBlank line = true) : shiftLine indent line = [] :=
  if_pos h

theorem shiftLine_append (h : isAllBlank (indent ++ line) = false) :
    shiftLine indent (indent ++ line) = trimEnd line := by
  rw [shiftLine, if_neg (by simp [h]), List.drop_left]

theorem shifted_shiftLine (hindent : IsIndentation indent)
    (hcommon : isAllBlank line = false → indent <+: line) :
    Shifted indent line (shiftLine indent line) := by
  cases htext : isAllBlank line with
  | true =>
    rw [shiftLine_of_isAllBlank htext]
    exact .blank htext
  | false =>
    obtain ⟨rest, rfl⟩ := hcommon htext
    have hrest : isAllBlank rest = false := by
      rw [isAllBlank, List.all_append, ← isAllBlank, hindent.isAllBlank, Bool.true_and] at htext
      exact htext
    obtain ⟨trailing, htrailing, hline⟩ := exists_trimEnd_append rest
    have hshifted : Shifted indent (indent ++ trimEnd rest ++ trailing) (trimEnd rest) :=
      .text (endsInText_trimEnd hrest) htrailing
    rwa [List.append_assoc, hline, ← shiftLine_append htext] at hshifted

/-- What begins the rest of a line begins the line behind its indentation. -/
theorem Shifted.append_prefix (h : Shifted indent line kept) (htext : isAllBlank line = false)
    (hp : p <+: kept) : indent ++ p <+: line := by
  cases h with
  | blank hblank =>
    rw [hblank] at htext
    cases htext
  | text => exact (List.prefix_append_right_inj _ |>.mpr hp).trans (List.prefix_append ..)

theorem Shifted.endsInText (h : Shifted indent line kept) (hline : isAllBlank line = false) :
    EndsInText kept := by
  cases h with
  | blank hblank =>
    rw [hblank] at hline
    cases hline
  | text hkept => exact hkept

theorem Shifted.eq_nil_or_endsInText (h : Shifted indent line kept) :
    kept = [] ∨ EndsInText kept := by
  cases h with
  | blank => exact .inl rfl
  | text hkept => exact .inr hkept

theorem Shifted.notMem (h : Shifted indent line kept) (hline : c ∉ line) : c ∉ kept := by
  cases h with
  | blank => exact List.not_mem_nil
  | text =>
    intro hmem
    exact hline (List.mem_append_left _ (List.mem_append_right _ hmem))

theorem CommonIndentation.shifted (h : CommonIndentation block indent) (hline : line ∈ block) :
    Shifted indent line (shiftLine indent line) :=
  shifted_shiftLine h.indentation (h.common line hline)

/-! ## The whole text -/

/-- **A text moved to the left is made of the lines of its block,** without the indentation that
they have in common and without blanks at their ends. -/
theorem dedentChars_eq (cs : List Char) : ∃ all block indent shifted,
    HasLines cs all ∧ Block all block ∧ CommonIndentation block indent ∧
      List.Forall₂ (Shifted indent) block shifted ∧
      dedentChars cs = ['\n'].intercalate shifted := by
  have hblock := block_withoutBlankEnds (lines cs)
  have hindent := hblock.commonIndentation
  refine ⟨lines cs, _, _, _, hasLines_lines cs, hblock, hindent, ?_, unlines_eq_intercalate _⟩
  rw [List.forall₂_map_right_iff]
  exact List.forall₂_same.mpr fun line hline => hindent.shifted hline

/-! ## Once more -/

section Again

variable (hindent : CommonIndentation block indent)

include hindent

theorem map_shiftLine_map_shiftLine :
    (block.map (shiftLine indent)).map (shiftLine []) = block.map (shiftLine indent) := by
  rw [List.map_map]
  refine List.map_congr_left fun line hline => ?_
  obtain hnil | htext := (hindent.shifted hline).eq_nil_or_endsInText
  · rw [Function.comp_apply, hnil, shiftLine_of_isAllBlank rfl]
  · rw [Function.comp_apply, ← List.nil_append (shiftLine indent line),
      shiftLine_append htext.isAllBlank, htext.trimEnd_eq, List.nil_append]

variable (hblock : Block all block)

include hblock

/-- The lines of a text that was moved to the left have no indentation in common. -/
theorem commonIndentation_map_shiftLine :
    commonIndentation (block.map (shiftLine indent)) = [] := by
  obtain rfl | hne := eq_or_ne block []
  · rfl
  obtain ⟨line, hline, htext⟩ := hblock.exists_text hne
  have hshown : ∃ kept ∈ block.map (shiftLine indent), isAllBlank kept = false :=
    ⟨_, List.mem_map_of_mem hline, ((hindent.shifted hline).endsInText htext).isAllBlank⟩
  cases hcommon : commonIndentation (block.map (shiftLine indent)) with
  | nil => rfl
  | cons c rest =>
    have hfirst : [c] <+: commonIndentation (block.map (shiftLine indent)) := by simp [hcommon]
    obtain ⟨hc, hall⟩ := (prefix_commonIndentation_iff hshown).mp hfirst
    obtain ⟨line, hline, htext, hnot⟩ := hindent.longest hne c (hc c List.mem_cons_self)
    have hshifted := hindent.shifted hline
    exact absurd (hshifted.append_prefix htext
      (hall _ (List.mem_map_of_mem hline) (hshifted.endsInText htext).isAllBlank)) hnot

theorem withoutBlankEnds_map_shiftLine :
    withoutBlankEnds (block.map (shiftLine indent)) = block.map (shiftLine indent) := by
  refine withoutBlankEnds_eq_self (fun kept hkept => ?_) fun kept hkept => ?_
  · rw [List.head?_map] at hkept
    obtain ⟨line, hhead, rfl⟩ := Option.map_eq_some_iff.mp hkept
    exact ((hindent.shifted (List.mem_of_mem_head? hhead)).endsInText
      (hblock.first line hhead)).isAllBlank
  · rw [List.getLast?_map] at hkept
    obtain ⟨line, hlast, rfl⟩ := Option.map_eq_some_iff.mp hkept
    exact ((hindent.shifted (List.mem_of_getLast? hlast)).endsInText
      (hblock.last line hlast)).isAllBlank

end Again

/-- **A text that was moved to the left stays where it is.** -/
theorem dedentChars_dedentChars (cs : List Char) :
    dedentChars (dedentChars cs) = dedentChars cs := by
  have hblock := block_withoutBlankEnds (lines cs)
  have hindent := hblock.commonIndentation
  have hlines : lines (dedentChars cs) = (withoutBlankEnds (lines cs)).map
      (shiftLine (commonIndentation (withoutBlankEnds (lines cs)))) := by
    refine lines_unlines (fun kept hkept => ?_) fun hlast => ?_
    · obtain ⟨line, hline, rfl⟩ := List.mem_map.mp hkept
      have hshifted := hindent.shifted hline
      refine ⟨hshifted.notMem ((hasLines_lines cs).feed_notMem (hblock.mem hline)), ?_⟩
      obtain hnil | htext := hshifted.eq_nil_or_endsInText
      · rw [hnil]
        exact nofun
      · exact htext.getLast?_ne rfl
    · rw [List.getLast?_map] at hlast
      obtain ⟨line, hline, hnil⟩ := Option.map_eq_some_iff.mp hlast
      have htext := (hindent.shifted (List.mem_of_getLast? hline)).endsInText
        (hblock.last line hline)
      rw [hnil] at htext
      cases htext.isAllBlank
  rw [dedentChars, hlines, withoutBlankEnds_map_shiftLine hindent hblock,
    commonIndentation_map_shiftLine hindent hblock, map_shiftLine_map_shiftLine hindent]
  rfl

end Routebook.Text
