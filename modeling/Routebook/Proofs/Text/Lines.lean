import Mathlib.Data.List.Basic
import Routebook.Text.Dedent

/-!
# Lines

What the lines of a text are, said of the text and not of a walk over it: **a line is what stands
before a line feed, without one carriage return at its end** (`HasLines`, `hasLines_iff`). What
follows the last line feed is a line if there is anything of it.

Lines that are put together again are read back as they were, if they can be lines at all and the
last one is not empty (`lines_unlines`).
-/

namespace Routebook.Text

/-- The lines of a text. -/
inductive HasLines : List Char → List (List Char) → Prop
  | nil : HasLines [] []
  | last {line : List Char} (hline : '\n' ∉ line) (hne : line ≠ []) : HasLines line [line]
  | feed {line rest : List Char} {ls : List (List Char)} (hline : '\n' ∉ line)
      (hreturn : line.getLast? ≠ some '\r') (hrest : HasLines rest ls) :
      HasLines (line ++ '\n' :: rest) (line :: ls)
  | returned {line rest : List Char} {ls : List (List Char)} (hline : '\n' ∉ line)
      (hrest : HasLines rest ls) : HasLines (line ++ '\r' :: '\n' :: rest) (line :: ls)

variable {c : Char} {cs line first : List Char} {ls : List (List Char)}

/-! ## A character in front -/

@[simp] theorem lines_nil : lines [] = [] := rfl

theorem lines_feed (cs : List Char) : lines ('\n' :: cs) = [] :: lines cs := rfl

theorem lines_returned (cs : List Char) : lines ('\r' :: '\n' :: cs) = [] :: lines cs := rfl

/-- A character that ends no line belongs to the first one. -/
theorem lines_cons (hfeed : c ≠ '\n') (hreturn : c = '\r' → cs.head? ≠ some '\n') :
    lines (c :: cs) = match lines cs with
      | [] => [[c]]
      | first :: rest => (c :: first) :: rest := by
  refine lines.eq_4 c cs hfeed fun rest hc hcs => ?_
  rw [hcs] at hreturn
  exact hreturn hc rfl

/-- Text without a line feed belongs to the line it stands in front of. -/
theorem lines_append (hline : '\n' ∉ line)
    (hreturn : cs.head? = some '\n' → line.getLast? ≠ some '\r') (h : lines cs = first :: ls) :
    lines (line ++ cs) = (line ++ first) :: ls := by
  induction line with
  | nil => exact h
  | cons c line ih =>
    obtain ⟨hc, htail⟩ := not_or.mp (mt List.mem_cons.mpr hline)
    have hlast : cs.head? = some '\n' → line.getLast? ≠ some '\r' := fun hhead hlast =>
      hreturn hhead (by rw [List.getLast?_cons, hlast]; rfl)
    rw [List.cons_append, lines_cons (Ne.symm hc), ih htail hlast]
    · rfl
    · rintro rfl hhead
      cases line with
      | nil => exact hreturn hhead rfl
      | cons d line => exact htail (Option.some.inj hhead ▸ List.mem_cons_self)

theorem HasLines.cons (hfeed : c ≠ '\n') (hreturn : c = '\r' → cs.head? ≠ some '\n')
    (h : HasLines cs (first :: ls)) : HasLines (c :: cs) ((c :: first) :: ls) := by
  have hmem {line : List Char} (hline : '\n' ∉ line) : '\n' ∉ c :: line := by
    simp [hline, hfeed.symm]
  cases h with
  | last hline hne => exact .last (hmem hline) (List.cons_ne_nil _ _)
  | feed hline hlast hrest =>
    refine .feed (hmem hline) ?_ hrest
    cases first with
    | nil =>
      intro h
      exact hreturn (Option.some.inj h) rfl
    | cons d first => rwa [List.getLast?_cons_cons]
  | returned hline hrest => exact .returned (hmem hline) hrest

/-! ## The walk -/

theorem hasLines_lines (cs : List Char) : HasLines cs (lines cs) := by
  fun_induction lines cs with
  | case1 => exact .nil
  | case2 cs ih => exact .feed List.not_mem_nil nofun ih
  | case3 cs ih => exact .returned List.not_mem_nil ih
  | case4 c cs hfeed hreturn hlines ih =>
    rw [hlines] at ih
    cases ih
    exact .last (by simpa using Ne.symm hfeed) (List.cons_ne_nil _ _)
  | case5 c cs hfeed hreturn first rest hlines ih =>
    rw [hlines] at ih
    refine ih.cons hfeed fun hc hhead => ?_
    obtain ⟨d, rfl⟩ := List.head?_eq_some_iff.mp hhead
    exact hreturn d hc rfl

theorem HasLines.lines_eq (h : HasLines cs ls) : lines cs = ls := by
  induction h with
  | nil => rfl
  | @last line hline hne =>
    obtain ⟨before, c, rfl⟩ := List.eq_nil_or_concat' line |>.resolve_left hne
    obtain ⟨hbefore, hc⟩ := not_or.mp (mt List.mem_append.mpr hline)
    have hc : c ≠ '\n' := fun h => hc (by rw [h]; exact List.mem_singleton_self _)
    refine lines_append hbefore (fun hhead => absurd (Option.some.inj hhead) hc) ?_
    rw [lines_cons hc (by simp), lines_nil]
  | @feed line rest ls hline hreturn _ ih =>
    rw [lines_append hline (fun _ => hreturn) (lines_feed rest), List.append_nil, ih]
  | @returned line rest ls hline _ ih =>
    rw [lines_append hline (fun hhead => by simp at hhead) (lines_returned rest),
      List.append_nil, ih]

theorem hasLines_iff : HasLines cs ls ↔ lines cs = ls :=
  ⟨HasLines.lines_eq, fun h => h ▸ hasLines_lines cs⟩

/-- No line has a line feed in it. -/
theorem HasLines.feed_notMem (h : HasLines cs ls) (hmem : line ∈ ls) : '\n' ∉ line := by
  induction h with
  | nil => nomatch hmem
  | last hline _ =>
    obtain rfl := List.mem_singleton.mp hmem
    exact hline
  | feed hline _ _ ih | returned hline _ ih =>
    cases hmem with
    | head => exact hline
    | tail _ hmem => exact ih hmem

/-! ## Lines put together -/

theorem unlines_cons_cons (line next : List Char) (ls : List (List Char)) :
    unlines (line :: next :: ls) = line ++ '\n' :: unlines (next :: ls) := rfl

theorem unlines_eq_intercalate (ls : List (List Char)) : unlines ls = ['\n'].intercalate ls := by
  fun_induction unlines ls with
  | case1 => rfl
  | case2 line => simp
  | case3 line ls hne ih =>
    obtain ⟨next, rest, rfl⟩ := List.exists_cons_of_ne_nil hne
    rw [ih, List.intercalate_cons_cons]
    simp

/-- **Lines that are put together are the lines of that text.** -/
theorem lines_unlines (hlines : ∀ line ∈ ls, '\n' ∉ line ∧ line.getLast? ≠ some '\r')
    (hlast : ls.getLast? ≠ some []) : lines (unlines ls) = ls := by
  refine HasLines.lines_eq ?_
  induction ls with
  | nil => exact .nil
  | cons line ls ih =>
    obtain ⟨hline, hreturn⟩ := hlines line List.mem_cons_self
    cases ls with
    | nil => exact .last hline fun h => hlast (congrArg some h)
    | cons next rest =>
      rw [List.getLast?_cons_cons] at hlast
      rw [unlines_cons_cons]
      exact .feed hline hreturn (ih (fun l hl => hlines l (List.mem_cons_of_mem _ hl)) hlast)

end Routebook.Text
