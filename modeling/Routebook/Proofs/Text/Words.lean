import Routebook.Proofs.Unicode.Case

/-!
# Words of small letters

Between the other characters of a text stand its longest runs of characters of one kind
(`Text.runs`). Small letters and digits make words (`IsWord`), and words with one hyphen between each
and the next a slug (`IsSlug`), which neither begins nor ends with a hyphen.
-/

namespace Routebook

open Unicode (isSmallOrDigit)

/-! ## Runs -/

/-- The longest runs of characters of a kind in a text: what is left of it between the others. -/
def Text.runs (p : Char → Bool) (cs : List Char) : List (List Char) :=
  (cs.splitOnP fun c => !p c).filter fun w => !w.isEmpty

namespace Text

variable {p : Char → Bool} {c : Char} {word : List Char}

theorem runs_append_cons (hc : p c = false) (as bs : List Char) :
    runs p (as ++ c :: bs) = runs p as ++ runs p bs := by
  rw [runs, List.splitOnP_append_cons as bs (by simp [hc]), List.filter_append]
  rfl

/-- A text of one kind is a run of its own, if it is any text at all. -/
theorem runs_of_forall (h : ∀ c ∈ word, p c = true) :
    runs p word = if word = [] then [] else [word] := by
  rw [runs, List.splitOnP_eq_singleton fun c hc => by simp [h c hc]]
  cases word <;> rfl

end Text

/-! ## Words and slugs -/

/-- A word of small letters and digits. -/
structure IsWord (w : List Char) : Prop where
  ne_nil : w ≠ []
  small : ∀ c ∈ w, isSmallOrDigit c = true

/-- Words with one hyphen between each and the next: `[a-z0-9]+(-[a-z0-9]+)*`. -/
inductive IsSlug : List Char → Prop
  | word {w : List Char} : IsWord w → IsSlug w
  | hyphen {w cs : List Char} : IsWord w → IsSlug cs → IsSlug (w ++ '-' :: cs)

theorem IsWord.hyphen_not_mem {w : List Char} (h : IsWord w) : '-' ∉ w := fun hmem =>
  absurd (h.small '-' hmem) (by decide)

namespace IsSlug

variable {c : Char} {cs : List Char}

theorem ne_nil (h : IsSlug cs) : cs ≠ [] := by
  cases h with
  | word hw => exact hw.ne_nil
  | hyphen hw _ => exact List.append_ne_nil_of_left_ne_nil hw.ne_nil _

theorem mem_cases (h : IsSlug cs) (hc : c ∈ cs) : isSmallOrDigit c = true ∨ c = '-' := by
  induction h with
  | word hw => exact .inl (hw.small c hc)
  | hyphen hw _ ih =>
    rcases List.mem_append.mp hc with hc | hc
    · exact .inl (hw.small c hc)
    · exact (List.mem_cons.mp hc).elim .inr ih

theorem head?_ne (h : IsSlug cs) : cs.head? ≠ some '-' := by
  cases h with
  | word hw => exact fun h => hw.hyphen_not_mem (List.mem_of_head? h)
  | hyphen hw _ =>
    rw [List.head?_append_of_ne_nil _ hw.ne_nil]
    exact fun h => hw.hyphen_not_mem (List.mem_of_head? h)

theorem getLast?_ne (h : IsSlug cs) : cs.getLast? ≠ some '-' := by
  induction h with
  | word hw => exact fun h => hw.hyphen_not_mem (List.mem_of_getLast? h)
  | @hyphen w cs _ hcs ih =>
    rw [List.getLast?_append_of_ne_nil _ (List.cons_ne_nil '-' cs), List.getLast?_cons]
    cases hlast : cs.getLast? with
    | none => exact absurd (List.getLast?_eq_none_iff.mp hlast) hcs.ne_nil
    | some d => rwa [hlast] at ih

end IsSlug

end Routebook
