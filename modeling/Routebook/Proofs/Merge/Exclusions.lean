import Routebook.Proofs.Merge.Failures
import Routebook.Proofs.Path.Mount

/-!
# Both spellings of a path

A path is in the document with its parameters in braces, and those who leave it out may think of it
with its parameters after colons. So a pattern is looked for in both spellings. **The second one is
the path as it was written** (`Path.withColons_normalizeChars`), if it was written without braces
and question marks: every name that was put in braces comes out of them again, and nothing else is
in braces.

Hence a path is left out if a name of it is listed, in either spelling, or if a pattern is in it, in
either spelling (`Exclusions.excludes_normalize`), whatever engine says which patterns can be read
and what they match.
-/

namespace Routebook

namespace Path

variable {c : Char} {cs name rest : List Char}

/-! ## Names out of braces -/

theorem withColons_cons_of_ne (hc : c ≠ '\x7b') (cs : List Char) :
    withColons (c :: cs) = c :: withColons cs := by
  rw [withColons]
  split
  · rw [if_neg fun h => hc h.1]
  · rfl

/-- A name in braces comes out of them, whatever follows. -/
theorem withColons_name (hne : name ≠ []) (hname : ∀ c ∈ name, isNameChar c = true)
    (rest : List Char) :
    withColons ('\x7b' :: (name ++ '\x7d' :: rest)) = ':' :: (name ++ withColons rest) := by
  have hclose : isNameChar '\x7d' = false := by decide
  have htake : (name ++ '\x7d' :: rest).takeWhile isNameChar = name := by
    rw [List.takeWhile_append_of_pos hname, List.takeWhile_cons, hclose]
    simp
  have hdrop : (name ++ '\x7d' :: rest).dropWhile isNameChar = '\x7d' :: rest := by
    rw [List.dropWhile_append_of_pos hname, List.dropWhile_cons, hclose]
    simp
  rw [withColons]
  split
  · next after hafter =>
    obtain ⟨-, rfl⟩ := List.cons.inj (hdrop.symm.trans hafter)
    rw [htake, if_pos ⟨rfl, hne⟩]
  · next hother => exact absurd hdrop (hother rest)

/-! ## Paths that are written without braces -/

/-- Whether a path is written without braces and question marks, so that its parameters have
nothing but a name. -/
def IsBare (cs : List Char) : Prop := ∀ c ∈ cs, c ≠ '\x7b' ∧ c ≠ '\x7d' ∧ c ≠ '?'

instance (cs : List Char) : Decidable (IsBare cs) :=
  List.decidableBAll (fun c => c ≠ '\x7b' ∧ c ≠ '\x7d' ∧ c ≠ '?') cs

theorem IsBare.suffix (h : IsBare cs) (hrest : rest <:+ cs) : IsBare rest :=
  fun c hc => h c (hrest.subset hc)

theorem IsBare.afterName (h : IsBare cs) : Path.afterName cs = cs := by
  rw [afterName_eq]
  cases cs with
  | nil => rfl
  | cons c cs =>
    obtain ⟨hopen, -, hmark⟩ := h c List.mem_cons_self
    have hbraces : afterBraces (c :: cs) = c :: cs := by simp [afterBraces, hopen]
    rw [hbraces]
    simp [afterMark, hmark]

theorem isNameChar_of_isWordChar (h : isWordChar c = true) : isNameChar c = true := by
  have hclose : c ≠ '\x7d' := by
    rintro rfl
    exact absurd h (by decide)
  have hslash : c ≠ '/' := by
    rintro rfl
    exact absurd h (by decide)
  simp [isNameChar, hclose, hslash]

/-- **With its parameters after colons again, a path is as it was written.** -/
theorem withColons_normalizeChars (h : IsBare cs) : withColons (normalizeChars cs) = cs := by
  unfold normalizeChars
  fun_induction pieces cs with
  | case1 => rw [List.flatMap_nil, withColons]
  | case2 c cs hc ih =>
    obtain ⟨rfl, hne⟩ := hc
    have hrest : cs.dropWhile isWordChar <:+ ':' :: cs :=
      (List.dropWhile_suffix _).trans (List.suffix_cons ':' cs)
    have hword : ∀ d ∈ cs.takeWhile isWordChar, isWordChar d = true :=
      List.all_eq_true.mp List.all_takeWhile
    -- Nothing but the name belongs to the parameter, so what follows the name follows it.
    rw [(h.suffix hrest).afterName] at ih ⊢
    rw [List.flatMap_cons, Piece.render, List.cons_append, List.append_assoc,
      List.singleton_append, withColons_name hne fun d hd => isNameChar_of_isWordChar (hword d hd),
      ih (h.suffix hrest), List.takeWhile_append_dropWhile]
  | case3 c cs hc ih =>
    rw [List.flatMap_cons, Piece.render, List.singleton_append,
      withColons_cons_of_ne (h c List.mem_cons_self).1, ih (h.suffix (List.suffix_cons c cs))]

end Path

namespace Exclusions

section

variable [PatternEngine] {es : List Exclusion} {r rules : Exclusions}

/-! ## What is read from a list -/

/-- What rules have in them that some exclusions were added to. -/
structure AddsUp (es : List Exclusion) (r rules : Exclusions) : Prop where
  literals : ∀ l, l ∈ rules.literals ↔
    l ∈ r.literals ∨ ∃ path, .literal path ∈ es ∧ Path.normalize path = l
  patterns : ∀ p, p ∈ rules.patterns ↔
    p ∈ r.patterns ∨ ∃ text, .pattern text ∈ es ∧ PatternEngine.read? text = some p

theorem addsUp_of_foldlM_add (h : es.foldlM add r = .ok rules) : AddsUp es r rules := by
  induction es generalizing r with
  | nil =>
    obtain rfl := Except.ok.inj h
    exact ⟨by simp, by simp⟩
  | cons e es ih =>
    rw [List.foldlM_cons] at h
    cases e with
    | literal path =>
      obtain ⟨hliterals, hpatterns⟩ := ih h
      exact ⟨fun l => by simp [hliterals, or_assoc, eq_comm], fun p => by simp [hpatterns]⟩
    | pattern text =>
      cases hread : PatternEngine.read? text with
      | none =>
        rw [add_eq_error_iff.mpr ⟨rfl, hread⟩] at h
        cases h
      | some q =>
        have hadd : r.add (.pattern text) = .ok { r with patterns := r.patterns ++ [q] } := by
          rw [add, hread]
        rw [hadd] at h
        obtain ⟨hliterals, hpatterns⟩ := ih h
        refine ⟨fun l => by simp [hliterals], fun p => ?_⟩
        simp [hpatterns, or_assoc, hread, eq_comm]

/-! ## What is left out -/

/-- **A path is left out under both its spellings:** if it is listed by a name that is the same path
in the document, or if a pattern is in it as it was written or as it is in the document. Nothing is
asked of the engine but that it can read the patterns. -/
theorem excludes_normalize {path : String} (hbare : Path.IsBare path.toList)
    (hread : ∀ text, .pattern text ∈ es → (PatternEngine.read? text).isSome) :
    String.ofList (Path.withColons (Path.normalize path).toList) = path ∧
      ∃ rules, ofList es = .ok rules ∧
        (rules.excludes (Path.normalize path) = true ↔
          (∃ l, .literal l ∈ es ∧ Path.normalize l = Path.normalize path) ∨
            ∃ text isIn, .pattern text ∈ es ∧ PatternEngine.read? text = some isIn ∧
              (isIn path = true ∨ isIn (Path.normalize path) = true)) := by
  have hcolons : String.ofList (Path.withColons (Path.normalize path).toList) = path := by
    rw [Path.normalize, String.toList_ofList, Path.withColons_normalizeChars hbare,
      String.ofList_toList]
  obtain ⟨rules, hrules⟩ := exists_ofList hread
  obtain ⟨hliterals, hpatterns⟩ := addsUp_of_foldlM_add hrules
  refine ⟨hcolons, rules, hrules, ?_⟩
  rw [excludes, hcolons, Bool.or_eq_true, List.contains_iff_mem, hliterals, List.any_eq_true]
  refine or_congr (by simp) ?_
  constructor
  · rintro ⟨isIn, hisIn, hin⟩
    obtain ⟨text, htext, hread⟩ := ((hpatterns isIn).mp hisIn).resolve_left List.not_mem_nil
    exact ⟨text, isIn, htext, hread, (Bool.or_eq_true _ _ ▸ hin).symm⟩
  · rintro ⟨text, isIn, htext, hread, hin⟩
    exact ⟨isIn, (hpatterns isIn).mpr (.inr ⟨text, htext, hread⟩),
      Bool.or_eq_true _ _ ▸ hin.symm⟩

end

attribute [local instance] Pattern.engine

/-- A pattern that has a colon in it finds the parameters of a path that is in the document with
braces only. -/
theorem excludes_normalize_colon :
    ∃ rules, ofList [.literal "/files/\x7bid\x7d", .pattern ":name"] = .ok rules ∧
      rules.excludes "/files/\x7bname\x7d.\x7bext\x7d" = true := by
  have hnormal : Path.normalize "/files/:name.:ext" = "/files/\x7bname\x7d.\x7bext\x7d" := by
    decide +kernel
  have hread : ∀ text, Exclusion.pattern text ∈ [.literal "/files/\x7bid\x7d", .pattern ":name"] →
      (PatternEngine.read? text).isSome := by
    intro text htext
    obtain rfl : text = ":name" := by simpa using htext
    decide +kernel
  obtain ⟨-, rules, hrules, hexcludes⟩ :=
    @excludes_normalize _ _ "/files/:name.:ext" (by decide +kernel) hread
  obtain ⟨isIn, hisIn⟩ := Option.isSome_iff_exists.mp (hread ":name" (by simp))
  have hin : isIn "/files/:name.:ext" = true := by
    have hfound : (PatternEngine.read? ":name").map (· "/files/:name.:ext") = some true := by
      decide +kernel
    rw [hisIn] at hfound
    exact Option.some.inj hfound
  exact ⟨rules, hrules, hnormal ▸ hexcludes.mpr (.inr ⟨":name", isIn, by simp, hisIn, .inl hin⟩)⟩

end Exclusions

end Routebook
