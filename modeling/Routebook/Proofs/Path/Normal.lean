import Mathlib.Data.List.Chain
import Routebook.Route.Path

/-!
# Paths in the document's form

Normalizing puts every parameter into braces, so **no colon of the result begins a parameter**
(`settled_normalizeChars`): what follows a colon that was kept is either the character that stood
there, which began no name, or an opening brace. A path of this kind is all text, and normalizing
leaves it as it is.
-/

namespace Routebook.Path

/-- No colon is followed by a character of a name. -/
def Settled (cs : List Char) : Prop := cs.IsChain fun a b => a = ':' → isWordChar b = false

/-- In a settled path every character stands for itself. -/
theorem pieces_of_settled {cs : List Char} (h : Settled cs) : pieces cs = cs.map .char := by
  induction cs with
  | nil => rw [pieces, List.map_nil]
  | cons c cs ih =>
    have hcolon : ¬(c = ':' ∧ cs.takeWhile isWordChar ≠ []) := by
      rintro ⟨hc, hname⟩
      cases cs with
      | nil => exact hname rfl
      | cons d ds =>
        have hd := (List.isChain_cons_cons.mp h).1 hc
        exact hname (by rw [List.takeWhile_cons, hd]; rfl)
    rw [pieces, if_neg hcolon, ih h.tail, List.map_cons]

theorem normalizeChars_of_settled {cs : List Char} (h : Settled cs) : normalizeChars cs = cs := by
  rw [normalizeChars, pieces_of_settled h, List.flatMap_map]
  exact List.flatMap_singleton' cs

/-! ## What normalizing gives -/

theorem settled_cons_of_ne {c : Char} {cs : List Char} (hc : c ≠ ':') (h : Settled cs) :
    Settled (c :: cs) := List.isChain_cons.mpr ⟨fun _ _ he => absurd he hc, h⟩

/-- A parameter in braces is settled, whatever follows it. -/
theorem settled_parameter_append {name rest : List Char} (hname : ∀ c ∈ name, isWordChar c = true)
    (hrest : Settled rest) : Settled ((Piece.parameter name).render ++ rest) := by
  have hbody : Settled (name ++ ('\x7d' :: rest)) := by
    induction name with
    | nil => exact settled_cons_of_ne (by decide) hrest
    | cons c cs ih =>
      have hc : c ≠ ':' := by
        rintro rfl
        exact absurd (hname ':' List.mem_cons_self) (by decide)
      exact settled_cons_of_ne hc (ih fun d hd => hname d (List.mem_cons_of_mem _ hd))
  rw [Piece.render, List.cons_append, List.append_assoc]
  exact settled_cons_of_ne (by decide) hbody

/-- What stands first in a normalized path stood first in the path, or begins a parameter. -/
theorem head?_normalizeChars {cs : List Char} {d : Char}
    (h : (normalizeChars cs).head? = some d) : d = '\x7b' ∨ cs.head? = some d := by
  cases cs with
  | nil =>
    rw [normalizeChars, pieces] at h
    exact Or.inr h
  | cons c cs =>
    rw [normalizeChars, pieces] at h
    by_cases hc : c = ':' ∧ cs.takeWhile isWordChar ≠ []
    · rw [if_pos hc] at h
      exact Or.inl (Option.some.inj h).symm
    · rw [if_neg hc] at h
      exact Or.inr h

theorem settled_normalizeChars (cs : List Char) : Settled (normalizeChars cs) := by
  unfold normalizeChars
  fun_induction pieces cs with
  | case1 => exact List.isChain_nil
  | case2 c cs _ ih =>
    exact settled_parameter_append (List.all_eq_true.mp List.all_takeWhile) ih
  | case3 c cs hc ih =>
    refine List.isChain_cons.mpr ⟨fun d hd hcolon => ?_, ih⟩
    -- A colon that was kept begins no name, and no name begins with a brace.
    rcases head?_normalizeChars hd with rfl | hd
    · decide
    · cases hword : isWordChar d with
      | false => rfl
      | true =>
        cases cs with
        | nil => exact absurd hd (by simp)
        | cons e es =>
          obtain rfl := Option.some.inj hd
          exact absurd ⟨hcolon, by rw [List.takeWhile_cons, hword]; simp⟩ hc

theorem settled_normalize (path : String) : Settled (normalize path).toList := by
  rw [normalize, String.toList_ofList]
  exact settled_normalizeChars _

/-- **A normalized path is in its normal form.** -/
theorem normalize_normalize (path : String) : normalize (normalize path) = normalize path := by
  rw [normalize, normalizeChars_of_settled (settled_normalize path), String.ofList_toList]

end Routebook.Path
