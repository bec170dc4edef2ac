import Mathlib
import Routebook.Unicode.Case

/-!
# Small forms

In ASCII a small form is the usual one (`lowerChar_of_toNat_lt`). **Beyond ASCII it is beyond ASCII
as well,** but for a `k`, the small form of the sign for kelvin, and an `i` that has a dot of its own
behind it (`lowerChar_of_ge`). So a small form has no capital of ASCII in it
(`isUpper_of_mem_lower`).
-/

namespace Routebook.Unicode

variable {c : Char} {cs : List Char}

theorem lowerChar_of_lt : ∀ n < 128, lowerChar (Char.ofNat n) = [(Char.ofNat n).toLower] := by
  decide

/-- Beyond ASCII a small letter is beyond ASCII as well, or a `k`. -/
theorem smallOf_of_ge {n : Nat} (h : 128 ≤ n) : smallOf n = 0x6B ∨ 128 ≤ smallOf n := by
  have hdistant : ∀ e ∈ distantCapitals, e.2 = 0x6B ∨ 128 ≤ e.2 := by decide
  rw [smallOf]
  cases hlookup : distantCapitals.lookup n with
  | some k =>
    obtain ⟨before, after, hlist, -⟩ := List.lookup_eq_some_iff.mp hlookup
    exact hdistant (n, k) (by simp [hlist])
  | none =>
    refine .inr ?_
    dsimp only
    split
    · omega
    · split <;> omega

/-- The small form of a character beyond ASCII is beyond it as well, or a `k`, or the `i` with a dot
of its own. -/
theorem lowerChar_of_ge (h : 128 ≤ c.toNat) :
    lowerChar c = ['i', Char.ofNat 0x307] ∨
      ∃ y, lowerChar c = [y] ∧ (y.toNat = 107 ∨ y.toNat = 0 ∨ 128 ≤ y.toNat) := by
  rw [lowerChar]
  split
  · exact .inl rfl
  · refine .inr ⟨_, rfl, ?_⟩
    rcases smallOf_of_ge h with hk | hge
    · rw [hk]
      exact .inl rfl
    · refine .inr ?_
      rw [Char.ofNat]
      split
      · exact .inr hge
      · exact .inl rfl

theorem toLower_of_ge (h : 128 ≤ c.toNat) : c.toLower = c := by
  rw [Char.toLower, dif_neg]
  rintro ⟨-, hle⟩
  have hnat : c.toNat ≤ 90 := UInt32.le_iff_toNat_le.mp hle
  omega

theorem lowerChar_of_toNat_lt (h : c.toNat < 128) : lowerChar c = [c.toLower] := by
  have hlower := lowerChar_of_lt c.toNat h
  rwa [Char.ofNat_toNat] at hlower

/-! ## Small letters and digits -/

/-- The small letters and digits of ASCII. -/
def isSmallOrDigit (c : Char) : Bool := c.isLower || c.isDigit

theorem isAlphanum_of_not_isUpper (h : c.isUpper = false) : c.isAlphanum = isSmallOrDigit c := by
  rw [Char.isAlphanum, Char.isAlpha, h, Bool.false_or, isSmallOrDigit]

theorem isUpper_toLower : ∀ n < 128, (Char.ofNat n).toLower.isUpper = false := by
  decide

/-- **A small form has no capital of ASCII in it.** -/
theorem isUpper_of_mem_lower (h : c ∈ lower cs) : c.isUpper = false := by
  obtain ⟨d, -, hd⟩ := List.mem_flatMap.mp h
  by_cases hlt : d.toNat < 128
  · rw [lowerChar_of_toNat_lt hlt, List.mem_singleton] at hd
    have hsmall := isUpper_toLower d.toNat hlt
    rwa [Char.ofNat_toNat, ← hd] at hsmall
  · rcases lowerChar_of_ge (Nat.not_lt.mp hlt) with hdotted | ⟨y, hy, hrange⟩
    · rw [hdotted, List.mem_cons, List.mem_singleton] at hd
      rcases hd with rfl | rfl <;> decide
    · rw [hy, List.mem_singleton] at hd
      subst hd
      rw [Bool.eq_false_iff]
      intro hupper
      have hbounds : 65 ≤ c.toNat ∧ c.toNat ≤ 90 := by
        simpa [Char.isUpper, UInt32.le_iff_toNat_le] using hupper
      omega

end Routebook.Unicode
