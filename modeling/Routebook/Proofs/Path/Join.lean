import Mathlib.Data.List.DropRight
import Routebook.Route.Path

/-!
# Joining paths

Mount points nest, so paths are joined in chains. `join_assoc` says that the chain may be read from
either end: **a path under a mount point under another is the same path, whichever two are joined
first**, with empty mount points, roots and slashes at either end among them.

The one thing that both readings turn on is what is left of the path in the middle. Either it is
nothing but slashes and leaves no trace, or it keeps a core (`stripStart_stripEnd`) that the slashes
of its neighbours do not reach. **No slash is doubled where paths meet:** two slashes side by side in
the result stand side by side in one of the paths (`infix_of_infix_joinChars`).
-/

namespace Routebook
namespace Path

variable {c : Char} {a b cs : List Char}

/-! ## Stripping one character off the ends -/

theorem stripEnd_eq_rdropWhile (c : Char) (cs : List Char) :
    stripEnd c cs = cs.rdropWhile (· == c) := rfl

theorem stripStart_idempotent (c : Char) (cs : List Char) :
    stripStart c (stripStart c cs) = stripStart c cs := List.dropWhile_idempotent ..

theorem stripEnd_idempotent (c : Char) (cs : List Char) :
    stripEnd c (stripEnd c cs) = stripEnd c cs := by
  simp only [stripEnd_eq_rdropWhile]
  exact List.rdropWhile_idempotent ..

/-- Nothing is left at one end if and only if nothing is left at the other. -/
theorem stripEnd_eq_nil_iff : stripEnd c cs = [] ↔ stripStart c cs = [] := by
  rw [stripEnd_eq_rdropWhile, List.rdropWhile_eq_nil_iff, stripStart, List.dropWhile_eq_nil_iff]

/-- What is appended to a text hides the text's own end, if anything of it is left. -/
theorem stripEnd_append (h : stripEnd c b ≠ []) : stripEnd c (a ++ b) = a ++ stripEnd c b := by
  have hb : (b.reverse.dropWhile (· == c)).isEmpty = false := by
    cases hd : b.reverse.dropWhile (· == c) with
    | nil => exact absurd (by simp [stripEnd, hd]) h
    | cons x xs => rfl
  rw [stripEnd, List.reverse_append, List.dropWhile_append, hb]
  simp [stripEnd]

theorem stripStart_append (h : stripStart c a ≠ []) :
    stripStart c (a ++ b) = stripStart c a ++ b := by
  rw [stripStart, List.dropWhile_append, if_neg]
  · rfl
  · exact fun he => h (List.isEmpty_iff.mp he)

/-- The two ends are stripped in either order. -/
theorem stripStart_stripEnd (c : Char) (cs : List Char) :
    stripStart c (stripEnd c cs) = stripEnd c (stripStart c cs) := by
  by_cases h : stripEnd c cs = []
  · rw [h, stripEnd_eq_nil_iff.mp h]
    rfl
  · induction cs with
    | nil => rfl
    | cons x xs ih =>
      by_cases hx : x = c
      · subst hx
        have hs : stripStart x (x :: xs) = stripStart x xs := by simp [stripStart]
        have hxs : stripEnd x xs ≠ [] := by
          rwa [Ne, stripEnd_eq_nil_iff, ← hs, ← stripEnd_eq_nil_iff]
        rw [hs, ← ih hxs, ← List.singleton_append, stripEnd_append hxs]
        simp [stripStart]
      · -- A character that stays in front keeps its place, whatever goes at the end.
        have hs : stripStart c (x :: xs) = x :: xs := by simp [stripStart, hx]
        obtain ⟨ys, hys⟩ : ∃ ys, stripEnd c (x :: xs) = x :: ys := by
          have hp : stripEnd c (x :: xs) <+: x :: xs := List.rdropWhile_prefix ..
          cases he : stripEnd c (x :: xs) with
          | nil => exact absurd he h
          | cons y ys =>
            rw [he] at hp
            rw [(List.cons_prefix_cons.mp hp).1]
            exact ⟨ys, rfl⟩
        rw [hs, hys]
        simp [stripStart, hx]

theorem stripStart_eq_self_iff : stripStart c cs = cs ↔ cs.head? ≠ some c := by
  rw [stripStart, List.dropWhile_eq_self_iff]
  cases cs <;> simp

theorem stripEnd_eq_self_iff : stripEnd c cs = cs ↔ cs.getLast? ≠ some c := by
  rw [stripEnd, List.reverse_eq_iff, ← List.head?_reverse]
  exact stripStart_eq_self_iff

/-- What is stripped off an end is gone from it. -/
theorem head?_stripStart_ne (c : Char) (cs : List Char) : (stripStart c cs).head? ≠ some c :=
  stripStart_eq_self_iff.mp (stripStart_idempotent c cs)

theorem getLast?_stripEnd_ne (c : Char) (cs : List Char) : (stripEnd c cs).getLast? ≠ some c :=
  stripEnd_eq_self_iff.mp (stripEnd_idempotent c cs)

/-! ## The chain -/

theorem joinChars_of_mount_nil (h : stripEnd '/' a = []) (b : List Char) : joinChars a b = b := by
  rw [joinChars, h]

theorem joinChars_of_path_nil (ha : stripEnd '/' a ≠ []) (hb : stripStart '/' b = []) :
    joinChars a b = stripEnd '/' a := by
  rw [joinChars, hb]
  split
  · next h => exact absurd h ha
  · rfl

theorem joinChars_of_ne_nil (ha : stripEnd '/' a ≠ []) (hb : stripStart '/' b ≠ []) :
    joinChars a b = stripEnd '/' a ++ '/' :: stripStart '/' b := by
  rw [joinChars]
  split
  · next h => exact absurd h ha
  · split
    · next h => exact absurd h hb
    · rfl

/-- A path keeps something if it is joined to one that does. -/
theorem stripEnd_joinChars (ha : stripEnd '/' a ≠ []) (hb : stripStart '/' b ≠ []) :
    stripEnd '/' (joinChars a b) = stripEnd '/' a ++ '/' :: stripEnd '/' (stripStart '/' b) := by
  have hs : stripEnd '/' (stripStart '/' b) ≠ [] := by
    rwa [Ne, stripEnd_eq_nil_iff, stripStart_idempotent]
  rw [joinChars_of_ne_nil ha hb, ← List.singleton_append, ← List.append_assoc, stripEnd_append hs,
    List.append_assoc, List.singleton_append]

theorem joinChars_assoc (a b c : List Char) :
    joinChars (joinChars a b) c = joinChars a (joinChars b c) := by
  by_cases ha : stripEnd '/' a = []
  · rw [joinChars_of_mount_nil ha, joinChars_of_mount_nil ha]
  by_cases hb : stripStart '/' b = []
  · have hab : stripEnd '/' (joinChars a b) = stripEnd '/' a := by
      rw [joinChars_of_path_nil ha hb, stripEnd_idempotent]
    rw [joinChars_of_mount_nil (stripEnd_eq_nil_iff.mpr hb), joinChars, hab, joinChars]
  -- The core of `b` is what stays between the two slashes.
  have hcore : stripEnd '/' b ≠ [] := by rwa [Ne, stripEnd_eq_nil_iff]
  have hstart : stripStart '/' (stripEnd '/' b) = stripEnd '/' (stripStart '/' b) :=
    stripStart_stripEnd ..
  have hstart_ne : stripStart '/' (stripEnd '/' b) ≠ [] := by
    rwa [hstart, Ne, stripEnd_eq_nil_iff, stripStart_idempotent]
  have hab : stripEnd '/' (joinChars a b) ≠ [] := by
    rw [stripEnd_joinChars ha hb]
    exact List.append_ne_nil_of_right_ne_nil _ (List.cons_ne_nil _ _)
  by_cases hc : stripStart '/' c = []
  · rw [joinChars_of_path_nil hab hc, joinChars_of_path_nil hcore hc, stripEnd_joinChars ha hb,
      joinChars_of_ne_nil ha hstart_ne, hstart]
  · have hbc : stripStart '/' (joinChars b c) =
        stripEnd '/' (stripStart '/' b) ++ '/' :: stripStart '/' c := by
      rw [joinChars_of_ne_nil hcore hc, stripStart_append hstart_ne, hstart]
    have hbc_ne : stripStart '/' (joinChars b c) ≠ [] := by
      rw [hbc]
      exact List.append_ne_nil_of_right_ne_nil _ (List.cons_ne_nil _ _)
    rw [joinChars_of_ne_nil hab hc, joinChars_of_ne_nil ha hbc_ne, stripEnd_joinChars ha hb, hbc,
      List.append_assoc, List.cons_append]

/-- **Joining is associative.** -/
theorem join_assoc (a b c : String) : join (join a b) c = join a (join b c) := by
  simp only [join, String.toList_ofList, joinChars_assoc]

/-- A path that is mounted nowhere stays as it is. -/
theorem join_empty (p : String) : join "" p = p := by
  have h : joinChars "".toList p.toList = p.toList := rfl
  rw [join, h, String.ofList_toList]

/-! ## Doubled slashes -/

/-- A character that is put between two texts is not doubled there, unless one of them meets it with
one of its kind. -/
theorem infix_of_infix_append_cons (ha : a.getLast? ≠ some c) (hb : b.head? ≠ some c)
    (h : [c, c] <:+: a ++ c :: b) : [c, c] <:+: a ∨ [c, c] <:+: b := by
  rcases List.infix_append_iff.mp h with h | h | ⟨before, after, hsplit, hbefore, hafter⟩
  · exact .inl h
  · rcases List.infix_cons_iff.mp h with h | h
    · obtain ⟨rest, rfl⟩ := (List.cons_prefix_cons.mp h).2
      exact absurd rfl hb
    · exact .inr h
  · -- The part of the two that stands before the seam may be empty.
    cases before with
    | nil =>
      obtain rfl : after = [c, c] := hsplit.symm
      obtain ⟨rest, rfl⟩ := (List.cons_prefix_cons.mp hafter).2
      exact absurd rfl hb
    | cons d before =>
      have hmem : (d :: before).getLast (List.cons_ne_nil d before) ∈ [c, c] :=
        hsplit ▸ List.mem_append_left after (List.getLast_mem _)
      obtain ⟨front, rfl⟩ := hbefore
      rw [List.getLast?_append_of_ne_nil _ (List.cons_ne_nil d before),
        List.getLast?_eq_some_getLast (List.cons_ne_nil d before)] at ha
      exact absurd (congrArg some (by simpa using hmem)) ha

theorem infix_of_infix_joinChars (h : ['/', '/'] <:+: joinChars a b) :
    ['/', '/'] <:+: a ∨ ['/', '/'] <:+: b := by
  have hstart : stripStart '/' b <:+: b := (List.dropWhile_suffix _).isInfix
  have hend : stripEnd '/' a <:+: a := (List.rdropWhile_prefix _ a).isInfix
  by_cases ha : stripEnd '/' a = []
  · rw [joinChars_of_mount_nil ha] at h
    exact .inr h
  by_cases hb : stripStart '/' b = []
  · rw [joinChars_of_path_nil ha hb] at h
    exact .inl (h.trans hend)
  · rw [joinChars_of_ne_nil ha hb] at h
    exact (infix_of_infix_append_cons (getLast?_stripEnd_ne '/' a) (head?_stripStart_ne '/' b)
      h).imp (·.trans hend) (·.trans hstart)

/-- **Joining is associative and doubles no slash:** a chain of paths has two slashes side by side
only where one of them has. -/
theorem join_assoc_and_not_infix :
    (∀ a b c : String, join (join a b) c = join a (join b c)) ∧
      ∀ a b : String, ¬ "//".toList <:+: a.toList → ¬ "//".toList <:+: b.toList →
        ¬ "//".toList <:+: (join a b).toList := by
  refine ⟨join_assoc, fun a b ha hb h => ?_⟩
  have hjoin : (join a b).toList = joinChars a.toList b.toList := String.toList_ofList
  rw [hjoin] at h
  exact (infix_of_infix_joinChars h).elim ha hb

/-- The slashes that two paths meet with become one. -/
theorem join_assoc_and_not_infix_api :
    ¬ "//".toList <:+: "/api/".toList ∧ ¬ "//".toList <:+: "/users/".toList ∧
      join "/api/" "/users/" = "/api/users/" ∧
        ¬ "//".toList <:+: (join "/api/" "/users/").toList := by
  have ha : ¬ "//".toList <:+: "/api/".toList := by decide +kernel
  have hb : ¬ "//".toList <:+: "/users/".toList := by decide +kernel
  exact ⟨ha, hb, by decide +kernel, join_assoc_and_not_infix.2 "/api/" "/users/" ha hb⟩

end Path
end Routebook
