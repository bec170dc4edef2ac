import Routebook.Merge.Basic
import Routebook.Proofs.Path.Join
import Routebook.Proofs.Path.Normal

/-!
# Normalizing before joining and after it

A route can be mounted twice: in the application, where the paths are joined as they are written and
then normalized, and by its group, whose mount point is joined to a path that is normalized already.
**Both give the same path** (`Group.fullPath_normalize_join`), provided that the group's mount point
closes every brace it opens.

A parameter ends where its constraint does. The slash of the join stands in a constraint only if a
brace before it is still open, so where none is (`openBraces`) no parameter reaches over the slash:
the pieces of the joined path are the pieces of the mount point, a slash, and the pieces of the path
(`pieces_append_slash`). Everything else is about the slashes at the ends, which normalizing does
not touch.
-/

namespace Routebook

namespace Path

variable {a b cs ds rest inner : List Char} {n k : Nat}

/-! ## Open braces -/

/-- How many braces are open after a text, if so many are open before it. A closing brace that has
none to close counts for nothing. -/
def openBraces : Nat → List Char → Nat
  | n, [] => n
  | n, c :: cs =>
    if c = '\x7b' then openBraces (n + 1) cs
    else if c = '\x7d' then openBraces (n - 1) cs
    else openBraces n cs

theorem openBraces_cons_of_ne {c : Char} (h₁ : c ≠ '\x7b') (h₂ : c ≠ '\x7d') (n : Nat)
    (cs : List Char) : openBraces n (c :: cs) = openBraces n cs := by
  rw [openBraces, if_neg h₁, if_neg h₂]

theorem openBraces_append (n : Nat) (a b : List Char) :
    openBraces n (a ++ b) = openBraces (openBraces n a) b := by
  fun_induction openBraces n a <;> simp_all [openBraces]

theorem openBraces_mono (h : n ≤ k) (cs : List Char) : openBraces n cs ≤ openBraces k cs := by
  induction cs generalizing n k with
  | nil => exact h
  | cons c cs ih =>
    simp only [openBraces]
    split
    · exact ih (by omega)
    · split
      · exact ih (by omega)
      · exact ih h

/-- A text that closes its braces closes those of each of its ends. -/
theorem openBraces_of_suffix (hs : b <:+ cs) (h : openBraces 0 cs = 0) : openBraces 0 b = 0 := by
  obtain ⟨a, rfl⟩ := hs
  rw [openBraces_append] at h
  have hle := openBraces_mono (Nat.zero_le (openBraces 0 a)) b
  omega

/-! ## A parameter in front of a slash -/

theorem isWordChar_slash : isWordChar '/' = false := by decide

theorem takeWhile_append_slash (a b : List Char) :
    (a ++ '/' :: b).takeWhile isWordChar = a.takeWhile isWordChar := by
  induction a with
  | nil => simp [isWordChar_slash]
  | cons c cs ih => simp only [List.cons_append, List.takeWhile_cons, ih]

theorem dropWhile_append_slash (a b : List Char) :
    (a ++ '/' :: b).dropWhile isWordChar = a.dropWhile isWordChar ++ '/' :: b := by
  induction a with
  | nil => simp [isWordChar_slash]
  | cons c cs ih =>
    simp only [List.cons_append, List.dropWhile_cons, ih]
    split <;> rfl

/-- A constraint is read to its end before what follows, if the braces that are open in it are
closed. -/
theorem afterConstraint?_append {nested : Bool} (rest : List Char)
    (h : openBraces (if nested then 2 else 1) cs = 0) :
    afterConstraint? nested (cs ++ rest) = (afterConstraint? nested cs).map (· ++ rest) := by
  fun_induction afterConstraint? nested cs with
  | case1 nested => cases nested <;> simp [openBraces] at h
  | case2 cs => rfl
  | case3 cs hc ih =>
    rw [List.cons_append, afterConstraint?, if_neg hc, if_pos rfl]
    exact ih h
  | case4 c cs hc ho ih =>
    rw [List.cons_append, afterConstraint?, if_neg hc, if_neg ho]
    exact ih (openBraces_cons_of_ne ho hc _ _ ▸ h)
  | case5 cs ih =>
    rw [List.cons_append, afterConstraint?, if_pos rfl]
    exact ih h
  | case6 cs hc => rw [List.cons_append, afterConstraint?, if_neg hc, if_pos rfl]; rfl
  | case7 c cs hc ho ih =>
    rw [List.cons_append, afterConstraint?, if_neg hc, if_neg ho]
    exact ih (openBraces_cons_of_ne ho hc _ _ ▸ h)

theorem suffix_of_afterConstraint? {nested : Bool} (h : afterConstraint? nested cs = some rest) :
    rest <:+ cs := by
  fun_induction afterConstraint? nested cs with
  | case1 | case6 => exact absurd h (by simp)
  | case2 cs => exact Option.some.inj h ▸ List.suffix_cons _ _
  | case3 cs hc ih | case4 c cs hc ho ih | case5 cs ih | case7 c cs hc ho ih =>
    exact (ih h).trans (List.suffix_cons _ _)

/-- What is left after a question mark, or without one. -/
def afterMark : List Char → List Char
  | '?' :: r => r
  | r => r

/-- What is left after a constraint, or without one. -/
def afterBraces : List Char → List Char
  | '\x7b' :: inner => (afterConstraint? false inner).getD ('\x7b' :: inner)
  | r => r

theorem afterName_eq (cs : List Char) : afterName cs = afterMark (afterBraces cs) := by
  have hbraces : (match cs with
      | '\x7b' :: inner => (afterConstraint? false inner).getD cs
      | _ => cs) = afterBraces cs := by
    unfold afterBraces
    split <;> rfl
  exact congrArg afterMark hbraces

theorem afterMark_suffix (cs : List Char) : afterMark cs <:+ cs := by
  unfold afterMark
  split
  · exact List.suffix_cons _ _
  · exact List.suffix_rfl

theorem afterBraces_suffix (cs : List Char) : afterBraces cs <:+ cs := by
  unfold afterBraces
  split
  · next inner =>
    cases hr : afterConstraint? false inner with
    | none => exact List.suffix_rfl
    | some rest => exact (suffix_of_afterConstraint? hr).trans (List.suffix_cons _ _)
  · exact List.suffix_rfl

theorem afterName_suffix (cs : List Char) : afterName cs <:+ cs := by
  rw [afterName_eq]
  exact (afterMark_suffix _).trans (afterBraces_suffix cs)

theorem afterMark_append_slash (a b : List Char) :
    afterMark (a ++ '/' :: b) = afterMark a ++ '/' :: b := by
  cases a with
  | nil => rfl
  | cons c cs =>
    by_cases hc : c = '?'
    · subst hc
      rfl
    · simp [afterMark, hc]

theorem afterBraces_append_slash (h : openBraces 0 a = 0) (b : List Char) :
    afterBraces (a ++ '/' :: b) = afterBraces a ++ '/' :: b := by
  cases a with
  | nil => rfl
  | cons c cs =>
    by_cases hc : c = '\x7b'
    · subst hc
      have hcs : afterConstraint? false (cs ++ '/' :: b) =
          (afterConstraint? false cs).map (· ++ '/' :: b) := afterConstraint?_append _ h
      rw [List.cons_append, afterBraces, afterBraces, hcs]
      cases afterConstraint? false cs <;> rfl
    · simp [afterBraces, hc]

theorem afterName_append_slash (h : openBraces 0 a = 0) (b : List Char) :
    afterName (a ++ '/' :: b) = afterName a ++ '/' :: b := by
  rw [afterName_eq, afterName_eq, afterBraces_append_slash h, afterMark_append_slash]

/-! ## The pieces of a joined path -/

theorem pieces_slash (cs : List Char) : pieces ('/' :: cs) = .char '/' :: pieces cs := by
  rw [pieces, if_neg fun h => absurd h.1 (by decide)]

/-- **No parameter reaches over a slash that follows closed braces.** -/
theorem pieces_append_slash (h : openBraces 0 a = 0) (b : List Char) :
    pieces (a ++ '/' :: b) = pieces a ++ .char '/' :: pieces b := by
  fun_induction pieces a with
  | case1 => exact pieces_slash b
  | case2 c cs hc ih =>
    have hrest : cs.dropWhile isWordChar <:+ c :: cs :=
      (List.dropWhile_suffix _).trans (List.suffix_cons c cs)
    have hopen := openBraces_of_suffix hrest h
    have hih := ih (openBraces_of_suffix ((afterName_suffix _).trans hrest) h)
    rw [List.cons_append, pieces, takeWhile_append_slash, dropWhile_append_slash, if_pos hc,
      afterName_append_slash hopen, hih, List.cons_append]
  | case3 c cs hc ih =>
    have hih := ih (openBraces_of_suffix (List.suffix_cons c cs) h)
    rw [List.cons_append, pieces, takeWhile_append_slash, if_neg hc, hih, List.cons_append]

theorem normalizeChars_nil : normalizeChars [] = [] := by
  rw [normalizeChars, pieces, List.flatMap_nil]

theorem normalize_empty : normalize "" = "" := by
  rw [normalize, String.toList_empty, normalizeChars_nil, String.ofList_nil]

theorem normalizeChars_append_slash (h : openBraces 0 a = 0) (b : List Char) :
    normalizeChars (a ++ '/' :: b) = normalizeChars a ++ '/' :: normalizeChars b := by
  simp only [normalizeChars, pieces_append_slash h, List.flatMap_append, List.flatMap_cons,
    Piece.render, List.singleton_append]

/-! ## The slashes at the ends -/

theorem normalizeChars_slash (cs : List Char) :
    normalizeChars ('/' :: cs) = '/' :: normalizeChars cs := by
  simp only [normalizeChars, pieces_slash, List.flatMap_cons, Piece.render, List.singleton_append]

theorem normalizeChars_ne_nil (h : cs ≠ []) : normalizeChars cs ≠ [] := by
  cases cs with
  | nil => exact absurd rfl h
  | cons c cs =>
    rw [normalizeChars, pieces]
    split <;> simp [Piece.render]

/-- What stands last in a normalized path stood last in the path, or ends a parameter. -/
theorem getLast?_normalizeChars {d : Char} (h : (normalizeChars cs).getLast? = some d) :
    d = '\x7d' ∨ cs.getLast? = some d := by
  unfold normalizeChars at h
  fun_induction pieces cs with
  | case1 => exact absurd h (by simp)
  | case2 c cs hc ih =>
    rw [List.flatMap_cons, List.getLast?_append] at h
    rcases Option.or_eq_some_iff.mp h with h | ⟨-, h⟩
    · obtain ⟨skipped, hs⟩ :=
        (afterName_suffix _).trans
          ((List.dropWhile_suffix isWordChar).trans (List.suffix_cons c cs))
      refine (ih h).imp_right fun hd => ?_
      rw [← hs, List.getLast?_append, hd, Option.some_or]
    · rw [Piece.render, ← List.cons_append, List.getLast?_concat] at h
      exact Or.inl (Option.some.inj h).symm
  | case3 c cs hc ih =>
    rw [List.flatMap_cons, List.getLast?_append] at h
    rw [List.getLast?_cons]
    rcases Option.or_eq_some_iff.mp h with h | ⟨hnone, hlast⟩
    · exact (ih h).imp_right fun hd => by rw [hd, Option.getD_some]
    · cases cs with
      | nil => exact Or.inr hlast
      | cons e es =>
        have hne : normalizeChars (e :: es) ≠ [] := normalizeChars_ne_nil (List.cons_ne_nil e es)
        exact absurd (List.getLast?_eq_none_iff.mp hnone) hne

theorem stripStart_normalizeChars (cs : List Char) :
    stripStart '/' (normalizeChars cs) = normalizeChars (stripStart '/' cs) := by
  induction cs with
  | nil => rw [normalizeChars_nil]; exact normalizeChars_nil.symm
  | cons c cs ih =>
    by_cases hc : c = '/'
    · subst hc
      rw [normalizeChars_slash]
      simpa [stripStart] using ih
    · have hcs : stripStart '/' (c :: cs) = c :: cs := by simp [stripStart, hc]
      rw [hcs]
      cases hn : normalizeChars (c :: cs) with
      | nil => rfl
      | cons d ds =>
        have hd : d ≠ '/' := by
          rintro rfl
          rcases head?_normalizeChars (by rw [hn]; rfl) with h | h
          · exact absurd h (by decide)
          · exact hc (Option.some.inj h)
        simp [stripStart, hd]

/-- The slashes at the end are no part of a parameter. -/
theorem stripEnd_normalizeChars (h : openBraces 0 cs = 0) :
    stripEnd '/' (normalizeChars cs) = normalizeChars (stripEnd '/' cs) := by
  induction cs using List.reverseRecOn with
  | nil => rw [normalizeChars_nil]; exact normalizeChars_nil.symm
  | append_singleton cs c ih =>
    have hopen := openBraces_append 0 cs [c]
    by_cases hc : c = '/'
    · subst hc
      have hcs : openBraces 0 cs = 0 := by simpa [openBraces, h] using hopen.symm
      rw [normalizeChars_append_slash hcs, normalizeChars_nil]
      simpa only [stripEnd_eq_rdropWhile, List.rdropWhile_concat_pos, beq_self_eq_true] using ih hcs
    · have hcs : stripEnd '/' (cs ++ [c]) = cs ++ [c] :=
        List.rdropWhile_concat_neg _ _ _ (by simpa using hc)
      rw [hcs, stripEnd_eq_rdropWhile, List.rdropWhile_eq_self_iff]
      intro hne hlast
      have hslash : (normalizeChars (cs ++ [c])).getLast? = some '/' := by
        rw [List.getLast?_eq_some_getLast hne, beq_iff_eq.mp hlast]
      rcases getLast?_normalizeChars hslash with hd | hd
      · exact absurd hd (by decide)
      · exact hc (by simpa using hd)

theorem openBraces_stripEnd (h : openBraces 0 cs = 0) : openBraces 0 (stripEnd '/' cs) = 0 := by
  induction cs using List.reverseRecOn with
  | nil => exact h
  | append_singleton cs c ih =>
    by_cases hc : c = '/'
    · subst hc
      rw [stripEnd_eq_rdropWhile, List.rdropWhile_concat_pos _ _ _ rfl]
      exact ih (by simpa [openBraces_append, openBraces] using h)
    · rw [stripEnd_eq_rdropWhile, List.rdropWhile_concat_neg _ _ _ (by simpa using hc)]
      exact h

/-! ## The joined path -/

/-- Normalizing a mount point and a path and joining them gives the normal form of the two
joined. -/
theorem joinChars_normalizeChars (h : openBraces 0 a = 0) (b : List Char) :
    joinChars (normalizeChars a) (normalizeChars b) = normalizeChars (joinChars a b) := by
  have hend := stripEnd_normalizeChars h
  have hstart := stripStart_normalizeChars b
  by_cases ha : stripEnd '/' a = []
  · rw [joinChars_of_mount_nil ha, joinChars_of_mount_nil (by rw [hend, ha, normalizeChars_nil])]
  have ha' : stripEnd '/' (normalizeChars a) ≠ [] := by
    rw [hend]
    exact normalizeChars_ne_nil ha
  by_cases hb : stripStart '/' b = []
  · have hb' : stripStart '/' (normalizeChars b) = [] := by
      rw [hstart, hb, normalizeChars_nil]
    rw [joinChars_of_path_nil ha hb, joinChars_of_path_nil ha' hb', hend]
  · have hb' : stripStart '/' (normalizeChars b) ≠ [] := by
      rw [hstart]
      exact normalizeChars_ne_nil hb
    rw [joinChars_of_ne_nil ha hb, joinChars_of_ne_nil ha' hb', hend, hstart,
      normalizeChars_append_slash (openBraces_stripEnd h)]

theorem join_normalize {mount : String} (h : openBraces 0 mount.toList = 0) (path : String) :
    join (normalize mount) (normalize path) = normalize (join mount path) := by
  simp only [join, normalize, String.toList_ofList, joinChars_normalizeChars h]

end Path

namespace Group

open Routebook.Path

/-- **The two ways to mount a route agree.** A group's mount point puts a path of its document where
the application puts the route that is mounted at the same place. -/
theorem fullPath_normalize_join (g : Group) (h : openBraces 0 (g.mount.getD "").toList = 0)
    (mount path : String) :
    g.fullPath (normalize (join mount path)) =
      normalize (join (join (g.mount.getD "") mount) path) := by
  have hmount : (g.mount.map normalize).getD "" = normalize (g.mount.getD "") := by
    cases g.mount with
    | none => exact normalize_empty.symm
    | some m => rfl
  rw [fullPath, hmount, join_normalize h, normalize_normalize, join_assoc]

/-- A mount point whose parameter has a constraint with braces of its own. -/
def versionedGroup : Group where
  name := "versioned"
  appTypePath := ⟨"src/app.ts"⟩
  mount := some "/api/:version\x7bv[0-9]\x7b1,2\x7d\x7d/"

theorem fullPath_normalize_join_versioned :
    openBraces 0 (versionedGroup.mount.getD "").toList = 0 ∧
      versionedGroup.fullPath (normalize (join "/users/" "/:id\x7b[a-z/]+\x7d?")) =
        normalize (join (join (versionedGroup.mount.getD "") "/users/") "/:id\x7b[a-z/]+\x7d?") :=
  ⟨by cbv, fullPath_normalize_join versionedGroup (by cbv) _ _⟩

example : versionedGroup.fullPath (normalize (join "/users/" "/:id\x7b[a-z/]+\x7d?")) =
    "/api/\x7bversion\x7d/users/\x7bid\x7d" := by cbv

/-- A brace that the mount point leaves open can be closed in the path. -/
example : { versionedGroup with mount := some "/:id\x7ba" }.fullPath (normalize "/b\x7d") ≠
    normalize (join "/:id\x7ba" "/b\x7d") := by cbv

end Group

end Routebook
