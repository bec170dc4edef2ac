import Mathlib
import Routebook.Merge.Basic
import Routebook.Proofs.Path.Join
import Routebook.Proofs.Unicode.Case

/-!
# The entry for an operation

An entry that is given by hand belongs to an operation if they have one key: a method in small
letters and a path, with a space between. **A key tells the two apart as long as the method has no
space in it** (`Group.manualEntry?_eq`): then an entry belongs to the operation of its method, in
any case, at its path, with its parameters written in either form and its last slashes left out. A
method with a space in it is none that a route answers, but the key of such an entry may be that of
another method at another path (`ManualEntry.IsMistakenFor`).

Small letters are not only those of the Latin alphabet. But no capital from elsewhere has a small
letter that occurs in the name of a method (`Unicode.lower_eq_iff`): the one that has a Latin letter
at all, the sign of the kelvin, has a `k`.
-/

namespace Routebook

/-! ## Methods in any case -/

namespace Unicode

variable {cs w : List Char}

/-- A small letter of ASCII other than `k`. -/
def IsPlain (c : Char) : Prop := 97 ≤ c.toNat ∧ c.toNat ≤ 122 ∧ c.toNat ≠ 107

/-- A text of plain letters is the small form of what it is in ASCII alone. -/
theorem lower_eq_iff (hw : ∀ x ∈ w, IsPlain x) : lower cs = w ↔ cs.map Char.toLower = w := by
  induction cs generalizing w with
  | nil => exact Iff.rfl
  | cons c cs ih =>
    rw [lower, List.flatMap_cons, ← lower, List.map_cons]
    by_cases hc : c.toNat < 128
    · rw [lowerChar_of_toNat_lt hc, List.singleton_append]
      cases w with
      | nil => simp
      | cons x w => rw [List.cons.injEq, List.cons.injEq, ih (List.forall_mem_cons.mp hw).2]
    · -- Neither reading of such a character is the beginning of a text of plain letters.
      rw [Nat.not_lt] at hc
      rw [toLower_of_ge hc]
      refine iff_of_false (fun h => ?_) fun h => ?_
      · rcases lowerChar_of_ge hc with hdotted | ⟨y, hy, hrange⟩
        · rw [hdotted] at h
          exact absurd (hw (Char.ofNat 0x307) (by simp [← h])).2.1 (by decide)
        · rw [hy] at h
          obtain ⟨hlow, hhigh, hne⟩ := hw y (by simp [← h])
          omega
      · obtain ⟨-, hhigh, -⟩ := hw c (by simp [← h])
        omega

theorem space_of_toLower : ∀ n < 128, (Char.ofNat n).toLower = ' ' → Char.ofNat n = ' ' := by
  decide

theorem space_not_mem_lower (h : ' ' ∉ cs) : ' ' ∉ lower cs := by
  intro hmem
  obtain ⟨c, hc, hspace⟩ := List.mem_flatMap.mp hmem
  by_cases hlt : c.toNat < 128
  · rw [lowerChar_of_toNat_lt hlt, List.mem_singleton] at hspace
    have heq := space_of_toLower c.toNat hlt
    rw [Char.ofNat_toNat] at heq
    exact h (heq hspace.symm ▸ hc)
  · rcases lowerChar_of_ge (Nat.not_lt.mp hlt) with hdotted | ⟨y, hy, hrange⟩
    · rw [hdotted] at hspace
      exact absurd hspace (by decide)
    · rw [hy, List.mem_singleton] at hspace
      rw [← hspace] at hrange
      exact absurd hrange (by decide)

end Unicode

namespace Method

theorem isPlain_lower (m : Method) : ∀ c ∈ m.lower.toList, Unicode.IsPlain c := by
  have hall : (m.lower.toList.all fun c =>
      97 ≤ c.toNat && c.toNat ≤ 122 && c.toNat != 107) = true := by
    cases m <;> decide
  intro c hc
  simpa [Unicode.IsPlain, and_assoc] using List.all_eq_true.mp hall c hc

theorem ofLower?_eq_some {name : String} {m : Method} :
    ofLower? name = some m ↔ m.lower = name := by
  constructor
  · intro h
    simpa using List.find?_some h
  · rintro rfl
    exact ofLower?_lower m

/-- A method is known by its name in any case. -/
theorem ofName?_eq_some {name : String} {m : Method} :
    ofName? name = some m ↔ String.ofList (Unicode.lower name.toList) = m.lower := by
  rw [ofName?, ofLower?_eq_some, eq_comm, String.ext_iff, String.ext_iff, String.toList_ofList,
    String.toList_ofList, Unicode.lower_eq_iff m.isPlain_lower]

end Method

/-! ## Keys -/

namespace Path

theorem withoutTrailingSlashes_idempotent (p : String) :
    withoutTrailingSlashes (withoutTrailingSlashes p) = withoutTrailingSlashes p := by
  rw [withoutTrailingSlashes, withoutTrailingSlashes, String.toList_ofList, stripEnd_idempotent]

theorem withoutTrailingSlashes_ne_slash (p : String) : withoutTrailingSlashes p ≠ "/" := by
  intro h
  have hagain := withoutTrailingSlashes_idempotent p
  rw [h] at hagain
  exact absurd hagain (by decide)

end Path

/-- A text is cut at its first space in one way. -/
theorem append_space_inj {as bs cs ds : List Char} (ha : ' ' ∉ as) (hb : ' ' ∉ bs)
    (h : as ++ ' ' :: cs = bs ++ ' ' :: ds) : as = bs ∧ cs = ds := by
  have hfront : ∀ {xs ys : List Char}, ' ' ∉ xs → (xs ++ ' ' :: ys).takeWhile (· != ' ') = xs := by
    intro xs ys hxs
    rw [List.takeWhile_append_of_pos fun c hc => by simpa using fun he : c = ' ' => hxs (he ▸ hc)]
    simp
  have hab : as = bs := by rw [← @hfront as cs ha, h, hfront hb]
  subst hab
  exact ⟨rfl, (List.cons.inj (List.append_cancel_left h)).2⟩

/-- A key tells methods and paths apart, but for the last slashes of the paths. -/
theorem manualKey_eq_iff {a b p q : String} (ha : ' ' ∉ a.toList) (hb : ' ' ∉ b.toList) :
    manualKey a p = manualKey b q ↔
      a = b ∧ Path.withoutTrailingSlashes p = Path.withoutTrailingSlashes q := by
  have hkey : ∀ x y : String, (x ++ " " ++ y).toList = x.toList ++ ' ' :: y.toList := by
    intro x y
    rw [String.toList_append, String.toList_append, List.append_assoc]
    rfl
  -- An empty path is written as a slash, which no other path without last slashes is.
  have hshown : ∀ {p q : String}, p ≠ "/" → q ≠ "/" →
      ((if p = "" then "/" else p) = if q = "" then "/" else q) → p = q := by
    intro p q hp hq h
    split at h
    · next hp' =>
      split at h
      · next hq' => rw [hp', hq']
      · exact absurd h.symm hq
    · split at h
      · exact absurd h hp
      · exact h
  rw [manualKey, manualKey]
  constructor
  · intro h
    rw [String.ext_iff, hkey, hkey] at h
    obtain ⟨hab, hpq⟩ := append_space_inj ha hb h
    exact ⟨String.ext hab, hshown (Path.withoutTrailingSlashes_ne_slash p)
      (Path.withoutTrailingSlashes_ne_slash q) (String.ext hpq)⟩
  · rintro ⟨rfl, hpq⟩
    rw [hpq]

namespace ManualEntry

/-- Whether an entry is for a method at a path. The method may be in any case, parameters may be
written after colons, and the last slashes do not count. -/
def IsFor (e : ManualEntry) (m : Method) (path : String) : Prop :=
  Method.ofName? e.method = some m ∧
    Path.withoutTrailingSlashes (Path.normalize e.path) = Path.withoutTrailingSlashes path

instance (e : ManualEntry) (m : Method) (path : String) : Decidable (e.IsFor m path) :=
  inferInstanceAs (Decidable (_ ∧ _))

theorem key_eq_iff {e : ManualEntry} (he : ' ' ∉ e.method.toList) (m : Method) (path : String) :
    e.key = manualKey m.lower path ↔ e.IsFor m path := by
  have hm : ' ' ∉ m.lower.toList := by cases m <;> decide
  have he' : ' ' ∉ (String.ofList (Unicode.lower e.method.toList)).toList := by
    rw [String.toList_ofList]
    exact Unicode.space_not_mem_lower he
  rw [key, manualKey_eq_iff he' hm, IsFor, Method.ofName?_eq_some]

/-- Whether an entry has the key of a method at a path, though its method has a space in it. -/
def IsMistakenFor (e : ManualEntry) (m : Method) (path : String) : Prop :=
  ' ' ∈ e.method.toList ∧ e.key = manualKey m.lower path

instance (e : ManualEntry) (m : Method) (path : String) : Decidable (e.IsMistakenFor m path) :=
  inferInstanceAs (Decidable (_ ∧ _))

/-- No method is known by a name with a space in it. -/
theorem not_isFor_of_space_mem {e : ManualEntry} (he : ' ' ∈ e.method.toList) (m : Method)
    (path : String) : ¬ e.IsFor m path := by
  rintro ⟨hmethod, -⟩
  rw [Method.ofName?_eq_some, String.ext_iff, String.toList_ofList] at hmethod
  have hm : ' ' ∉ m.lower.toList := by cases m <;> decide
  exact hm (hmethod ▸ List.mem_flatMap.mpr ⟨' ', he, by decide⟩)

end ManualEntry

/-- **The entry for an operation is the last one for its method and path,** unless an entry is
mistaken for one. -/
theorem Group.manualEntry?_eq {g : Group} {m : Method} {path : String}
    (h : ∀ e ∈ g.manual, ¬ e.IsMistakenFor m path) :
    g.manualEntry? m path = g.manual.reverse.find? fun e => e.IsFor m path := by
  refine List.find?_congr fun e he => ?_
  rw [decide_eq_decide]
  by_cases hspace : ' ' ∈ e.method.toList
  · exact iff_of_false (fun hkey => h e (List.mem_reverse.mp he) ⟨hspace, hkey⟩)
      (ManualEntry.not_isFor_of_space_mem hspace m path)
  · exact ManualEntry.key_eq_iff hspace m path

/-- A method with a path behind it, and the path behind that. -/
def ManualEntry.twoPaths : ManualEntry := ⟨"/b", "GET /a", none, none, none⟩

example : ManualEntry.twoPaths.IsMistakenFor .get "/a /b" ∧
    ¬ ManualEntry.twoPaths.IsFor .get "/a /b" := by
  decide +kernel

end Routebook
