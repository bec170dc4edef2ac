import Routebook.Config.Load

/-!
# What a checked configuration guarantees

Nothing is wrong with a configuration exactly if nothing is wrong with any of its groups after those
before it (`problem?_eq_none`). Each group is compared with all before it, so **no two groups have
one name, and no two have one intermediate file.**
-/

namespace Routebook

open Disk (Files)

/-- Two groups that can stand in one configuration. -/
structure Group.Apart (h g : Group) : Prop where
  name : h.name ≠ g.name
  fileName : h.fileName ≠ g.fileName

/-- Where no pattern is bad, all can be read. -/
theorem isSome_read?_of_badPattern? [PatternEngine] {es : List Exclusion}
    (h : badPattern? es = none) :
    ∀ text, .pattern text ∈ es → (PatternEngine.read? text).isSome := by
  intro text htext
  have hnone := List.findSome?_eq_none_iff.mp h _ htext
  cases hread : PatternEngine.read? text with
  | none => simp [hread] at hnone
  | some isIn => rfl

namespace Group

variable [PatternEngine] {fs : Files} {before gs : List Group} {g : Group}

theorem problem?_eq_none : g.problem? fs before = none ↔
    Text.isAllBlank g.name.toList = false ∧ (∀ h ∈ before, h.Apart g) ∧
      fs.isFile g.appTypePath = true ∧ badPattern? g.exclusions = none := by
  rw [problem?]
  cases hblank : Text.isAllBlank g.name.toList with
  | true => simp
  | false =>
    cases hname : before.any fun h => h.name = g.name with
    | true =>
      have : ¬ ∀ h ∈ before, h.Apart g := by
        intro hall
        obtain ⟨h, hmem, hh⟩ := List.any_eq_true.mp hname
        exact (hall h hmem).name (by simpa using hh)
      simp [this]
    | false =>
      cases hfile : before.find? fun h => h.fileName = g.fileName with
      | some h =>
        have : ¬ ∀ h ∈ before, h.Apart g := fun hall =>
          (hall h (List.mem_of_find?_eq_some hfile)).fileName
            (by simpa using List.find?_some hfile)
        simp [this]
      | none =>
        have : ∀ h ∈ before, h.Apart g := by
          intro h hmem
          refine ⟨?_, ?_⟩
          · simpa using List.any_eq_false.mp hname h hmem
          · simpa using List.find?_eq_none.mp hfile h hmem
        cases fs.isFile g.appTypePath with
        | false => simp
        | true => simpa using fun _ => this

theorem apart_of_groupsProblem? (h : groupsProblem? fs before gs = none)
    (hbefore : before.Pairwise Apart) : (before ++ gs).Pairwise Apart := by
  induction gs generalizing before with
  | nil => rwa [List.append_nil]
  | cons g gs ih =>
    rw [groupsProblem?] at h
    cases hg : g.problem? fs before with
    | some p => simp [hg] at h
    | none =>
      simp only [hg] at h
      -- The group that has been checked joins those that the next ones are compared with.
      have hapart := (problem?_eq_none.mp hg).2.1
      have hbefore : (before ++ [g]).Pairwise Apart :=
        List.pairwise_append.mpr ⟨hbefore, List.pairwise_singleton _ _, fun k hk g' hg' => by
          rw [List.mem_singleton.mp hg']
          exact hapart k hk⟩
      have := ih h hbefore
      rwa [List.append_assoc, List.singleton_append] at this

/-- Every group is compared with some that stand before it. -/
theorem exists_problem?_of_groupsProblem? (h : groupsProblem? fs before gs = none) :
    ∀ g ∈ gs, ∃ earlier, g.problem? fs earlier = none := by
  induction gs generalizing before with
  | nil => exact nofun
  | cons g gs ih =>
    rw [groupsProblem?] at h
    cases hg : g.problem? fs before with
    | some p => simp [hg] at h
    | none =>
      simp only [hg] at h
      exact List.forall_mem_cons.mpr ⟨⟨before, hg⟩, ih h⟩

end Group

namespace Config

variable [PatternEngine] {fs : Files} {c : Config}

theorem apart_of_problem? (h : c.problem? fs = none) : c.groups.Pairwise Group.Apart := by
  rw [problem?] at h
  split at h
  · exact absurd h (by simp)
  · exact Group.apart_of_groupsProblem? h .nil

/-- **The groups of a checked configuration have names of their own.** -/
theorem nodup_names_of_problem? (h : c.problem? fs = none) : (c.groups.map Group.name).Nodup :=
  List.pairwise_map.mpr ((apart_of_problem? h).imp Group.Apart.name)

theorem exists_problem?_of_problem? (h : c.problem? fs = none) :
    ∀ g ∈ c.groups, ∃ earlier, g.problem? fs earlier = none := by
  rw [problem?] at h
  split at h
  · exact absurd h (by simp)
  · exact Group.exists_problem?_of_groupsProblem? h

/-- The patterns of a checked configuration can be read. -/
theorem badPattern?_of_problem? (h : c.problem? fs = none) :
    ∀ g ∈ c.groups, badPattern? g.exclusions = none := by
  intro g hg
  obtain ⟨earlier, hproblem⟩ := exists_problem?_of_problem? h g hg
  exact (Group.problem?_eq_none.mp hproblem).2.2.2

end Config

end Routebook
