import Routebook.Proofs.Session.Interfaces

/-!
# Aliases that files export

A file exports an alias where it declares it, or by a clause, which may rename it. A clause can
stand in front of the declaration or behind it; read from top to bottom it exports **the aliases
that have been declared** (`aliasExports`). Where it stands matters to nothing else: **moved behind
what it names, it exports what it did before and the aliases it had been in front of**
(`mem_aliasExports_moved`).

In most files no name is used for two things (`Orderly`): an exported name stands for one local
name, a name of another file is not that of an alias, and an alias that is exported is not declared
as anything else afterwards.
-/

namespace Routebook

namespace Source

/-! ## What files declare and export -/

/-- The body of the alias that a statement declares a name as. -/
def Statement.aliasBody? (name : String) (st : Statement) : Option (TypeExpr Unit) :=
  match st.meaning with
  | .declares _ (.typeAlias n _ body) => if n = name then some body else none
  | _ => none

/-- The body of the alias that a name stands for behind some statements. Its last declaration
counts. -/
def aliasIn? (ss : List Statement) (name : String) : Option (TypeExpr Unit) :=
  (ss.reverse.find? (·.declares name)).bind (·.aliasBody? name)

/-- The local names that a statement exports, if it is an alias or a clause, with the names they are
exported by. -/
def Statement.localExports (st : Statement) : List (String × String) :=
  match st.meaning with
  | .declares true (.typeAlias n _ _) => [(n, n)]
  | .exports none names => names
  | _ => []

/-- The names of another file that a statement exports. -/
def Statement.foreignExports (st : Statement) : List (String × String) :=
  match st.meaning with
  | .exports (some _) names => names
  | _ => []

/-- The local name that a file exports by a name: the last that is given it, or the name itself. -/
def localOf (ss : List Statement) (exported : String) : String :=
  (((ss.flatMap (·.localExports)).reverse.find? fun n =>
    n.1 != n.2 && n.2 == exported).map (·.1)).getD exported

/-- The aliases that a statement is taken to export behind some others. What a clause names it
exports if an alias of that name has been declared, and be it a name of another file. -/
def Statement.aliasExports (before : List Statement) (st : Statement) : List (String × String) :=
  match st.meaning with
  | .declares true (.typeAlias n _ _) => [(n, n)]
  | .exports _ names => names.filter fun n => (aliasIn? before n.1).isSome
  | _ => []

def aliasExportsAfter (before : List Statement) : List Statement → List (String × String)
  | [] => []
  | st :: ss => st.aliasExports before ++ aliasExportsAfter (before ++ [st]) ss

/-- The aliases that a file is taken to export, in order, with the names they are exported by. They
are exported behind their declarations. -/
def aliasExports (ss : List Statement) : List (String × String) := aliasExportsAfter [] ss

/-- A file in which no name is used for two things where its exported aliases are concerned. -/
structure Orderly (ss : List Statement) : Prop where
  once : ∀ x ∈ ss.flatMap (·.localExports), ∀ y ∈ ss.flatMap (·.localExports), x.2 = y.2 → x.1 = y.1
  foreign : ∀ x ∈ ss.flatMap (·.foreignExports), ∀ st ∈ ss, (st.aliasBody? x.1).isSome = false
  kept : ∀ x ∈ ss.flatMap (·.localExports), ∀ st ∈ ss, (st.aliasBody? x.1).isSome = true →
    (aliasIn? ss x.1).isSome = true

instance (ss : List Statement) : Decidable (Orderly ss) :=
  decidable_of_iff (_ ∧ _ ∧ _) ⟨fun h => ⟨h.1, h.2.1, h.2.2⟩, fun h => ⟨h.once, h.foreign, h.kept⟩⟩

variable {ss before : List Statement} {st : Statement} {name : String}

theorem aliasIn?_concat (ss : List Statement) (st : Statement) (name : String) :
    aliasIn? (ss ++ [st]) name =
      if st.declares name then st.aliasBody? name else aliasIn? ss name := by
  rw [aliasIn?, List.reverse_append, List.reverse_singleton, List.singleton_append, List.find?_cons]
  cases st.declares name with
  | true => rfl
  | false => rfl

theorem aliasIn?_append_of_not_declares {after : List Statement}
    (h : ∀ st ∈ after, st.declares name = false) :
    aliasIn? (before ++ after) name = aliasIn? before name := by
  induction after using List.reverseRecOn with
  | nil => rw [List.append_nil]
  | append_singleton after st ih =>
    have hlast := h st (List.mem_append_right _ (.head _))
    have hbefore := ih fun st hst => h st (List.mem_append_left _ hst)
    rw [← List.append_assoc, aliasIn?_concat, hlast, hbefore]
    rfl

/-- Behind an alias there is its declaration. -/
theorem exists_declaration_of_aliasIn? (h : (aliasIn? ss name).isSome = true) :
    ∃ st ∈ ss, (st.aliasBody? name).isSome = true := by
  unfold aliasIn? at h
  cases hfind : ss.reverse.find? (·.declares name) with
  | none => simp [hfind] at h
  | some st =>
    rw [hfind] at h
    exact ⟨st, List.mem_reverse.mp (List.mem_of_find?_eq_some hfind), h⟩

/-! ## In what order -/

theorem aliasExportsAfter_append (before xs ys : List Statement) :
    aliasExportsAfter before (xs ++ ys) =
      aliasExportsAfter before xs ++ aliasExportsAfter (before ++ xs) ys := by
  induction xs generalizing before with
  | nil => simp [aliasExportsAfter]
  | cons x xs ih => simp [aliasExportsAfter, ih]

theorem aliasExports_concat (ss : List Statement) (st : Statement) :
    aliasExports (ss ++ [st]) = aliasExports ss ++ st.aliasExports ss := by
  rw [aliasExports, aliasExportsAfter_append]
  simp [aliasExports, aliasExportsAfter]

/-- Of the statements before, only the aliases count. -/
theorem aliasExportsAfter_congr {before' : List Statement}
    (h : ∀ name, aliasIn? before name = aliasIn? before' name) (ss : List Statement) :
    aliasExportsAfter before ss = aliasExportsAfter before' ss := by
  induction ss generalizing before before' with
  | nil => rfl
  | cons st ss ih =>
    have hnext : ∀ name, aliasIn? (before ++ [st]) name = aliasIn? (before' ++ [st]) name := by
      intro name
      rw [aliasIn?_concat, aliasIn?_concat, h name]
    rw [aliasExportsAfter, aliasExportsAfter, ih hnext, Statement.aliasExports,
      Statement.aliasExports]
    simp only [h]

/-- What is taken for an exported alias is exported, and declared as one. -/
theorem mem_exports_of_aliasExports {x : String × String} (h : x ∈ aliasExports ss) :
    (x ∈ ss.flatMap (·.localExports) ∨ x ∈ ss.flatMap (·.foreignExports)) ∧
      ∃ st ∈ ss, (st.aliasBody? x.1).isSome = true := by
  induction ss using List.reverseRecOn with
  | nil => exact absurd h List.not_mem_nil
  | append_singleton ss st ih =>
    rw [aliasExports_concat, List.mem_append] at h
    simp only [List.flatMap_append, List.flatMap_singleton, List.mem_append]
    rcases h with h | h
    · obtain ⟨hexported, st', hst', hbody⟩ := ih h
      exact ⟨hexported.imp .inl .inl, st', .inl hst', hbody⟩
    · unfold Statement.aliasExports at h
      split at h
      · next n ps body hmeaning =>
        obtain rfl := List.mem_singleton.mp h
        refine ⟨.inl (.inr ?_), st, .inr (.head _), ?_⟩
        · simp [Statement.localExports, hmeaning]
        · simp [Statement.aliasBody?, hmeaning]
      · next file names hmeaning =>
        obtain ⟨hmem, halias⟩ := List.mem_filter.mp h
        obtain ⟨st', hst', hbody⟩ := exists_declaration_of_aliasIn? halias
        refine ⟨?_, st', .inl hst', hbody⟩
        cases file with
        | none => exact .inl (.inr (by simpa [Statement.localExports, hmeaning] using hmem))
        | some f => exact .inr (.inr (by simpa [Statement.foreignExports, hmeaning] using hmem))
      · exact absurd h List.not_mem_nil

/-! ## Files in order -/

namespace Orderly

variable (h : Orderly ss)

include h

/-- What is taken for an exported alias is one. -/
theorem mem_aliasExports {x : String × String} (hx : x ∈ aliasExports ss) :
    x ∈ ss.flatMap (·.localExports) ∧ (aliasIn? ss x.1).isSome = true := by
  obtain ⟨hexported, st, hst, hbody⟩ := mem_exports_of_aliasExports hx
  rcases hexported with hlocal | hforeign
  · exact ⟨hlocal, h.kept x hlocal st hst hbody⟩
  · rw [h.foreign x hforeign st hst] at hbody
    exact absurd hbody (by simp)

/-- The exported name leads back to the local one. -/
theorem localOf_eq {x : String × String} (hx : x ∈ ss.flatMap (·.localExports)) :
    localOf ss x.2 = x.1 := by
  unfold localOf
  cases hfind : (ss.flatMap (·.localExports)).reverse.find? fun n => n.1 != n.2 && n.2 == x.2 with
  | some y =>
    have hy := List.mem_reverse.mp (List.mem_of_find?_eq_some hfind)
    have hname := List.find?_some hfind
    rw [Bool.and_eq_true, beq_iff_eq] at hname
    exact h.once y hy x hx hname.2
  | none =>
    have hnone := List.find?_eq_none.mp hfind x (List.mem_reverse.mpr hx)
    rw [beq_self_eq_true, Bool.and_true, bne_iff_ne, not_not] at hnone
    exact hnone.symm

end Orderly

/-! ## Moving a clause -/

section Moving

variable {clause : Statement} {middle after : List Statement} {names : List (String × String)}

theorem aliasIn?_without (h : ∀ name, clause.declares name = false) (before after : List Statement)
    (name : String) :
    aliasIn? (before ++ clause :: after) name = aliasIn? (before ++ after) name := by
  simp [aliasIn?, List.find?_append, h]

theorem declares_of_exports {file : Option String} (h : clause.meaning = .exports file names)
    (name : String) : clause.declares name = false := by
  unfold Statement.declares
  rw [h]

theorem aliasIn?_moved (h : ∀ name, clause.declares name = false) (name : String) :
    aliasIn? (before ++ (middle ++ clause :: after)) name =
      aliasIn? (before ++ clause :: (middle ++ after)) name := by
  rw [aliasIn?_without h, ← List.append_assoc, aliasIn?_without h, List.append_assoc]

/-- Where a clause stands does not matter to what is exported at all. -/
theorem Orderly.moved (h : Orderly (before ++ clause :: (middle ++ after)))
    (hclause : ∀ name, clause.declares name = false) :
    Orderly (before ++ (middle ++ clause :: after)) := by
  have hperm : (before ++ (middle ++ clause :: after)).Perm
      (before ++ clause :: (middle ++ after)) := List.perm_middle.append_left before
  have hlocal := fun x => (hperm.flatMap_right Statement.localExports).mem_iff (a := x)
  have hforeign := fun x => (hperm.flatMap_right Statement.foreignExports).mem_iff (a := x)
  refine ⟨?_, ?_, ?_⟩
  · intro x hx y hy
    exact h.once x ((hlocal x).mp hx) y ((hlocal y).mp hy)
  · intro x hx st hst
    exact h.foreign x ((hforeign x).mp hx) st (hperm.mem_iff.mp hst)
  · intro x hx st hst
    rw [aliasIn?_moved hclause]
    exact h.kept x ((hlocal x).mp hx) st (hperm.mem_iff.mp hst)

theorem mem_aliasExports_clause (h : clause.meaning = .exports none names) (ss : List Statement)
    (x : String × String) :
    x ∈ clause.aliasExports ss ↔ x ∈ names ∧ (aliasIn? ss x.1).isSome = true := by
  rw [Statement.aliasExports, h]
  exact List.mem_filter

/-- What a file exports with a clause where it is. -/
theorem aliasExports_unmoved (h : ∀ name, clause.declares name = false)
    (before middle after : List Statement) :
    aliasExports (before ++ clause :: (middle ++ after)) =
      aliasExports before ++ (clause.aliasExports before ++ (aliasExportsAfter before middle ++
        aliasExportsAfter (before ++ middle ++ [clause]) after)) := by
  -- The clause declares nothing, so what stands behind it finds the same with it and without it.
  have hmiddle : aliasExportsAfter (before ++ [clause]) middle = aliasExportsAfter before middle :=
    aliasExportsAfter_congr (fun name => by simpa using aliasIn?_without h before [] name) _
  have hafter : aliasExportsAfter (before ++ [clause] ++ middle) after =
      aliasExportsAfter (before ++ middle ++ [clause]) after := by
    refine aliasExportsAfter_congr (fun name => ?_) _
    have hbefore := aliasIn?_without h before middle name
    have hend := aliasIn?_without h (before ++ middle) [] name
    rw [List.append_nil] at hend
    simpa using hbefore.trans hend.symm
  rw [aliasExports, aliasExportsAfter_append, List.nil_append, aliasExportsAfter,
    aliasExportsAfter_append, hmiddle, hafter]
  rfl

theorem aliasExports_moved (clause : Statement) (before middle after : List Statement) :
    aliasExports (before ++ (middle ++ clause :: after)) =
      aliasExports before ++ (aliasExportsAfter before middle ++
        (clause.aliasExports (before ++ middle) ++
          aliasExportsAfter (before ++ middle ++ [clause]) after)) := by
  rw [aliasExports, aliasExportsAfter_append, aliasExportsAfter_append, List.nil_append]
  rfl

/-- What a clause names and what is declared before it is kept to the end of the file. -/
theorem Orderly.isSome_aliasIn?_of_clause (h : Orderly (before ++ clause :: after))
    (hclause : clause.meaning = .exports none names) {x : String × String} (hx : x ∈ names)
    (halias : (aliasIn? before x.1).isSome = true) :
    (aliasIn? (before ++ clause :: after) x.1).isSome = true := by
  obtain ⟨st, hst, hbody⟩ := exists_declaration_of_aliasIn? halias
  refine h.kept x (List.mem_flatMap.mpr ⟨clause, by simp, ?_⟩) st (List.mem_append_left _ hst) hbody
  simpa [Statement.localExports, hclause] using hx

/-- **A clause that is moved behind what it names exports, besides what it did before, every alias
that it names.** Nothing else is changed by it. -/
theorem mem_aliasExports_moved (h : Orderly (before ++ clause :: (middle ++ after)))
    (hclause : clause.meaning = .exports none names)
    (hbehind : ∀ n ∈ names, ∀ st ∈ after, st.declares n.1 = false) (x : String × String) :
    x ∈ aliasExports (before ++ (middle ++ clause :: after)) ↔
      x ∈ aliasExports (before ++ clause :: (middle ++ after)) ∨
        x ∈ names ∧ (aliasIn? (before ++ clause :: (middle ++ after)) x.1).isSome = true := by
  have hdeclares := declares_of_exports hclause
  -- What the clause names is declared before the rest of the file.
  have hwhole : x ∈ names → aliasIn? (before ++ clause :: (middle ++ after)) x.1 =
      aliasIn? (before ++ middle) x.1 := by
    intro hx
    rw [aliasIn?_without hdeclares, ← List.append_assoc,
      aliasIn?_append_of_not_declares (hbehind x hx)]
  have hkept : x ∈ names → (aliasIn? before x.1).isSome = true →
      (aliasIn? (before ++ middle) x.1).isSome = true := fun hx halias =>
    hwhole hx ▸ h.isSome_aliasIn?_of_clause hclause hx halias
  have hnew : x ∈ names ∧ (aliasIn? (before ++ clause :: (middle ++ after)) x.1).isSome = true ↔
      x ∈ names ∧ (aliasIn? (before ++ middle) x.1).isSome = true :=
    and_congr_right fun hx => by rw [hwhole hx]
  rw [aliasExports_moved, aliasExports_unmoved hdeclares, hnew]
  simp only [List.mem_append, mem_aliasExports_clause hclause]
  constructor
  · rintro (hx | hx | hx | hx)
    · exact .inl (.inl hx)
    · exact .inl (.inr (.inr (.inl hx)))
    · exact .inr hx
    · exact .inl (.inr (.inr (.inr hx)))
  · rintro ((hx | ⟨hx, halias⟩ | hx | hx) | hx)
    · exact .inl hx
    · exact .inr (.inr (.inl ⟨hx, hkept hx halias⟩))
    · exact .inr (.inl hx)
    · exact .inr (.inr (.inr hx))
    · exact .inr (.inr (.inl hx))

end Moving

end Source

end Routebook
