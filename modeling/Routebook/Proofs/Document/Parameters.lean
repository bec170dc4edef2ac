import Mathlib
import Routebook.Proofs.Session.Composition

/-!
# The parameters of an input that is an intersection

An input can be an intersection of objects, and so can each of the sources it declares. The fields
of a source are put together from all objects of one member, but only the first member of the
source's name is looked at, and fields that share a name are not put together. So **every parameter
is a field that some part of the input declares; each comes once if and only if no two objects of a
source share a field, and all of them come if and only if a source is declared by one part, or the
other parts repeat what the first one declares** (`parameters_of_surveyed`).
-/

namespace Routebook

open Disk (Files)

/-- Where a parameter is, and its name. No two parameters of an operation may share both. -/
def Parameter.key (p : Parameter) : ParameterPlace × String := (p.place, p.name)

namespace Session

variable {fs : Files} {s s₁ s₂ s' : Session}

/-! ## What an input declares -/

/-- What an input declares of one source: the objects that make up each member of the source's
name, the first such member first. -/
structure Survey where
  place : ParameterPlace
  declared : List (List ObjectPart)

namespace Survey

/-- Whether some member of the source has an object with a field. -/
def Declares (v : Survey) (key : ParameterPlace × String) : Prop :=
  v.place = key.1 ∧ ∃ parts ∈ v.declared, ∃ part ∈ parts, ∃ f ∈ part, f.name = key.2

/-- The names of the fields of the first member. -/
def first (v : Survey) : List String := (v.declared.headD []).flatten.map (·.name)

def keys (v : Survey) : List (ParameterPlace × String) := v.first.map fun n => (v.place, n)

end Survey

/-- The members of an input that are called like a source are made of objects, all as they are
resolved where the source is read, and the fields of the first have schemas. -/
inductive Surveyed (fs : Files) (input : ObjectPart) : Session → List (String × ParameterPlace) →
    List Survey → Session → Prop where
  | nil {s : Session} : Surveyed fs input s [] [] s
  | absent {s s' : Session} {source : String} {place : ParameterPlace}
    {sources : List (String × ParameterPlace)} {surveys : List Survey}
    (hmembers : input.filter (·.name == source) = [])
    (hrest : Surveyed fs input s sources surveys s') :
    Surveyed fs input s ((source, place) :: sources) (⟨place, []⟩ :: surveys) s'
  | present {s s₁ s₂ s' : Session} {source : String} {place : ParameterPlace}
    {sources : List (String × ParameterPlace)} {surveys : List Survey}
    {m : Member (TypeExpr ModuleId)} {others : ObjectPart} {parts : List ObjectPart}
    {declared : List (List ObjectPart)} {schemas : List Schema}
    (hmembers : input.filter (·.name == source) = m :: others)
    (hfirst : Composed fs s m.type parts s₁)
    (hothers : List.Forall₂ (fun o parts => ∃ s', Composed fs s o.type parts s') others declared)
    (hschemas : (parts.flatten.mapM fun f => schemaOf f.type).on fs s₁ = some (schemas, s₂))
    (hrest : Surveyed fs input s₂ sources surveys s') :
    Surveyed fs input s ((source, place) :: sources) (⟨place, parts :: declared⟩ :: surveys) s'

/-! ## Reading the sources -/

section Sources

variable {input : ObjectPart} {source : String} {place : ParameterPlace}

theorem parametersIn_of_absent (h : input.filter (·.name == source) = []) :
    (parametersIn input source place).on fs s = some ([], s) := by
  rw [parametersIn, Member.find?, ← List.head?_filter, h]
  rfl

/-- Of the members of a source's name the first gives the parameters, one for each field. -/
theorem parametersIn_of_present {m : Member (TypeExpr ModuleId)} {others : ObjectPart}
    {parts : List ObjectPart} {schemas : List Schema}
    (hmembers : input.filter (·.name == source) = m :: others)
    (hfirst : Composed fs s m.type parts s₁)
    (hschemas : (parts.flatten.mapM fun f => schemaOf f.type).on fs s₁ = some (schemas, s₂)) :
    ∃ ps, (parametersIn input source place).on fs s = some (ps, s₂) ∧
      ps.map Parameter.key = (parts.flatten.map (·.name)).map fun n => (place, n) := by
  have hfields : (membersOf? ((Member.find? input source).map (·.type))).on fs s =
      some (some parts.flatten, s₁) := by
    rw [Member.find?, ← List.head?_filter, hmembers]
    exact inputMembers?_of_composed hfirst
  obtain ⟨ps, hps, -⟩ := Analysis.on_mapM_simulates
    (g := fun f : Member (TypeExpr ModuleId) => do
      return (⟨f.name, place, !f.optional, ← schemaOf f.type⟩ : Parameter))
    (R := fun _ _ => True) (fun f _ _ _ _ hschema => ⟨_, Analysis.on_bind hschema, trivial⟩)
    hschemas
  refine ⟨ps, (Analysis.on_bind hfields).trans hps, ?_⟩
  rw [List.map_map]
  refine Analysis.on_mapM_map _ _ (fun f _ p _ hp => ?_) hps
  obtain ⟨schema, _, -, hp⟩ := Analysis.on_bind_eq_some.mp hp
  obtain ⟨rfl, -⟩ := Analysis.on_pure_eq_some.mp hp
  rfl

theorem mapM_parametersIn_of_surveyed {sources : List (String × ParameterPlace)}
    {surveys : List Survey} (h : Surveyed fs input s sources surveys s') :
    ∃ pss, (sources.mapM fun (source, place) => parametersIn input source place).on fs s =
        some (pss, s') ∧ pss.flatten.map Parameter.key = surveys.flatMap Survey.keys := by
  induction h with
  | nil => exact ⟨[], rfl, rfl⟩
  | absent hmembers _ ih =>
    obtain ⟨pss, hpss, hkeys⟩ := ih
    exact ⟨_, Analysis.on_mapM_cons.mpr
      ⟨_, _, pss, parametersIn_of_absent hmembers, hpss, rfl⟩, hkeys⟩
  | present hmembers hfirst _ hschemas _ ih =>
    obtain ⟨pss, hpss, hkeys⟩ := ih
    obtain ⟨ps, hps, hfields⟩ := parametersIn_of_present hmembers hfirst hschemas
    refine ⟨_, Analysis.on_mapM_cons.mpr ⟨_, _, pss, hps, hpss, rfl⟩, ?_⟩
    rw [List.flatten_cons, List.map_append, hfields, hkeys]
    rfl

theorem places_of_surveyed {sources : List (String × ParameterPlace)} {surveys : List Survey}
    (h : Surveyed fs input s sources surveys s') :
    surveys.map Survey.place = sources.map Prod.snd := by
  induction h with
  | nil => rfl
  | absent _ _ ih => rw [List.map_cons, List.map_cons, ih]
  | present _ _ _ _ _ ih => rw [List.map_cons, List.map_cons, ih]

end Sources

/-! ## Which keys there are -/

section Keys

variable {surveys : List Survey} {key : ParameterPlace × String}

theorem Survey.mem_keys {v : Survey} : key ∈ v.keys ↔ v.place = key.1 ∧ key.2 ∈ v.first := by
  rw [keys, List.mem_map]
  constructor
  · rintro ⟨n, hn, rfl⟩
    exact ⟨rfl, hn⟩
  · rintro ⟨hplace, hn⟩
    exact ⟨key.2, hn, Prod.ext hplace rfl⟩

theorem Survey.mem_first {v : Survey} {n : String} :
    n ∈ v.first ↔ ∃ part ∈ v.declared.headD [], ∃ f ∈ part, f.name = n := by
  simp only [first, List.mem_map, List.mem_flatten]
  exact ⟨fun ⟨f, ⟨part, hpart, hf⟩, hn⟩ => ⟨part, hpart, f, hf, hn⟩,
    fun ⟨part, hpart, f, hf, hn⟩ => ⟨f, ⟨part, hpart, hf⟩, hn⟩⟩

/-- What is read off the first member is declared. -/
theorem Survey.declares_of_mem_keys {v : Survey} (h : key ∈ v.keys) : v.Declares key := by
  obtain ⟨hplace, hn⟩ := mem_keys.mp h
  obtain ⟨part, hpart, f, hf, hn⟩ := mem_first.mp hn
  refine ⟨hplace, v.declared.headD [], ?_, part, hpart, f, hf, hn⟩
  cases hdeclared : v.declared with
  | nil =>
    rw [hdeclared] at hpart
    exact absurd hpart List.not_mem_nil
  | cons parts declared => exact List.mem_cons_self

/-- Surveys of different places share no key, so each is judged by itself. -/
theorem eq_of_place_eq (hplaces : (surveys.map Survey.place).Nodup) {v w : Survey}
    (hv : v ∈ surveys) (hw : w ∈ surveys) (h : v.place = w.place) : v = w :=
  List.inj_on_of_nodup_map hplaces hv hw h

theorem nodup_flatMap_keys (hplaces : (surveys.map Survey.place).Nodup) :
    (surveys.flatMap Survey.keys).Nodup ↔ ∀ v ∈ surveys, v.first.Nodup := by
  have hinjective (v : Survey) : Function.Injective fun n : String => (v.place, n) :=
    fun _ _ h => (Prod.mk.inj h).2
  have hdisjoint : surveys.Pairwise (Function.onFun List.Disjoint Survey.keys) := by
    refine (List.pairwise_map.mp hplaces).imp fun {v w} hne key hv hw => ?_
    exact hne ((Survey.mem_keys.mp hv).1.trans (Survey.mem_keys.mp hw).1.symm)
  rw [List.nodup_flatMap, and_iff_left hdisjoint]
  exact forall₂_congr fun v _ => List.nodup_map_iff (hinjective v)

theorem forall_mem_flatMap_keys (hplaces : (surveys.map Survey.place).Nodup) :
    (∀ key, (∃ v ∈ surveys, v.Declares key) → key ∈ surveys.flatMap Survey.keys) ↔
      ∀ v ∈ surveys, ∀ parts ∈ v.declared.tail, ∀ part ∈ parts, ∀ f ∈ part, f.name ∈ v.first := by
  constructor
  · intro h v hv parts hparts part hpart f hf
    obtain ⟨w, hw, hkey⟩ := List.mem_flatMap.mp <| h (v.place, f.name)
      ⟨v, hv, rfl, parts, List.mem_of_mem_tail hparts, part, hpart, f, hf, rfl⟩
    obtain ⟨hplace, hn⟩ := Survey.mem_keys.mp hkey
    rwa [eq_of_place_eq hplaces hw hv hplace] at hn
  · rintro h key ⟨v, hv, hplace, parts, hparts, part, hpart, f, hf, hn⟩
    refine List.mem_flatMap.mpr ⟨v, hv, Survey.mem_keys.mpr ⟨hplace, ?_⟩⟩
    rw [← hn]
    cases hdeclared : v.declared with
    | nil =>
      rw [hdeclared] at hparts
      exact absurd hparts List.not_mem_nil
    | cons parts₀ declared =>
      rw [hdeclared, List.mem_cons] at hparts
      rcases hparts with rfl | hparts
      · exact Survey.mem_first.mpr ⟨part, by rwa [hdeclared], f, hf, rfl⟩
      · exact h v hv parts (by rwa [hdeclared]) part hpart f hf

end Keys

/-! ## The parameters -/

/-- **The parameters are the fields that the first part of each source declares.** All of them are
declared by some part. Each comes once exactly if no source has a field in two of the objects of its
first member, and all that is declared comes exactly if later members repeat fields of the first. -/
theorem parameters_of_surveyed {b : Branch} {t : TypeExpr ModuleId} {parts : List ObjectPart}
    {surveys : List Survey} (hinput : b.input = some t) (hparts : Composed fs s t parts s₁)
    (hsurveyed : Surveyed fs parts.flatten s₁ parameterSources surveys s') :
    ∃ ps, (parameters b).on fs s = some (ps, s') ∧
      (∀ p ∈ ps, ∃ v ∈ surveys, v.Declares p.key) ∧
      ((ps.map Parameter.key).Nodup ↔ ∀ v ∈ surveys, v.first.Nodup) ∧
      ((∀ key, (∃ v ∈ surveys, v.Declares key) → key ∈ ps.map Parameter.key) ↔
        ∀ v ∈ surveys, ∀ parts ∈ v.declared.tail, ∀ part ∈ parts, ∀ f ∈ part,
          f.name ∈ v.first) := by
  have hmembers : (membersOf? b.input).on fs s = some (some parts.flatten, s₁) := by
    rw [hinput]
    exact inputMembers?_of_composed hparts
  have hplaces : (surveys.map Survey.place).Nodup := by
    rw [places_of_surveyed hsurveyed]
    decide
  obtain ⟨pss, hpss, hkeys⟩ := mapM_parametersIn_of_surveyed hsurveyed
  refine ⟨pss.flatten, (Analysis.on_bind hmembers).trans (Analysis.on_bind hpss), fun p hp => ?_,
    ?_, ?_⟩
  · have hkey : p.key ∈ surveys.flatMap Survey.keys := hkeys ▸ List.mem_map_of_mem hp
    obtain ⟨v, hv, hkey⟩ := List.mem_flatMap.mp hkey
    exact ⟨v, hv, Survey.declares_of_mem_keys hkey⟩
  · rw [hkeys]
    exact nodup_flatMap_keys hplaces
  · rw [hkeys]
    exact forall_mem_flatMap_keys hplaces

/-! ### An input of two parts that share a source -/

section Paged

/-- A part of an input: one field of the query, and a header from two objects. -/
def pagedPart : ObjectPart :=
  [⟨"query", false, .object (textMembers [("page", false)])⟩,
    ⟨"header", false, .intersection
      [.object (textMembers [("token", false)]), .object (textMembers [("token", true)])]⟩]

def pagedSession : Session :=
  { Session.start .empty with
    modules := [{ Module.empty ⟨"paged.ts"⟩ with
      declarations := [("Paged", .typeAlias [] (.object pagedPart))] }] }

/-- The other part has two fields of the query, from two objects. -/
def pagedInput : TypeExpr ModuleId :=
  .intersection [
    .object [⟨"query", false, .intersection
      [.object (textMembers [("limit", false)]), .object (textMembers [("sort", true)])]⟩],
    .reference "Paged" [] 0]

def pagedSurveys : List Survey := [
  ⟨.query, [[textMembers [("limit", false)], textMembers [("sort", true)]],
    [textMembers [("page", false)]]]⟩,
  ⟨.path, []⟩,
  ⟨.header, [[textMembers [("token", false)], textMembers [("token", true)]]]⟩,
  ⟨.cookie, []⟩]

theorem mapM_schemaOf_textMembers (fs : Files) (s : Session) (xs : List (String × Bool)) :
    ((textMembers xs).mapM fun f => schemaOf f.type).on fs s =
      some (xs.map fun _ => .ofType "string", s) := by
  induction xs with
  | nil => rfl
  | cons x xs ih =>
    have hstring : (schemaOf (.keyword .string)).on fs s = some (.ofType "string", s) := by
      show schemaWithin [] (.keyword .string) fs s = _
      rw [schemaWithin.eq_def]
      rfl
    exact Analysis.on_mapM_cons.mpr ⟨_, _, _, hstring, ih, rfl⟩

theorem surveyed_pagedInput : ∃ parts,
    Composed ⟨[], []⟩ pagedSession pagedInput parts pagedSession ∧
      Surveyed ⟨[], []⟩ parts.flatten pagedSession parameterSources pagedSurveys pagedSession := by
  have hpaged : (resolve (.reference "Paged" [] 0)).on ⟨[], []⟩ pagedSession =
      some (.object pagedPart, pagedSession) := by
    cbv
  have htwo (a b : ObjectPart) : Composed ⟨[], []⟩ pagedSession
      (.intersection [.object a, .object b]) [a, b] pagedSession :=
    composed_intersection (.cons (composed_object a) (.cons (composed_object b) .nil))
  refine ⟨_, composed_intersection
    (.cons (composed_object _) (.cons (.object hpaged) .nil)), ?_⟩
  refine .present rfl (htwo _ _) (.cons ⟨_, composed_object _⟩ .nil)
    (mapM_schemaOf_textMembers _ _ [("limit", false), ("sort", true)]) ?_
  refine .absent rfl ?_
  refine .present rfl (htwo _ _) .nil
    (mapM_schemaOf_textMembers _ _ [("token", false), ("token", true)]) ?_
  exact .absent rfl .nil

/-- The parameter that only the second part declares is lost, and the header comes twice. -/
theorem parameters_of_surveyed_paged : ∃ ps,
    (parameters ⟨some pagedInput, none, none, none⟩).on ⟨[], []⟩ pagedSession =
      some (ps, pagedSession) ∧
    (∀ p ∈ ps, ∃ v ∈ pagedSurveys, v.Declares p.key) ∧
    ¬ (ps.map Parameter.key).Nodup ∧
    ¬ ∀ key, (∃ v ∈ pagedSurveys, v.Declares key) → key ∈ ps.map Parameter.key := by
  obtain ⟨parts, hparts, hsurveyed⟩ := surveyed_pagedInput
  obtain ⟨ps, hps, hdeclared, hnodup, hall⟩ := parameters_of_surveyed
    (b := ⟨some pagedInput, none, none, none⟩) rfl hparts hsurveyed
  refine ⟨ps, hps, hdeclared, fun h => ?_, fun h => ?_⟩
  · exact absurd (hnodup.mp h _ (.tail _ (.tail _ (.head _)))) (by decide)
  · exact absurd (hall.mp h _ (.head _) _ (.head _) _ (.head _) _ (.head _)) (by decide)

end Paged

end Session

end Routebook
