import Routebook.Document.Build
import Routebook.Proofs.Document.Plan
import Routebook.Proofs.Route.Simulation

/-!
# Documents in corresponding sessions

Corresponding types have the same schema (`simulates_schemaOf`), although the guard against types
inside themselves remembers them by the numbers of their modules. So **corresponding entries have
the same paths with the same operations** (`simulates_pathsOfEntries`): nothing of the numbering
comes into a document.
-/

namespace Routebook

open Disk (Files)

namespace Correspondence

open Session

variable {fs : Files} {C : Correspondence fs} {w : World}

/-! ## Schemas -/

/-- Types that are known by a name are known by the same one, each in its own module. -/
theorem corresponds_nameKey? {t u : TypeExpr ModuleId} (h : C.Types w t u) :
    Option.Rel (C.Names w) (nameKey? t) (nameKey? u) := by
  have htext := h.text
  cases h with
  | reference name hts hid => exact .some ⟨⟨none, hid⟩, htext⟩
  | imported specifier qualifier hts hid => exact .some ⟨⟨some specifier, hid⟩, htext⟩
  | query name hid => exact .some ⟨⟨none, hid⟩, htext⟩
  | _ => exact .none

theorem boolean?_eq {t u : TypeExpr ModuleId} (h : C.Types w t u) : boolean? u = boolean? t := by
  cases h with
  | literal l => cases l <;> rfl
  | _ => rfl

/-- Flattening finds corresponding members, because it looks at nothing but their shapes. -/
theorem simulates_flattenUnion {ts us : List (TypeExpr ModuleId)}
    (h : List.Forall₂ (C.Types w) ts us) :
    C.Simulates w (fun w => List.Forall₂ (C.Types w)) (flattenUnion ts) (flattenUnion us) := by
  intro r s hr
  refine flattenUnion.partial_correctness (fun ts fs s r => ∀ (C : Correspondence fs) us s',
    List.Forall₂ (C.Types (s, s')) ts us →
    C.Matched (s, s') (fun w => List.Forall₂ (C.Types w)) r (flattenUnion us))
    ?_ ts fs w.1 (r, s) hr C us w.2 h
  intro flattenUnion₀ ih ts fs s ⟨r, s₁⟩ h C us s' hts
  have hinner : ∀ w ts us, List.Forall₂ (C.Types w) ts us →
      C.Simulates w (fun w => List.Forall₂ (C.Types w)) (flattenUnion₀ ts) (flattenUnion us) :=
    fun w ts us hts r s h => ih ts fs w.1 (r, s) h C us w.2 hts
  rw [show (flattenUnion us : Analysis _) = _ from funext₂ (flattenUnion.eq_def us)]
  refine (?_ : C.Simulates (s, s') (fun w => List.Forall₂ (C.Types w)) _ _) r s₁ h
  refine Simulates.bind (.mapM kept_types.list (hts.imp fun t u htu w₁ hw₁ => ?_))
    fun w₁ _ parts parts' hparts => .pure (List.rel_flatten hparts)
  have hkept := kept_types hw₁.extends_ htu
  have hsingle : C.Simulates w₁ (fun w => List.Forall₂ (C.Types w)) (pure [t]) (pure [u]) :=
    .pure (.cons hkept .nil)
  have hresolve := simulates_resolve hkept
  cases htu with
  | reference name hts hid | imported specifier qualifier hts hid =>
    -- A name is replaced by what it stands for if that is a union, a literal or a keyword.
    refine hresolve.bind fun w₂ hw₂ shape shape' hshape => ?_
    cases hshape with
    | union hts => exact hinner w₂ _ _ (TypeExpr.correspondsList_iff.mp hts)
    | literal l => exact .pure (.cons (.literal l) .nil)
    | keyword k => exact .pure (.cons (.keyword k) .nil)
    | _ => exact .pure (.cons (kept_types hw₂.extends_ hkept) .nil)
  | union hts =>
    exact hinner w₁ _ _ (kept_types.list hw₁.extends_ (TypeExpr.correspondsList_iff.mp hts))
  | _ => exact hsingle

/-! ### Unions -/

theorem any_eq {f : TypeExpr ModuleId → Bool} (hf : ∀ t u, C.Types w t u → f u = f t)
    {ts us : List (TypeExpr ModuleId)} (h : List.Forall₂ (C.Types w) ts us) :
    us.any f = ts.any f := by
  induction h with
  | nil => rfl
  | cons htu _ ih => rw [List.any_cons, List.any_cons, hf _ _ htu, ih]

theorem mapM_string?_eq {ts us : List (TypeExpr ModuleId)} (h : List.Forall₂ (C.Types w) ts us) :
    us.mapM TypeExpr.string? = ts.mapM TypeExpr.string? := by
  induction h with
  | nil => rfl
  | cons htu _ ih => rw [List.mapM_cons, List.mapM_cons, htu.string?, ih]

/-- Of the two truth values the same ones are left, and nullish members are left out alike. -/
theorem corresponds_alternatives {ts us : List (TypeExpr ModuleId)}
    (h : List.Forall₂ (C.Types w) ts us) :
    List.Forall₂ (C.Types w) (alternatives ts) (alternatives us) := by
  have hany : ∀ b : Bool, (us.any fun t => boolean? t == some b) =
      ts.any fun t => boolean? t == some b :=
    fun b => any_eq (fun t u htu => by rw [boolean?_eq htu]) h
  rw [alternatives, alternatives]
  refine List.rel_filter (fun t u htu => ?_) h
  simp only [hany, htu.isNullish, boolean?_eq htu]

/-! ### Plans -/

variable (C) in
/-- Plans for corresponding types. -/
inductive Plans (w : World) : SchemaPlan → SchemaPlan → Prop where
  | leaf (x : Schema) : Plans w (.leaf x) (.leaf x)
  | array {t u : TypeExpr ModuleId} (h : C.Types w t u) : Plans w (.array t) (.array u)
  | object {ms ns : List (Member (TypeExpr ModuleId))} (h : C.Members w ms ns) :
      Plans w (.object ms) (.object ns)
  | alternatives {ts us : List (TypeExpr ModuleId)} (h : List.Forall₂ (C.Types w) ts us) :
      Plans w (.alternatives ts) (.alternatives us)

theorem Plans.parts {p q : SchemaPlan} (h : C.Plans w p q) :
    List.Forall₂ (C.Types w) p.parts q.parts := by
  cases h with
  | leaf x => exact .nil
  | array h => exact .cons h .nil
  | object h =>
    rw [SchemaPlan.parts, SchemaPlan.parts, List.forall₂_map_left_iff, List.forall₂_map_right_iff]
    exact h.imp fun _ _ hxy => hxy.type
  | alternatives h => exact h

/-- Corresponding plans make the same schema of the same parts. -/
theorem Plans.assemble_eq {p q : SchemaPlan} (h : C.Plans w p q) (xs : List Schema) :
    q.assemble xs = p.assemble xs := by
  cases h with
  | object h =>
    rw [SchemaPlan.assemble, SchemaPlan.assemble]
    congr 1
    induction h generalizing xs with
    | nil => rfl
    | cons hxy _ ih =>
      cases xs with
      | nil => rfl
      | cons x xs =>
        simp only [List.zip_cons_cons, List.map_cons, ih, hxy.name, hxy.optional]
  | _ => rfl

/-- The plan for a union asks of the members only what corresponding members have in common. -/
theorem simulates_planOf {t u : TypeExpr ModuleId} (h : C.Types w t u) :
    C.Simulates w C.Plans (planOf t) (planOf u) := by
  cases h with
  | union hts =>
    refine (simulates_flattenUnion (TypeExpr.correspondsList_iff.mp hts)).bind
      fun w₁ _ flat flat' hflat => ?_
    have hpresent : List.Forall₂ (C.Types w₁) (flat.filter fun m => !m.isNullish)
        (flat'.filter fun m => !m.isNullish) :=
      List.rel_filter (fun t u htu => by simp only [htu.isNullish]) hflat
    dsimp only
    rw [mapM_string?_eq hpresent]
    split
    · rw [any_eq (fun t u htu => htu.isNullish) hflat]
      exact .pure (.leaf _)
    · exact .pure (.alternatives (corresponds_alternatives hflat))
  | array ht => exact .pure (.array ht)
  | object hms => exact .pure (.object (TypeExpr.correspondsMembers_iff.mp hms))
  | keyword k => cases k <;> exact .pure (.leaf _)
  | literal l => exact .pure (.leaf _)
  | _ => exact .pure (.leaf _)

/-- Types of corresponding shapes have the same schema if their parts have. -/
theorem simulates_shapeSchema {f g : TypeExpr ModuleId → Analysis Schema} {t u : TypeExpr ModuleId}
    (hfg : ∀ w₁, C.Later w w₁ → ∀ t u, C.Types w₁ t u →
      C.Simulates w₁ (fun _ a b => b = a) (f t) (g u))
    (h : C.Types w t u) :
    C.Simulates w (fun _ a b => b = a) (shapeSchema f t) (shapeSchema g u) := by
  refine (simulates_planOf h).bind fun w₁ hw₁ p q hpq => ?_
  have hparts := Simulates.mapM (C := C) kept_eq (hpq.parts.imp fun t u htu w₂ hw₂ =>
    hfg w₂ (hw₁.trans hw₂) t u (kept_types hw₂.extends_ htu))
  refine hparts.bind fun w₂ _ xs ys hxs => .pure ?_
  rw [eq_of_forall₂ hxs, hpq.assemble_eq]

/-! ### The guard -/

/-- **Corresponding types have the same schema, and what is being expanded stops both at the same
type.** -/
theorem simulates_schemaWithin {open_ open_' : List NameKey} {t u : TypeExpr ModuleId}
    (hopen : List.Forall₂ (C.Names w) open_ open_') (h : C.Types w t u) :
    C.Simulates w (fun _ a b => b = a) (schemaWithin open_ t) (schemaWithin open_' u) := by
  intro r s hr
  refine schemaWithin.partial_correctness (fun open_ t fs s r => ∀ (C : Correspondence fs) open_' u
    s', List.Forall₂ (C.Names (s, s')) open_ open_' → C.Types (s, s') t u →
    C.Matched (s, s') (fun _ a b => b = a) r (schemaWithin open_' u))
    ?_ open_ t fs w.1 (r, s) hr C open_' u w.2 hopen h
  intro schemaWithin₀ ih open_ t fs s ⟨r, s₁⟩ h C open_' u s' hopen htu
  have hinner : ∀ w open_ open_' t u, List.Forall₂ (C.Names w) open_ open_' → C.Types w t u →
      C.Simulates w (fun _ a b => b = a) (schemaWithin₀ open_ t) (schemaWithin open_' u) :=
    fun w open_ open_' t u hopen htu r s h => ih open_ t fs w.1 (r, s) h C open_' u w.2 hopen htu
  rw [show (schemaWithin open_' u : Analysis _) = _ from funext₂ (schemaWithin.eq_def open_' u)]
  refine (?_ : C.Simulates (s, s') (fun _ a b => b = a) _ _) r s₁ h
  have hkey := corresponds_nameKey? htu
  generalize nameKey? t = key at hkey
  generalize nameKey? u = key' at hkey
  cases hkey with
  | @some key key' hkey =>
    refine .of_related fun hw => ?_
    dsimp only
    rw [contains_names hw.sessions hopen hkey]
    split
    · exact .pure rfl
    · refine (simulates_expand htu).bind fun w₁ hw₁ next next' hnext => ?_
      cases hnext with
      | none => exact .pure rfl
      | some hnext =>
        exact hinner w₁ _ _ _ _ (.cons (kept_names hw₁.extends_ hkey)
          (kept_names.list hw₁.extends_ hopen)) hnext
  | none =>
    exact simulates_shapeSchema (fun w₁ hw₁ t u => hinner w₁ open_ open_' t u
      (kept_names.list hw₁.extends_ hopen)) htu

theorem simulates_schemaOf {t u : TypeExpr ModuleId} (h : C.Types w t u) :
    C.Simulates w (fun _ a b => b = a) (schemaOf t) (schemaOf u) :=
  simulates_schemaWithin .nil h

/-! ## Inputs -/

/-- What goes in is an object, or an intersection of them, on both sides. -/
theorem simulates_inputMembers? {t u : TypeExpr ModuleId} (h : C.Types w t u) :
    C.Simulates w (fun w => Option.Rel (C.Members w)) (inputMembers? t) (inputMembers? u) := by
  intro r s hr
  refine inputMembers?.partial_correctness (fun t fs s r => ∀ (C : Correspondence fs) u s',
    C.Types (s, s') t u →
    C.Matched (s, s') (fun w => Option.Rel (C.Members w)) r (inputMembers? u))
    ?_ t fs w.1 (r, s) hr C u w.2 h
  intro inputMembers₀ ih t fs s ⟨r, s₁⟩ h C u s' htu
  have hinner : ∀ w t u, C.Types w t u →
      C.Simulates w (fun w => Option.Rel (C.Members w)) (inputMembers₀ t) (inputMembers? u) :=
    fun w t u htu r s h => ih t fs w.1 (r, s) h C u w.2 htu
  rw [show (inputMembers? u : Analysis _) = _ from funext₂ (inputMembers?.eq_def u)]
  refine (?_ : C.Simulates (s, s') (fun w => Option.Rel (C.Members w)) _ _) r s₁ h
  refine (simulates_resolve htu).bind fun w₁ _ shape shape' hshape => ?_
  cases hshape with
  | object hms => exact .pure (.some (TypeExpr.correspondsMembers_iff.mp hms))
  | intersection hts =>
    have hparts := Simulates.mapM (C := C) kept_members.option
      ((TypeExpr.correspondsList_iff.mp hts).imp fun t u htu w₂ hw₂ =>
        hinner w₂ t u (kept_types hw₂.extends_ htu))
    refine hparts.bind fun w₂ _ mss mss' hmss => .pure (.some (List.rel_flatMap hmss ?_))
    intro ms ms' hms
    cases hms with
    | none => exact .nil
    | some hms => exact hms
  | _ => exact .pure .none

theorem simulates_membersOf? {t u : Option (TypeExpr ModuleId)} (h : Option.Rel (C.Types w) t u) :
    C.Simulates w (fun w => Option.Rel (C.Members w)) (membersOf? t) (membersOf? u) := by
  cases h with
  | none => exact .pure .none
  | some h => exact simulates_inputMembers? h

/-- Parameters keep nothing of a type but its schema. -/
theorem simulates_parametersIn {ms ns : List (Member (TypeExpr ModuleId))} (h : C.Members w ms ns)
    (source : String) (place : ParameterPlace) :
    C.Simulates w (fun _ a b => b = a) (parametersIn ms source place)
      (parametersIn ns source place) := by
  rw [parametersIn, parametersIn]
  have htype : Option.Rel (C.Types w) ((Member.find? ms source).map (·.type))
      ((Member.find? ns source).map (·.type)) := by
    have hmember := Member.corresponds_find? h source
    generalize Member.find? ms source = x at hmember
    generalize Member.find? ns source = y at hmember
    cases hmember with
    | none => exact .none
    | some hxy => exact .some hxy.type
  refine (simulates_membersOf? htype).bind fun w₁ _ fields fields' hfields => ?_
  cases hfields with
  | none => exact .pure rfl
  | some hfields =>
    have hparameters := Simulates.mapM (C := C) kept_eq
      (f := fun f => do return (⟨f.name, place, !f.optional, ← schemaOf f.type⟩ : Parameter))
      (g := fun f => do return (⟨f.name, place, !f.optional, ← schemaOf f.type⟩ : Parameter))
      (hfields.imp fun x y hxy w₂ hw₂ => by
        have hschema := simulates_schemaOf (kept_types hw₂.extends_ hxy.type)
        refine hschema.bind fun w₃ _ a b hab => .pure ?_
        rw [hab, hxy.name, hxy.optional])
    exact fun r s hr hw => by
      obtain ⟨r', s', hr', hlater, hrr⟩ := hparameters r s hr hw
      exact ⟨r', s', hr', hlater, eq_of_forall₂ hrr⟩

theorem simulates_parameters {x y : Branch} (h : x.Corresponds (C.ids w) y) :
    C.Simulates w (fun _ a b => b = a) (parameters x) (parameters y) := by
  rw [parameters, parameters]
  refine (simulates_membersOf? h.input).bind fun w₁ _ input input' hinput => ?_
  cases hinput with
  | none => exact .pure rfl
  | some hinput =>
    refine Simulates.bind (.mapM kept_eq (List.forall₂_same.mpr fun e _ w₂ hw₂ => ?_))
      fun w₂ _ ps ps' hps => .pure (by rw [eq_of_forall₂ hps])
    exact simulates_parametersIn (kept_members hw₂.extends_ hinput) e.1 e.2

theorem simulates_requestBody {x y : Branch} (h : x.Corresponds (C.ids w) y) :
    C.Simulates w (fun _ a b => b = a) (requestBody x) (requestBody y) := by
  rw [requestBody, requestBody]
  refine (simulates_membersOf? h.input).bind fun w₁ _ input input' hinput => ?_
  cases hinput with
  | none => exact .pure rfl
  | some hinput =>
    refine Simulates.bind (.filterMapM kept_eq fun e _ w₂ hw₂ => ?_)
      fun w₂ _ content content' hcontent => .pure (by rw [eq_of_forall₂ hcontent])
    obtain ⟨source, mediaType⟩ := e
    have hmember := Member.corresponds_find? (kept_members hw₂.extends_ hinput) source
    dsimp only
    revert hmember
    generalize Member.find? _ source = m
    generalize Member.find? _ source = m'
    intro hmember
    cases hmember with
    | none => exact .pure .none
    | some hxy =>
      refine (simulates_schemaOf hxy.type).bind fun w₃ _ a b hab => .pure (.some ?_)
      rw [hab]

/-! ## Responses -/

theorem isNoContent_eq {t u : TypeExpr ModuleId} (h : C.Types w t u) :
    isNoContent u = isNoContent t := by
  cases h with
  | keyword k => cases k <;> rfl
  | _ => rfl

theorem simulates_addBranch (gs : ResponseGroups) {x y : Branch}
    (h : x.Corresponds (C.ids w) y) :
    C.Simulates w (fun _ a b => b = a) (addBranch gs x) (addBranch gs y) := by
  have hstatus : y.statusKey = x.statusKey := by rw [Branch.statusKey, Branch.statusKey, h.status]
  have hmediaType : y.mediaType = x.mediaType := by
    rw [Branch.mediaType, Branch.mediaType, h.format]
  rw [addBranch, addBranch, hstatus, hmediaType]
  have houtput := h.output
  generalize x.output = t at houtput
  generalize y.output = u at houtput
  cases houtput with
  | none => exact .pure rfl
  | some houtput =>
    refine (simulates_resolve houtput).bind fun w₁ _ shape shape' hshape => ?_
    rw [isNoContent_eq hshape]
    split
    · exact .pure rfl
    · refine (simulates_schemaOf hshape).bind fun w₂ _ a b hab => .pure ?_
      rw [hab]

/-- Branches are grouped by status and media type, which do not depend on the session. -/
theorem simulates_responses {bs bs' : List Branch}
    (h : List.Forall₂ (Branch.Corresponds (C.ids w)) bs bs') :
    C.Simulates w (fun _ a b => b = a) (responses bs) (responses bs') := by
  rw [responses, responses]
  have hgroups : C.Simulates w (fun _ a b => b = a) (bs.foldlM addBranch [])
      (bs'.foldlM addBranch []) := by
    refine .foldlM (h.imp fun x y hxy w₁ hw₁ gs gs' hgs => ?_) rfl
    rw [hgs]
    exact simulates_addBranch gs (kept_branch hw₁.extends_ hxy)
  refine hgroups.bind fun w₁ _ gs gs' hgs => .pure ?_
  rw [hgs]

/-! ## Operations -/

/-- Corresponding signatures are one operation. -/
theorem simulates_operation (docs : RouteDocs) (group written path : String) {x y : Signature}
    (h : x.Corresponds (C.ids w) y) :
    C.Simulates w (fun _ a b => b = a) (operation docs group written path x)
      (operation docs group written path y) := by
  rw [operation, operation, h.method]
  have hresponses : ∀ (base : Operation) w₁, C.Later w w₁ → C.Simulates w₁ (fun _ a b => b = a)
      (do
        let rs ← responses x.branches
        return { base with responses := if rs.isEmpty then defaultResponses else rs })
      (do
        let rs ← responses y.branches
        return { base with responses := if rs.isEmpty then defaultResponses else rs }) := by
    intro base w₁ hw₁
    have hbranches := kept_branch.list hw₁.extends_ h.branches
    refine (simulates_responses hbranches).bind fun w₂ _ rs rs' hrs => .pure ?_
    rw [hrs]
  -- The first branch says what goes in, all of them what comes out.
  have hbranches := h.branches
  generalize x.branches = bs at hbranches hresponses
  generalize y.branches = bs' at hbranches hresponses
  refine .of_related fun hw => ?_
  cases hbranches with
  | nil => exact hresponses _ w (.refl hw)
  | cons hfirst _ =>
    refine (simulates_parameters hfirst).bind fun w₁ hw₁ ps ps' hps => ?_
    have hfirst := kept_branch hw₁.extends_ hfirst
    refine (simulates_requestBody hfirst).bind fun w₂ hw₂ body body' hbody => ?_
    rw [hps, hbody]
    exact hresponses _ w₂ (hw₁.trans hw₂)

theorem simulates_addRoute (docs : RouteDocs) (group mount : String) (ps : Paths)
    {x y : Member (TypeExpr ModuleId)} (h : x.Corresponds (C.Types w) y) :
    C.Simulates w (fun _ a b => b = a) (addRoute docs group mount ps x)
      (addRoute docs group mount ps y) := by
  rw [addRoute, addRoute, h.name]
  refine (simulates_signatures h.type).bind fun w₁ _ gs gs' hgs => ?_
  refine .foldlM (hgs.imp fun g g' hg w₂ hw₂ ps ps' hps => ?_) rfl
  have hoperation := simulates_operation docs group x.name
    (Path.normalize (Path.join mount x.name)) (kept_signature hw₂.extends_ hg)
  refine hoperation.bind fun w₃ _ o o' ho => .pure ?_
  rw [hps, ho, hg.method]

/-- **Corresponding entries have the same paths with the same operations.** -/
theorem simulates_pathsOfEntries (docs : RouteDocs) (group : String) {es es' : List RouteEntry}
    (h : C.Entries w es es') :
    C.Simulates w (fun _ a b => b = a) (pathsOfEntries docs group es)
      (pathsOfEntries docs group es') := by
  rw [pathsOfEntries, pathsOfEntries]
  refine .foldlM (h.imp fun e e' he w₁ hw₁ ps ps' hps => ?_) rfl
  rw [he.mount, hps]
  refine .foldlM ((kept_members hw₁.extends_ he.routes).imp fun x y hxy w₂ hw₂ ps ps' hps => ?_) rfl
  rw [hps]
  exact simulates_addRoute docs group e.mount ps (kept_types.member hw₂.extends_ hxy)

end Correspondence

end Routebook
