import Routebook.Proofs.Document.Termination

/-!
# Enumerations and alternatives

A schema has other schemas in it, and each of them is the schema of a type that was asked for on the
way. So what can be said of an enumeration is read off the type it was made of: **an enumeration is
a string literal, or all that is left of a union without what is nullish**, one value for each
member, in their order (`Session.enumerations_of_schemaOf`). A value that two members of a union
have is there twice, since members are put together and not compared.

Alternatives are never missing. The truth value that stands for both is always left
(`Session.alternatives_ne_nil`).
-/

namespace Routebook

open Disk (Files)

/-! ## Schemas in schemas -/

namespace Schema

/-- The schemas that a schema is put together from. -/
def parts (x : Schema) : List Schema :=
  x.oneOf.getD [] ++ x.items.toList ++ (x.properties.getD []).map Prod.snd

/-- A schema is another one, or a part of it, or a part of a part, and so on. -/
inductive OccursIn (y : Schema) : Schema → Prop where
  | itself : OccursIn y y
  | part {z x : Schema} (h : OccursIn y z) (hz : z ∈ x.parts) : OccursIn y x

theorem OccursIn.eq_of_parts {y x : Schema} (h : y.OccursIn x) (hx : x.parts = []) : y = x := by
  cases h with
  | itself => rfl
  | part _ hz =>
    rw [hx] at hz
    cases hz

theorem mem_parts_objectSchema {members : List (String × Bool × Schema)} {z : Schema}
    (h : z ∈ (Session.objectSchema members).parts) : ∃ m ∈ members, m.2.2 = z := by
  simp only [parts, Session.objectSchema, Option.getD_none, Option.toList_none, List.append_nil,
    List.nil_append, Option.getD_some, List.mem_map] at h
  obtain ⟨e, he, rfl⟩ := h
  obtain ⟨m, hm, rfl⟩ := List.mem_map.mp (Table.mem_of_mem_ofEntries he)
  exact ⟨m, hm, rfl⟩

end Schema

/-- Each result of a list of steps is that of one of them, in the session that those before it
leave. -/
theorem Analysis.exists_of_mem_mapM {α β : Type} {fs : Files} {s s' : Session} {f : α → Analysis β}
    {as : List α} {xs : List β} {x : β} (h : (as.mapM f).on fs s = some (xs, s')) (hx : x ∈ xs) :
    ∃ before a after ys s₁ s₂, as = before ++ a :: after ∧
      (before.mapM f).on fs s = some (ys, s₁) ∧ (f a).on fs s₁ = some (x, s₂) := by
  induction as generalizing s xs with
  | nil =>
    obtain ⟨rfl, rfl⟩ := on_pure_eq_some.mp h
    cases hx
  | cons a as ih =>
    obtain ⟨y, s₁, ys, hy, hys, rfl⟩ := on_mapM_cons.mp h
    obtain rfl | hx := List.mem_cons.mp hx
    · exact ⟨[], a, as, [], s, s₁, rfl, rfl, hy⟩
    · obtain ⟨before, b, after, zs, s₂, s₃, rfl, hbefore, hb⟩ := ih hys hx
      exact ⟨a :: before, b, after, y :: zs, s₂, s₃, rfl,
        on_mapM_cons.mpr ⟨y, s₁, zs, hy, hbefore, rfl⟩, hb⟩

namespace Session

variable {fs : Files} {s s' s₁ : Session} {t u : TypeExpr ModuleId} {open_ : List NameKey}
  {flat : List (TypeExpr ModuleId)} {vs : List String} {x y z : Schema}
  {f : TypeExpr ModuleId → Analysis Schema}

/-! ## What a union is left with -/

/-- What is left of the members of a union without those that are nullish. -/
def present (flat : List (TypeExpr ModuleId)) : List (TypeExpr ModuleId) :=
  flat.filter fun m => !m.isNullish

def stringLiteral (v : String) : TypeExpr ModuleId := .literal (.string v)

theorem string?_eq_some_iff {v : String} : t.string? = some v ↔ t = stringLiteral v := by
  constructor
  · intro h
    cases t with
    | literal l =>
      cases l with
      | string w => exact congrArg stringLiteral (Option.some.inj h)
      | _ => cases h
    | _ => cases h
  · rintro rfl
    rfl

theorem mapM_string?_eq_some_iff {ms : List (TypeExpr ModuleId)} :
    ms.mapM TypeExpr.string? = some vs ↔ ms = vs.map stringLiteral := by
  induction ms generalizing vs with
  | nil => simp [eq_comm]
  | cons m ms ih =>
    rw [List.mapM_cons, Option.bind_eq_bind, Option.bind_eq_some_iff]
    constructor
    · rintro ⟨v, hv, h⟩
      obtain ⟨ws, hws, h⟩ := Option.bind_eq_some_iff.mp h
      obtain rfl := Option.some.inj h
      rw [List.map_cons, ← string?_eq_some_iff.mp hv, ← ih.mp hws]
    · intro h
      obtain ⟨v, ws, rfl, rfl, hms⟩ := List.map_eq_cons_iff.mp h.symm
      exact ⟨v, rfl, Option.bind_eq_some_iff.mpr ⟨ws, ih.mpr hms.symm, rfl⟩⟩

theorem exists_of_mapM_string?_eq_none {ms : List (TypeExpr ModuleId)}
    (h : ms.mapM TypeExpr.string? = none) : ∃ m ∈ ms, m.string? = none := by
  induction ms with
  | nil => cases h
  | cons m ms ih =>
    cases hm : m.string? with
    | none => exact ⟨m, List.mem_cons_self, hm⟩
    | some v =>
      rw [List.mapM_cons, hm] at h
      have hrest : ms.mapM TypeExpr.string? = none := by
        cases hms : ms.mapM TypeExpr.string? with
        | none => rfl
        | some ws =>
          rw [hms] at h
          cases h
      obtain ⟨n, hn, hnone⟩ := ih hrest
      exact ⟨n, List.mem_cons_of_mem m hn, hnone⟩

theorem isNullish_of_boolean? {b : Bool} (h : boolean? t = some b) : t.isNullish = false := by
  cases t with
  | literal l => rfl
  | _ => cases h

/-- **A union that is no enumeration has alternatives:** one of its members is present, and that is
left unless it is `false` and `true` is there too, which is left then. -/
theorem alternatives_ne_nil (h : (present flat).mapM TypeExpr.string? = none) :
    alternatives flat ≠ [] := by
  obtain ⟨m, hm, -⟩ := exists_of_mapM_string?_eq_none h
  obtain ⟨hflat, hpresent⟩ := List.mem_filter.mp hm
  cases htrue : flat.any fun t => boolean? t == some true with
  | true =>
    obtain ⟨t, ht, hvalue⟩ := List.any_eq_true.mp htrue
    have hvalue : boolean? t = some true := by simpa using hvalue
    exact List.ne_nil_of_mem (List.mem_filter.mpr
      ⟨ht, by simp [hvalue, isNullish_of_boolean? hvalue]⟩)
  | false => exact List.ne_nil_of_mem (List.mem_filter.mpr ⟨hflat, by simp [htrue, hpresent]⟩)

/-- What an enumeration is made of. -/
inductive Enumerates (fs : Files) (s : Session) : TypeExpr ModuleId → List String → Prop where
  | literal (v : String) : Enumerates fs s (stringLiteral v) [v]
  | union {ms flat : List (TypeExpr ModuleId)} {vs : List String} {s' : Session}
      (hflat : flattenUnion ms fs s = some (flat, s')) (hvs : present flat = vs.map stringLiteral) :
      Enumerates fs s (.union ms) vs

/-! ## The schema of a shape -/

/-- Only what a plan asks for is a part of what it comes to. -/
theorem Planned.mem_of_mem_parts {plan : SchemaPlan} {xs : List Schema}
    (h : Planned fs s t plan s') (hz : z ∈ (plan.assemble xs).parts) : z ∈ xs := by
  cases h with
  | array t =>
    refine List.mem_of_mem_head? (?_ : z ∈ xs.head?)
    simpa [SchemaPlan.assemble, Schema.parts] using hz
  | object ms =>
    obtain ⟨m, hm, rfl⟩ := Schema.mem_parts_objectSchema hz
    obtain ⟨⟨_, x⟩, hx, rfl⟩ := List.mem_map.mp hm
    exact (List.of_mem_zip hx).2
  | alternatives _ _ => simpa [SchemaPlan.assemble, Schema.parts, Schema.ofAlternatives] using hz
  | literal l => cases l <;> cases hz
  | enumeration _ _ | keyword _ _ | unknown _ => cases hz

/-- Only literals and unions make an enumeration. -/
theorem Planned.enumerates {plan : SchemaPlan} {xs : List Schema} (h : Planned fs s t plan s')
    (hvs : (plan.assemble xs).enumeration = some vs) : Enumerates fs s t vs := by
  cases h with
  | enumeration hflat hvalues =>
    obtain rfl := Option.some.inj hvs
    exact .union hflat (mapM_string?_eq_some_iff.mp hvalues)
  | literal l =>
    cases l with
    | string v =>
      obtain rfl := Option.some.inj hvs
      exact .literal v
    | _ => cases hvs
  | _ => cases hvs

/-- A plan for alternatives has some. -/
theorem Planned.oneOf_ne {plan : SchemaPlan} {xs : List Schema} (h : Planned fs s t plan s')
    (hxs : (plan.parts.mapM f).on fs s' = some (xs, s₁)) : (plan.assemble xs).oneOf ≠ some [] := by
  cases h with
  | alternatives hflat hmixed =>
    intro hnil
    obtain rfl : xs = [] := Option.some.inj hnil
    obtain ⟨m, rest, hcons⟩ := List.exists_cons_of_ne_nil (alternatives_ne_nil hmixed)
    rw [SchemaPlan.parts, hcons] at hxs
    obtain ⟨_, _, _, -, -, hempty⟩ := Analysis.on_mapM_cons.mp hxs
    cases hempty
  | literal l =>
    intro hnil
    cases l <;> cases hnil
  | _ =>
    intro hnil
    cases hnil

/-- What the schema of a shape has of its own, and what its parts are. -/
structure OfShape (f : TypeExpr ModuleId → Analysis Schema) (fs : Files) (s : Session)
    (t : TypeExpr ModuleId) (x : Schema) : Prop where
  alternatives : x.oneOf ≠ some []
  enumeration : ∀ vs, x.enumeration = some vs → Enumerates fs s t vs
  parts : ∀ z ∈ x.parts, ∃ s₁ u s₂, Part f fs s t s₁ u ∧ (f u).on fs s₁ = some (z, s₂)

theorem ofShape_of_shapeSchema (h : (shapeSchema f t).on fs s = some (x, s')) :
    OfShape f fs s t x := by
  obtain ⟨plan, s₁, xs, hplan, hxs, rfl⟩ := on_shapeSchema_eq_some.mp h
  have hplanned := planOf_cases hplan
  refine ⟨hplanned.oneOf_ne hxs, fun vs => hplanned.enumerates, fun z hz => ?_⟩
  obtain ⟨before, u, after, ys, s₂, s₃, hparts, hbefore, hu⟩ :=
    Analysis.exists_of_mem_mapM hxs (hplanned.mem_of_mem_parts hz)
  exact ⟨s₂, u, s₃, .of_planOf hplan hparts hbefore, hu⟩

/-! ## Every schema in a schema -/

/-- What can be said of a schema that is in the schema of a type. -/
structure Accounted (fs : Files) (open_ : List NameKey) (s : Session) (t : TypeExpr ModuleId)
    (y : Schema) : Prop where
  alternatives : y.oneOf ≠ some []
  enumeration : ∀ vs, y.enumeration = some vs →
    ∃ open' s₁ u s₂, Asks fs open_ s t open' s₁ u ∧ schemaWithin open' u fs s₁ = some (y, s₂) ∧
      Enumerates fs s₁ u vs

theorem accounted_empty (h : y.OccursIn {}) : Accounted fs open_ s t y := by
  obtain rfl := h.eq_of_parts rfl
  exact ⟨nofun, nofun⟩

theorem Accounted.name {key : NameKey} (hkey : nameKey? t = some key)
    (hfree : open_.contains key = false) (hexpand : expand t fs s = some (some u, s₁))
    (h : Accounted fs (key :: open_) s₁ u y) : Accounted fs open_ s t y where
  alternatives := h.alternatives
  enumeration vs hvs := by
    obtain ⟨open', s₂, v, s₃, hasks, hv⟩ := h.enumeration vs hvs
    exact ⟨open', s₂, v, s₃, .name hkey hfree hexpand hasks, hv⟩

theorem Accounted.part (hshape : nameKey? t = none)
    (hpart : Part (schemaWithin open_) fs s t s₁ u) (h : Accounted fs open_ s₁ u y) :
    Accounted fs open_ s t y where
  alternatives := h.alternatives
  enumeration vs hvs := by
    obtain ⟨open', s₂, v, s₃, hasks, hv⟩ := h.enumeration vs hvs
    exact ⟨open', s₂, v, s₃, .part hshape hpart hasks, hv⟩

/-- A schema that is asked for is accounted for if all its parts are. -/
theorem accounted_of_ofShape (h : schemaWithin open_ t fs s = some (x, s'))
    (hshape : OfShape f fs s t x)
    (hparts : ∀ z ∈ x.parts, ∀ y, y.OccursIn z → Accounted fs open_ s t y) :
    ∀ y, y.OccursIn x → Accounted fs open_ s t y := by
  intro y hy
  cases hy with
  | itself =>
    exact ⟨hshape.alternatives, fun vs hvs =>
      ⟨open_, s, t, s', .refl, h, hshape.enumeration vs hvs⟩⟩
  | part hy hz => exact hparts _ hz y hy

theorem accounted_of_schemaWithin (h : schemaWithin open_ t fs s = some (x, s')) :
    ∀ y, y.OccursIn x → Accounted fs open_ s t y := by
  -- A part is asked for by the whole function, so what a step comes to the function comes to.
  refine (schemaWithin.partial_correctness (fun open_ t fs s r =>
    schemaWithin open_ t fs s = some r ∧ ∀ y, y.OccursIn r.1 → Accounted fs open_ s t y) ?_
      open_ t fs s (x, s') h).2
  rintro schemaWithin₀ ih open_ t fs s ⟨x, s'⟩ h
  have hfull : ∀ open_ t s x s', schemaWithin₀ open_ t fs s = some (x, s') →
      schemaWithin open_ t fs s = some (x, s') :=
    fun open_ t s x s' h => (ih open_ t fs s (x, s') h).1
  rw [schemaWithin_eq]
  cases hkey : nameKey? t with
  | some key =>
    simp only [hkey] at h ⊢
    split at h
    · next hopen =>
      rw [if_pos hopen]
      obtain ⟨rfl, rfl⟩ := Analysis.on_pure_eq_some.mp h
      exact ⟨rfl, fun y hy => accounted_empty hy⟩
    · next hfree =>
      rw [if_neg hfree]
      refine ⟨namedSchema_agree (f := schemaWithin₀ (key :: open_))
        (fun u s₁ _ hu => hfull _ u s₁ x s' hu) h, fun y hy => ?_⟩
      obtain ⟨next, s₁, hexpand, h⟩ := Analysis.on_bind_eq_some.mp h
      cases next with
      | none =>
        obtain ⟨rfl, rfl⟩ := Analysis.on_pure_eq_some.mp h
        exact accounted_empty hy
      | some u =>
        exact .name hkey (by simpa using hfree) hexpand ((ih _ u fs s₁ (x, s') h).2 y hy)
  | none =>
    simp only [hkey] at h ⊢
    have hshape : OfShape (schemaWithin₀ open_) fs s t x := ofShape_of_shapeSchema h
    have hwhole : (shapeSchema (schemaWithin open_) t).on fs s = some (x, s') :=
      shapeSchema_agree (f := schemaWithin₀ open_)
        (fun s₁ u y s₂ _ _ hu => hfull _ u s₁ y s₂ hu) h
    refine ⟨hwhole, accounted_of_ofShape ((schemaWithin_of_shape hkey).trans hwhole) hshape ?_⟩
    intro z hz y hy
    obtain ⟨s₁, u, s₂, hpart, hu⟩ := hshape.parts z hz
    exact .part hkey (hpart.mono (hfull open_)) ((ih open_ u fs s₁ (z, s₂) hu).2 y hy)

theorem stringLiteral_injective : Function.Injective stringLiteral :=
  fun _ _ h => Literal.string.inj (TypeExpr.literal.inj h)

/-- **An enumeration is what is left of the members of a union,** or a string of its own: it is in
the schema of a type that was asked for on the way, and that type is a union or a string. A value is
there twice just if it is left twice. And there are no alternatives without any. -/
theorem enumerations_of_schemaOf (h : (schemaOf t).on fs s = some (x, s')) :
    ∀ y : Schema, y.OccursIn x → y.oneOf ≠ some [] ∧ ∀ vs, y.enumeration = some vs →
      ∃ open' s₁ u s₂, Asks fs [] s t open' s₁ u ∧ schemaWithin open' u fs s₁ = some (y, s₂) ∧
        ((∃ v, u = stringLiteral v ∧ vs = [v]) ∨
          ∃ ms flat s₃, u = .union ms ∧ flattenUnion ms fs s₁ = some (flat, s₃) ∧
            (present flat ≠ [] → vs ≠ [] ∧ present flat = vs.map stringLiteral ∧
              (vs.Nodup ↔ (present flat).Nodup))) := by
  intro y hy
  have haccount := accounted_of_schemaWithin h y hy
  refine ⟨haccount.alternatives, fun vs hvs => ?_⟩
  obtain ⟨open', s₁, u, s₂, hasks, hy, hu⟩ := haccount.enumeration vs hvs
  refine ⟨open', s₁, u, s₂, hasks, hy, ?_⟩
  cases hu with
  | literal v => exact .inl ⟨v, rfl, rfl⟩
  | union hflat hpresent =>
    refine .inr ⟨_, _, _, rfl, hflat, fun hne => ⟨?_, hpresent, ?_⟩⟩
    · rintro rfl
      exact hne hpresent
    · rw [hpresent, List.nodup_map_iff stringLiteral_injective]

/-- The elements of a list of what two names deep stand for strings are enumerated, and the
enumeration is that of a union that is asked for inside the list. -/
theorem enumerations_of_schemaOf_roles :
    ∃ x, (schemaOf (.array (.union [.literal (.string "root"), .reference "Maybe" [] 0]))).on
        ⟨[], []⟩ namedRoles = some (x, namedRoles) ∧
      (enumerationSchema ["root", "admin", "guest"] true).OccursIn x ∧
      ∃ open' s₁ u s₂, Asks ⟨[], []⟩ [] namedRoles
          (.array (.union [.literal (.string "root"), .reference "Maybe" [] 0])) open' s₁ u ∧
        schemaWithin open' u ⟨[], []⟩ s₁ =
          some (enumerationSchema ["root", "admin", "guest"] true, s₂) ∧
        ((∃ v, u = stringLiteral v ∧ ["root", "admin", "guest"] = [v]) ∨
          ∃ ms flat s₃, u = .union ms ∧ flattenUnion ms ⟨[], []⟩ s₁ = some (flat, s₃) ∧
            (present flat ≠ [] → ["root", "admin", "guest"] ≠ [] ∧
              present flat = ["root", "admin", "guest"].map stringLiteral ∧
              (["root", "admin", "guest"].Nodup ↔ (present flat).Nodup))) := by
  have h : (schemaOf (.array (.union [.literal (.string "root"), .reference "Maybe" [] 0]))).on
      ⟨[], []⟩ namedRoles = some ({
        type := some "array"
        items := some (enumerationSchema ["root", "admin", "guest"] true) }, namedRoles) := by
    cbv
  have hoccurs : (enumerationSchema ["root", "admin", "guest"] true).OccursIn {
      type := some "array"
      items := some (enumerationSchema ["root", "admin", "guest"] true) } :=
    .part .itself (by simp [Schema.parts])
  exact ⟨_, h, hoccurs, (enumerations_of_schemaOf h _ hoccurs).2 _ rfl⟩

/-- A module with two names for some strings, of which they have one in common. -/
def overlappingRoles : Session :=
  { Session.start .empty with
    modules := [{ Module.empty ⟨"roles.ts"⟩ with
      declarations :=
        [("Staff", .typeAlias [] (.union [stringLiteral "owner", stringLiteral "editor"])),
          ("Author", .typeAlias [] (.union [stringLiteral "editor", stringLiteral "guest"]))] }] }

/-- What two names have in common is enumerated twice. -/
theorem not_nodup_enumeration_overlapping :
    ∃ x, (schemaOf (.union [.reference "Staff" [] 0, .reference "Author" [] 0])).on ⟨[], []⟩
        overlappingRoles = some (x, overlappingRoles) ∧
      ¬ ∀ y : Schema, y.OccursIn x → y.oneOf ≠ some [] ∧
        ∀ vs, y.enumeration = some vs → vs ≠ [] ∧ vs.Nodup := by
  have h : (schemaOf (.union [.reference "Staff" [] 0, .reference "Author" [] 0])).on ⟨[], []⟩
      overlappingRoles =
        some (enumerationSchema ["owner", "editor", "editor", "guest"] false,
          overlappingRoles) := by
    cbv
  refine ⟨_, h, fun hall => ?_⟩
  exact absurd ((hall _ .itself).2 _ rfl).2 (by decide)

end Session

end Routebook
