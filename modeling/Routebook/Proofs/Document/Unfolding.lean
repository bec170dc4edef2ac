import Mathlib
import Routebook.Proofs.Document.Schema
import Routebook.Proofs.Session.Shape

/-!
# What is cut off

A named type inside itself is cut off, because its schema would have no end. Without that check
(`fullSchema`) such a type has no schema. **Where no named type is met inside itself, the check
changes nothing** (`schemaOf_eq_fullSchema`), as long as it takes no two types for one.

Types are told apart by their module and their text, and that is not always enough: the text does
not say in which modules the arguments are looked up, nor how unions and intersections are nested in
each other. So of two types that differ in nothing else the inner one is cut off.
-/

namespace Routebook
namespace Session

open Disk (Files)

variable {fs : Files} {s s' s₁ : Session} {t u : TypeExpr ModuleId}
  {inner f g : TypeExpr ModuleId → Analysis Schema}

/-! ## With and without the check -/

/-- The schema of a type with a name of its own, from the schema of what it is expanded to. -/
def namedSchema (inner : TypeExpr ModuleId → Analysis Schema) (t : TypeExpr ModuleId) :
    Analysis Schema := do
  match ← expand t with
  | some expanded => inner expanded
  | none => return {}

theorem schemaWithin_eq (open_ : List NameKey) (t : TypeExpr ModuleId) (fs : Files) (s : Session) :
    schemaWithin open_ t fs s = Analysis.on (do
      match nameKey? t with
      | some key =>
        if open_.contains key then return {}
        namedSchema (schemaWithin (key :: open_)) t
      | none => shapeSchema (schemaWithin open_) t) fs s :=
  schemaWithin.eq_def open_ t fs s

/-- The schema of a type, with nothing cut off. Of a circle of types there is none. -/
def fullSchema (t : TypeExpr ModuleId) (fs : Files) (s : Session) : Option (Schema × Session) :=
  Analysis.on (do
    let inner : TypeExpr ModuleId → Analysis Schema := fun t fs s => s |>.fullSchema t fs
    match nameKey? t with
    | some _ => do
      match ← expand t with
      | some expanded => inner expanded
      | none => return {}
    | none => do
      let plan ← planOf t
      return plan.assemble (← plan.parts.mapM inner)) fs s
partial_fixpoint

theorem fullSchema_eq (t : TypeExpr ModuleId) (fs : Files) (s : Session) :
    fullSchema t fs s = Analysis.on (do
      match nameKey? t with
      | some _ => namedSchema fullSchema t
      | none => shapeSchema fullSchema t) fs s :=
  fullSchema.eq_def t fs s

/-- The schema of a name is the same for two ways to find the schema of what it is expanded to, if
they agree on that. -/
theorem namedSchema_agree {x : Schema}
    (hfg : ∀ u s₁, expand t fs s = some (some u, s₁) →
      (f u).on fs s₁ = some (x, s') → (g u).on fs s₁ = some (x, s'))
    (h : (namedSchema f t).on fs s = some (x, s')) :
    (namedSchema g t).on fs s = some (x, s') := by
  obtain ⟨next, s₁, hexpand, h⟩ := Analysis.on_bind_eq_some.mp h
  refine (Analysis.on_bind hexpand).trans ?_
  cases next with
  | none => exact h
  | some u => exact hfg u s₁ hexpand h

/-! ## Parts of shapes -/

/-- What an object schema is made of for one member. -/
def propertyOf (inner : TypeExpr ModuleId → Analysis Schema) (m : Member (TypeExpr ModuleId)) :
    Analysis (String × Bool × Schema) := do
  return (m.name, m.optional, ← inner m.type)

/-- What a type without a name asks the schema of, and the session in which it asks. The parts
before it have been asked for by then. -/
inductive Part (inner : TypeExpr ModuleId → Analysis Schema) (fs : Files) (s : Session) :
    TypeExpr ModuleId → Session → TypeExpr ModuleId → Prop where
  | element {t : TypeExpr ModuleId} : Part inner fs s (.array t) s t
  | member {before after : List (Member (TypeExpr ModuleId))} {m : Member (TypeExpr ModuleId)}
      {xs : List (String × Bool × Schema)} {s₁ : Session}
      (hbefore : (before.mapM (propertyOf inner)).on fs s = some (xs, s₁)) :
      Part inner fs s (.object (before ++ m :: after)) s₁ m.type
  | alternative {ms flat before after : List (TypeExpr ModuleId)} {t : TypeExpr ModuleId}
      {xs : List Schema} {s₁ s₂ : Session}
      (hflat : flattenUnion ms fs s = some (flat, s₁))
      (hmixed : (flat.filter fun m => !m.isNullish).mapM TypeExpr.string? = none)
      (halternatives : alternatives flat = before ++ t :: after)
      (hbefore : (before.mapM inner).on fs s₁ = some (xs, s₂)) :
      Part inner fs s (.union ms) s₂ t

theorem Part.mono (hfg : ∀ t s x s', (f t).on fs s = some (x, s') → (g t).on fs s = some (x, s'))
    (h : Part f fs s t s₁ u) : Part g fs s t s₁ u := by
  cases h with
  | element => exact .element
  | member hbefore =>
    refine .member (Analysis.on_mapM_agree (fun _ m _ _ s₁ x s₂ _ _ _ hm => ?_) hbefore)
    obtain ⟨y, s₃, hy, hm⟩ := Analysis.on_bind_eq_some.mp hm
    exact (Analysis.on_bind (hfg _ _ _ _ hy)).trans hm
  | alternative hflat hmixed halternatives hbefore =>
    exact .alternative hflat hmixed halternatives
      (Analysis.on_mapM_agree (fun _ t _ _ s₁ x s₂ _ _ _ ht => hfg t s₁ x s₂ ht) hbefore)

/-- The schemas of some members' types make their properties. -/
theorem exists_mapM_propertyOf {ms : List (Member (TypeExpr ModuleId))} {xs : List Schema}
    (h : ((ms.map Member.type).mapM inner).on fs s = some (xs, s')) :
    ∃ ys, (ms.mapM (propertyOf inner)).on fs s = some (ys, s') := by
  induction ms generalizing s xs with
  | nil =>
    obtain ⟨-, rfl⟩ := Analysis.on_pure_eq_some.mp h
    exact ⟨[], rfl⟩
  | cons m ms ih =>
    obtain ⟨x, s₁, xs, hx, hxs, rfl⟩ := Analysis.on_mapM_cons.mp h
    obtain ⟨ys, hys⟩ := ih hxs
    exact ⟨_, Analysis.on_mapM_cons.mpr ⟨_, s₁, ys, Analysis.on_bind hx, hys, rfl⟩⟩

/-- What a plan asks for, a type asks for. -/
theorem Part.of_planOf {plan : SchemaPlan} {before after : List (TypeExpr ModuleId)}
    {xs : List Schema} {s₂ : Session} (hplan : (planOf t).on fs s = some (plan, s₁))
    (hparts : plan.parts = before ++ u :: after)
    (hbefore : (before.mapM inner).on fs s₁ = some (xs, s₂)) : Part inner fs s t s₂ u := by
  cases planOf_cases hplan with
  | array t =>
    obtain ⟨rfl, h⟩ | ⟨-, h⟩ := List.append_eq_singleton_iff.mp hparts.symm
    · obtain ⟨-, rfl⟩ := Analysis.on_pure_eq_some.mp hbefore
      obtain ⟨rfl, -⟩ := List.cons.inj h
      exact .element
    · exact absurd h (List.cons_ne_nil _ _)
  | object ms =>
    obtain ⟨before, rest, rfl, rfl, hrest⟩ := List.map_eq_append_iff.mp hparts
    obtain ⟨m, after, rfl, rfl, -⟩ := List.map_eq_cons_iff.mp hrest
    obtain ⟨ys, hys⟩ := exists_mapM_propertyOf hbefore
    exact .member hys
  | alternatives hflat hmixed => exact .alternative hflat hmixed hparts hbefore
  | _ => exact absurd hparts.symm (List.append_ne_nil_of_right_ne_nil _ (List.cons_ne_nil _ _))

/-- The schema of a shape is the same for two ways to find the schemas of its parts, if they agree
where it asks. -/
theorem shapeSchema_agree {x : Schema}
    (hfg : ∀ s₁ u x s₂, Part f fs s t s₁ u → Part g fs s t s₁ u →
      (f u).on fs s₁ = some (x, s₂) → (g u).on fs s₁ = some (x, s₂))
    (h : (shapeSchema f t).on fs s = some (x, s')) :
    (shapeSchema g t).on fs s = some (x, s') := by
  obtain ⟨plan, s₁, xs, hplan, hxs, rfl⟩ := on_shapeSchema_eq_some.mp h
  refine on_shapeSchema_eq_some.mpr ⟨plan, s₁, xs, hplan, Analysis.on_mapM_agree ?_ hxs, rfl⟩
  exact fun before u after ys s₂ y s₃ hparts hf hg hu =>
    hfg s₂ u y s₃ (.of_planOf hplan hparts hf) (.of_planOf hplan hparts hg) hu

/-! ## Types that are met -/

/-- What is met on the way to the schema of a type, inside which named types and in which session.
It begins with a type, the named types that it is already inside of and a session. -/
inductive Meets (fs : Files) :
    List (TypeExpr ModuleId) → Session → TypeExpr ModuleId →
      List (TypeExpr ModuleId) → Session → TypeExpr ModuleId → Prop where
  | refl {outer : List (TypeExpr ModuleId)} {s : Session} {t : TypeExpr ModuleId} :
      Meets fs outer s t outer s t
  | name {outer outer' : List (TypeExpr ModuleId)} {s s₁ s' : Session}
      {t u b : TypeExpr ModuleId} (hexpand : expand t fs s = some (some u, s₁))
      (h : Meets fs (t :: outer) s₁ u outer' s' b) : Meets fs outer s t outer' s' b
  | part {outer outer' : List (TypeExpr ModuleId)} {s s₁ s' : Session}
      {t u b : TypeExpr ModuleId} (hshape : nameKey? t = none)
      (hpart : Part fullSchema fs s t s₁ u)
      (h : Meets fs outer s₁ u outer' s' b) : Meets fs outer s t outer' s' b

/-- The keys under which named types are remembered. -/
def keysOf (outer : List (TypeExpr ModuleId)) : List NameKey := outer.filterMap nameKey?

theorem keysOf_cons {key : NameKey} (hkey : nameKey? t = some key)
    (outer : List (TypeExpr ModuleId)) : keysOf (t :: outer) = key :: keysOf outer :=
  List.filterMap_cons_some hkey

/-- Whether no named type that is met has a key that is remembered then. -/
def Clear (fs : Files) (outer : List (TypeExpr ModuleId)) (s : Session) (t : TypeExpr ModuleId) :
    Prop :=
  ∀ outer' s' b key, Meets fs outer s t outer' s' b → nameKey? b = some key → key ∉ keysOf outer'

variable {outer : List (TypeExpr ModuleId)}

theorem Clear.name (h : Clear fs outer s t) (hexpand : expand t fs s = some (some u, s₁)) :
    Clear fs (t :: outer) s₁ u :=
  fun outer' s' b key hmeets => h outer' s' b key (.name hexpand hmeets)

theorem Clear.part (h : Clear fs outer s t) (hshape : nameKey? t = none)
    (hpart : Part fullSchema fs s t s₁ u) : Clear fs outer s₁ u :=
  fun outer' s' b key hmeets => h outer' s' b key (.part hshape hpart hmeets)

theorem Clear.contains_eq_false (h : Clear fs outer s t) {key : NameKey}
    (hkey : nameKey? t = some key) : (keysOf outer).contains key = false := by
  simpa using h outer s t key .refl hkey

/-! ## Nothing is cut off -/

theorem fullSchema_of_schemaWithin {x : Schema} (hclear : Clear fs outer s t)
    (h : schemaWithin (keysOf outer) t fs s = some (x, s')) :
    fullSchema t fs s = some (x, s') := by
  refine schemaWithin.partial_correctness (fun open_ t fs s r => ∀ outer, open_ = keysOf outer →
    Clear fs outer s t → fullSchema t fs s = some r) ?_ _ t fs s (x, s') h outer rfl hclear
  rintro schemaWithin₀ ih _ t fs s ⟨x, s'⟩ h outer rfl hclear
  rw [fullSchema_eq]
  cases hkey : nameKey? t with
  | some key =>
    simp only [hkey, hclear.contains_eq_false hkey, Bool.false_eq_true, if_false] at h ⊢
    exact namedSchema_agree (f := schemaWithin₀ (key :: keysOf outer)) (fun u s₁ hexpand hu =>
      ih _ u fs s₁ (x, s') hu (t :: outer) (keysOf_cons hkey outer).symm (hclear.name hexpand)) h
  | none =>
    simp only [hkey] at h ⊢
    exact shapeSchema_agree (f := schemaWithin₀ (keysOf outer))
      (fun s₁ u y s₂ _ hpart hu => ih _ u fs s₁ (y, s₂) hu outer rfl (hclear.part hkey hpart)) h

theorem schemaWithin_of_fullSchema {x : Schema} (hclear : Clear fs outer s t)
    (h : fullSchema t fs s = some (x, s')) :
    schemaWithin (keysOf outer) t fs s = some (x, s') := by
  refine (fullSchema.partial_correctness (fun t fs s r => fullSchema t fs s = some r ∧
    ∀ outer, Clear fs outer s t → schemaWithin (keysOf outer) t fs s = some r) ?_ t fs s (x, s')
      h).2 outer hclear
  intro fullSchema₀ ih t fs s ⟨x, s'⟩ h
  have hfull : ∀ t s x s', fullSchema₀ t fs s = some (x, s') → fullSchema t fs s = some (x, s') :=
    fun t s x s' h => (ih t fs s (x, s') h).1
  refine ⟨?_, fun outer hclear => ?_⟩
  · rw [fullSchema_eq]
    cases hkey : nameKey? t with
    | some key =>
      simp only [hkey] at h ⊢
      exact namedSchema_agree (f := fullSchema₀) (fun u s₁ _ hu => hfull u s₁ x s' hu) h
    | none =>
      simp only [hkey] at h ⊢
      exact shapeSchema_agree (f := fullSchema₀)
        (fun s₁ u y s₂ _ _ hu => hfull u s₁ y s₂ hu) h
  · rw [schemaWithin_eq]
    cases hkey : nameKey? t with
    | some key =>
      simp only [hkey, hclear.contains_eq_false hkey, Bool.false_eq_true, if_false] at h ⊢
      refine namedSchema_agree (f := fullSchema₀) (fun u s₁ hexpand hu => ?_) h
      rw [← keysOf_cons hkey outer]
      exact (ih u fs s₁ (x, s') hu).2 (t :: outer) (hclear.name hexpand)
    | none =>
      simp only [hkey] at h ⊢
      exact shapeSchema_agree (f := fullSchema₀) (fun s₁ u y s₂ hpart _ hu =>
        (ih u fs s₁ (y, s₂) hu).2 outer (hclear.part hkey (hpart.mono hfull))) h

/-- **Where no named type is met inside itself, nothing is cut off from the schema of a type,** if
named types that have one key are one type wherever one is met inside the other. -/
theorem schemaOf_eq_fullSchema
    (hfinite : ∀ outer s' b key, Meets fs [] s t outer s' b → nameKey? b = some key → b ∉ outer)
    (hkeys : ∀ outer s' a b key, Meets fs [] s t outer s' b → nameKey? b = some key →
      a ∈ outer → nameKey? a = some key → a = b) :
    (schemaOf t).on fs s = fullSchema t fs s := by
  have hclear : Clear fs [] s t := by
    intro outer s' b key hmeets hkey hmem
    obtain ⟨a, ha, hkey'⟩ := List.mem_filterMap.mp hmem
    exact hfinite outer s' b key hmeets hkey (hkeys outer s' a b key hmeets hkey ha hkey' ▸ ha)
  ext ⟨x, s'⟩
  exact ⟨fullSchema_of_schemaWithin hclear, schemaWithin_of_fullSchema hclear⟩

/-- A module with a name for lists of anything, and one for strings. -/
def listsSession : Session :=
  { Session.start .empty with
    modules := [{ Module.empty ⟨"lists.ts"⟩ with
      declarations := [("Item", .typeAlias [] (.keyword .string)),
        ("List", .typeAlias [⟨"T", none⟩] (.array (.reference "T" [] 0)))] }] }

def itemName : TypeExpr ModuleId := .reference "Item" [] 0

def itemsName : TypeExpr ModuleId := .reference "List" [itemName] 0

/-- The named types that are met on the way to the schema of a list: its name, and the name of its
elements inside it. -/
theorem named_of_meets_items {outer : List (TypeExpr ModuleId)} {b : TypeExpr ModuleId}
    {key : NameKey} (h : Meets ⟨[], []⟩ [] listsSession itemsName outer s' b)
    (hkey : nameKey? b = some key) :
    outer = [] ∧ b = itemsName ∨ outer = [itemsName] ∧ b = itemName := by
  have hitems : expand itemsName ⟨[], []⟩ listsSession =
      some (some (.array itemName), listsSession) := by cbv
  have hitem : expand itemName ⟨[], []⟩ listsSession =
      some (some (.keyword .string), listsSession) := by cbv
  cases h with
  | refl => exact .inl ⟨rfl, rfl⟩
  | part hshape _ _ => exact absurd hshape (by simp [nameKey?, itemsName])
  | name hexpand h =>
    obtain ⟨hu, rfl⟩ := Prod.mk.inj (Option.some.inj (hitems.symm.trans hexpand))
    obtain rfl := Option.some.inj hu
    cases h with
    | refl => exact absurd hkey (by simp [nameKey?])
    | name hexpand _ => exact absurd ((expand_of_shape rfl).symm.trans hexpand) (by simp)
    | part _ hpart h =>
      obtain ⟨⟩ := hpart
      cases h with
      | refl => exact .inr ⟨rfl, rfl⟩
      | part hshape _ _ => exact absurd hshape (by simp [nameKey?, itemName])
      | name hexpand h =>
        obtain ⟨hu, rfl⟩ := Prod.mk.inj (Option.some.inj (hitem.symm.trans hexpand))
        obtain rfl := Option.some.inj hu
        cases h with
        | refl => exact absurd hkey (by simp [nameKey?])
        | name hexpand _ => exact absurd ((expand_of_shape rfl).symm.trans hexpand) (by simp)
        | part _ hpart _ => cases hpart

theorem schemaOf_eq_fullSchema_items :
    (∀ outer s' b key, Meets ⟨[], []⟩ [] listsSession itemsName outer s' b →
      nameKey? b = some key → b ∉ outer) ∧
    (∀ outer s' a b key, Meets ⟨[], []⟩ [] listsSession itemsName outer s' b →
      nameKey? b = some key → a ∈ outer → nameKey? a = some key → a = b) ∧
    (schemaOf itemsName).on ⟨[], []⟩ listsSession = fullSchema itemsName ⟨[], []⟩ listsSession := by
  have hfinite : ∀ outer s' b key, Meets ⟨[], []⟩ [] listsSession itemsName outer s' b →
      nameKey? b = some key → b ∉ outer := by
    intro outer s' b key hmeets hkey
    rcases named_of_meets_items hmeets hkey with ⟨rfl, rfl⟩ | ⟨rfl, rfl⟩
    · exact List.not_mem_nil
    · simp [itemName, itemsName]
  have hkeys : ∀ outer s' a b key, Meets ⟨[], []⟩ [] listsSession itemsName outer s' b →
      nameKey? b = some key → a ∈ outer → nameKey? a = some key → a = b := by
    intro outer s' a b key hmeets hkey ha hkey'
    rcases named_of_meets_items hmeets hkey with ⟨rfl, rfl⟩ | ⟨rfl, rfl⟩
    · exact absurd ha List.not_mem_nil
    · obtain rfl := List.mem_singleton.mp ha
      exact absurd (hkey'.trans hkey.symm) (by decide)
  exact ⟨hfinite, hkeys, schemaOf_eq_fullSchema hfinite hkeys⟩

end Session
end Routebook
