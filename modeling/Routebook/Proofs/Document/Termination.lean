import Routebook.Proofs.Document.Unfolding
import Routebook.Proofs.Document.Unions
import Routebook.Proofs.Session.Termination
import Routebook.Proofs.TypeExpr.Nodes
import Routebook.Proofs.TypeExpr.Substitution

/-!
# Every type has a schema

The schema of a type asks for those of its parts, and a named type is replaced by what it stands
for, which may be larger. What it stands for is put together from a declaration, and where
declarations take no type parameters it has **no named types but those that are written somewhere**
(`preserved_namedAmong`). So the names run out, once no more files can be loaded, and in between the
types get smaller: every type has a schema (`ends_schemaWithin`).

A union is no exception if its members are not unions by another name. Those are looked through
without a note of it, so a union among its own members is looked through for ever.
-/

namespace Routebook

open Disk (Files)

/-! ## Named nodes -/

/-- The keys of the named types in a type. -/
def TypeExpr.nameKeys (t : TypeExpr ModuleId) : List Session.NameKey :=
  t.nodes.filterMap Session.nameKey?

/-- The type parameters that a declaration takes. -/
def Declaration.params : Declaration → List (TypeParameter ModuleId)
  | .typeAlias ps _ | .interface ps _ _ => ps
  | .classType | .enumeration _ | .variableOf .. => []

/-- The types that a declaration of a module is made of. A constructed variable may turn out to be
an application. -/
def Declaration.types (m : ModuleId) : Declaration → List (TypeExpr ModuleId)
  | .typeAlias _ body => [body]
  | .interface _ parents members => parents ++ members.map Member.type
  | .variableOf (some t) _ => [t]
  | .variableOf none (some _) => [Session.placeholderApp m]
  | .variableOf none none | .classType | .enumeration _ => []

namespace Session

open Analysis (Ends ends_pure ends_mapM_of_before)

variable {fs : Files} {s s' s₁ : Session} {m : ModuleId} {n : String} {t u : TypeExpr ModuleId}
  {ms : List (TypeExpr ModuleId)} {key : NameKey} {open_ : List NameKey} {extra : List NameKey}

/-- No declaration of a session takes type parameters. -/
def Monomorphic (s : Session) : Prop := ∀ m n d, s.Declares m n d → d.params = []

/-- The keys of the named types in the declarations of a session. -/
def nameKeys (s : Session) : List NameKey :=
  s.collect fun m _ d => (d.types m).flatMap TypeExpr.nameKeys

theorem Extends.nameKeys_subset (h : s'.Extends s) : s.nameKeys ⊆ s'.nameKeys := h.collect_subset

theorem Monomorphic.of_extends (h : s'.Monomorphic) (hext : s'.Extends s) : s.Monomorphic :=
  fun m n d hd => h m n d (hd.of_extends hext)

theorem mem_nameKeys {d : Declaration} (hd : s.Declares m n d) (ht : t ∈ d.types m)
    (hkey : key ∈ t.nameKeys) : key ∈ s.nameKeys :=
  mem_collect hd (List.mem_flatMap.mpr ⟨t, ht, hkey⟩)

theorem mem_nameKeys_self (hkey : nameKey? t = some key) : key ∈ t.nameKeys :=
  List.mem_filterMap.mpr ⟨t, t.self_mem_nodes, hkey⟩

theorem nameKeys_subset (h : u ∈ t.nodes) : u.nameKeys ⊆ t.nameKeys := by
  intro key hkey
  obtain ⟨v, hv, hkey⟩ := List.mem_filterMap.mp hkey
  exact List.mem_filterMap.mpr ⟨v, (TypeExpr.nodes_of_mem_nodes t h).1 hv, hkey⟩

/-- The keys in a type without a name are those of its parts. -/
theorem exists_part_of_mem_nameKeys (hshape : nameKey? t = none) (hkey : key ∈ t.nameKeys) :
    ∃ p ∈ t.parts, key ∈ p.nameKeys := by
  obtain ⟨v, hv, hv'⟩ := List.mem_filterMap.mp hkey
  rw [TypeExpr.nodes_eq] at hv
  obtain rfl | hv := List.mem_cons.mp hv
  · exact absurd (hshape.symm.trans hv') (by simp)
  · obtain ⟨p, hp, hv⟩ := List.mem_flatMap.mp hv
    exact ⟨p, hp, List.mem_filterMap.mpr ⟨v, hv, hv'⟩⟩

/-- If no declaration of a session takes type parameters, the named types in a type are among those
in its declarations and some others. -/
def NamedAmong (extra : List NameKey) (s : Session) (t : TypeExpr ModuleId) : Prop :=
  s.Monomorphic → t.nameKeys ⊆ s.nameKeys ++ extra

theorem substitute_bind_nil (args : List (TypeExpr ModuleId)) (t : TypeExpr ModuleId) :
    t.substitute (bind [] args) = t := TypeExpr.substitute_unbound t

/-- **Without type parameters no named type is put together on the way.** -/
theorem preserved_namedAmong (extra : List NameKey) : Preserved (NamedAmong extra) where
  later := by
    intro s s' t hext h hs' key hkey
    exact List.mem_append.mpr ((List.mem_append.mp (h (hs'.of_extends hext) hkey)).imp_left
      fun hkey => hext.nameKeys_subset hkey)
  args := by
    intro s t h a ha hs key hkey
    have hpart : a ∈ t.parts := by
      cases t with
      | reference _ _ _ | imported _ _ _ _ => exact ha
      | _ => exact absurd ha List.not_mem_nil
    exact h hs (nameKeys_subset (TypeExpr.nodes_subset_of_mem_parts hpart a.self_mem_nodes) hkey)
  typeAlias := by
    intro s m n ps body args hd _ hs key hkey
    obtain rfl : ps = [] := hs m n _ hd
    rw [substitute_bind_nil] at hkey
    exact List.mem_append_left _ (mem_nameKeys hd List.mem_cons_self hkey)
  parent := by
    intro s m n ps parents members args p hd _ hp hs key hkey
    obtain rfl : ps = [] := hs m n _ hd
    rw [substitute_bind_nil] at hkey
    exact List.mem_append_left _ (mem_nameKeys hd (List.mem_append_left _ hp) hkey)
  interface := by
    intro s m n ps parents members args shapes hd _ hshapes hs key hkey
    obtain rfl : ps = [] := hs m n _ hd
    rw [substitute_bind_nil] at hkey
    obtain ⟨p, hp, hkey⟩ := exists_part_of_mem_nameKeys rfl hkey
    obtain ⟨x, hx, rfl⟩ := List.mem_map.mp hp
    rcases mem_or_mem_of_mem_foldl_addOwnMember hx with hx | hx
    · refine List.mem_append_left _ (mem_nameKeys hd ?_ hkey)
      exact List.mem_append_right parents (List.mem_map_of_mem hx)
    · obtain ⟨ms, hms, hx⟩ := exists_object_of_mem_inherited hx
      refine hshapes _ hms hs (nameKeys_subset ?_ hkey)
      exact TypeExpr.nodes_subset_of_mem_parts (t := .object ms) (List.mem_map_of_mem hx)
        x.type.self_mem_nodes
  enumeration := by
    intro s m n values _ _ key hkey
    obtain ⟨p, hp, hkey⟩ := exists_part_of_mem_nameKeys rfl hkey
    obtain ⟨l, -, rfl⟩ := List.mem_map.mp hp
    obtain ⟨p, hp, -⟩ := exists_part_of_mem_nameKeys rfl hkey
    exact absurd hp List.not_mem_nil
  typed hd _ _ hkey := List.mem_append_left _ (mem_nameKeys hd List.mem_cons_self hkey)
  constructed hd _ _ hkey := List.mem_append_left _ (mem_nameKeys hd List.mem_cons_self hkey)

/-! ## Flattening -/

/-- On the way through the members of a union, and of the unions among them, a name is resolved in a
session. -/
inductive Joins (fs : Files) :
    Session → TypeExpr ModuleId → Session → TypeExpr ModuleId → Prop where
  | name {s : Session} {t : TypeExpr ModuleId} (ht : t.isTypeName = true) : Joins fs s t s t
  | member {s s₁ s' : Session} {before after : List (TypeExpr ModuleId)} {t u : TypeExpr ModuleId}
    {parts : List (List (TypeExpr ModuleId))}
    (hbefore : (before.mapM (memberParts flattenUnion)).on fs s = some (parts, s₁))
    (h : Joins fs s₁ t s' u) : Joins fs s (.union (before ++ t :: after)) s' u

/-- No name that a union has among its members resolves to a union. -/
def Shallow (fs : Files) (s : Session) (t : TypeExpr ModuleId) : Prop :=
  ∀ s' u, Joins fs s t s' u → ∀ ns s'', (resolve u).on fs s' ≠ some (.union ns, s'')

/-- What is left of a type in a flattened list: one of its nodes, or a type without parts and
name. -/
def LeftOf (t u : TypeExpr ModuleId) : Prop :=
  u ∈ t.nodes ∨ u.nodes = [u] ∧ nameKey? u = none

theorem LeftOf.length_le (h : LeftOf t u) : u.nodes.length ≤ t.nodes.length := by
  rcases h with h | ⟨h, -⟩
  · exact (TypeExpr.nodes_of_mem_nodes t h).2
  · rw [h, TypeExpr.nodes_eq t]
    exact Nat.succ_le_succ (Nat.zero_le _)

theorem LeftOf.nameKeys_subset (h : LeftOf t u) : u.nameKeys ⊆ t.nameKeys := by
  rcases h with h | ⟨h, hshape⟩
  · exact Session.nameKeys_subset h
  · rw [TypeExpr.nameKeys, h, List.filterMap_cons_none hshape]
    exact List.nil_subset _

/-- A union is flattened in the end, if each of its members is. -/
theorem ends_flattenUnion_of (h : Shallow fs s (.union ms))
    (hrec : ∀ t ∈ ms, ∀ s₁, Shallow fs s₁ t → (memberParts flattenUnion t).Ends fs s₁ fun flat s' =>
      Later fs s₁ s' ∧ ∀ u ∈ flat, LeftOf t u) :
    Ends (flattenUnion ms) fs s fun flat s' =>
      Later fs s s' ∧ ∀ u ∈ flat, ∃ t ∈ ms, LeftOf t u := by
  refine Ends.of_on_eq ?_ (flattenUnion_eq ms fs s)
  have hparts : (ms.mapM (memberParts flattenUnion)).Ends fs s fun parts s' =>
      s'.Extends s ∧ Later fs s s' ∧ ∀ flat ∈ parts, ∀ u ∈ flat, ∃ t ∈ ms, LeftOf t u := by
    refine ends_mapM_of_before (fun _ _ _ _ h => h) ?_ (.refl s)
    intro before t after parts s₁ hms hbefore hs₁
    have ht : t ∈ ms := hms ▸ List.mem_append_right before List.mem_cons_self
    have hshallow : Shallow fs s₁ t := fun s' u hu => h s' u (hms ▸ .member hbefore hu)
    exact (hrec t ht s₁ hshallow).imp fun flat s' ⟨hs', hflat⟩ =>
      ⟨hs'.extends_, hs₁.trans hs', fun u hu => ⟨t, ht, hflat u hu⟩⟩
  refine hparts.bind fun parts s' ⟨_, hs', hparts⟩ => ends_pure ⟨hs', fun u hu => ?_⟩
  obtain ⟨flat, hflat, hu⟩ := List.mem_flatten.mp hu
  exact hparts flat hflat u hu

theorem ends_memberParts (t : TypeExpr ModuleId) (s : Session) (h : Shallow fs s t) :
    (memberParts flattenUnion t).Ends fs s fun flat s' =>
      Later fs s s' ∧ ∀ u ∈ flat, LeftOf t u := by
  have hself : ∀ s', Later fs s s' → (pure [t] : Analysis _).Ends fs s' fun flat s' =>
      Later fs s s' ∧ ∀ u ∈ flat, LeftOf t u := fun s' hs' =>
    ends_pure ⟨hs', List.forall_mem_singleton.mpr (.inl t.self_mem_nodes)⟩
  obtain ⟨r, s₁, hr, hs₁⟩ : (resolve t).Ends fs s fun _ s' => Later fs s s' :=
    (ends_resolveWithin (preserved_callsAmong t.called) _ (callsAmong_called s t)).imp
      fun _ _ h => h.1
  cases t with
  | reference _ _ _ | imported _ _ _ _ =>
    refine Analysis.ends_bind_of_on hr ?_
    cases r with
    | union ns => exact absurd hr (h s _ (.name rfl) ns s₁)
    | literal l | keyword k =>
      exact ends_pure ⟨hs₁, List.forall_mem_singleton.mpr (.inr ⟨rfl, rfl⟩)⟩
    | _ => exact hself s₁ hs₁
  | union ms =>
    have hflat := ends_flattenUnion_of h fun a ha s₁ hshallow =>
      have : a.nodes.length < (TypeExpr.union ms).nodes.length := TypeExpr.length_nodes_lt ha
      ends_memberParts a s₁ hshallow
    refine hflat.imp fun flat s' ⟨hs', hflat⟩ => ⟨hs', fun u hu => ?_⟩
    obtain ⟨a, ha, hu⟩ := hflat u hu
    exact hu.imp_left fun hu => TypeExpr.nodes_subset_of_mem_parts ha hu
  | _ => exact hself s (.refl s)
termination_by t.nodes.length

/-- **A union is flattened in the end, if no name among its members resolves to a union.** -/
theorem ends_flattenUnion (h : Shallow fs s (.union ms)) :
    Ends (flattenUnion ms) fs s fun flat s' =>
      Later fs s s' ∧ ∀ u ∈ flat, ∃ t ∈ ms, LeftOf t u :=
  ends_flattenUnion_of h fun t _ s₁ ht => ends_memberParts t s₁ ht

/-! ## Parts of shapes -/

variable {inner : TypeExpr ModuleId → Analysis Schema}

/-- What a shape asks for is smaller than the shape, and has no names but its names. -/
theorem Part.smaller (hshallow : Shallow fs s t) (h : Part inner fs s t s₁ u) :
    u.nodes.length < t.nodes.length ∧ u.nameKeys ⊆ t.nameKeys := by
  have hpart : ∀ p ∈ t.parts, LeftOf p u →
      u.nodes.length < t.nodes.length ∧ u.nameKeys ⊆ t.nameKeys := fun p hp hu =>
    ⟨hu.length_le.trans_lt (TypeExpr.length_nodes_lt hp), fun key hkey =>
      nameKeys_subset (TypeExpr.nodes_subset_of_mem_parts hp p.self_mem_nodes)
        (hu.nameKeys_subset hkey)⟩
  cases h with
  | element => exact hpart u List.mem_cons_self (.inl u.self_mem_nodes)
  | member _ =>
    refine hpart _ ?_ (.inl (TypeExpr.self_mem_nodes _))
    exact List.mem_map_of_mem (List.mem_append_right _ List.mem_cons_self)
  | alternative hflat _ halternatives _ =>
    have hu := (halternatives ▸ List.mem_append_right _ List.mem_cons_self :
      u ∈ alternatives _)
    obtain ⟨p, hp, hu⟩ := ((ends_flattenUnion hshallow).of_on hflat).2 u (List.mem_filter.mp hu).1
    exact hpart p hp hu

theorem ends_planOf (hshallow : Shallow fs s t) :
    (planOf t).Ends fs s fun _ s' => Later fs s s' := by
  cases t with
  | union ms =>
    obtain ⟨flat, s₁, hflat, hs₁, -⟩ := ends_flattenUnion hshallow
    refine Analysis.ends_bind_of_on hflat ?_
    cases hvalues : (flat.filter fun m => !m.isNullish).mapM TypeExpr.string? with
    | some values =>
      simp only [hvalues]
      exact ends_pure hs₁
    | none =>
      simp only [hvalues]
      exact ends_pure hs₁
  | keyword k => cases k <;> exact ends_pure (.refl s)
  | _ => exact ends_pure (.refl s)

/-- The schema of a shape ends, if those of its parts do. -/
theorem ends_shapeSchema (hshallow : Shallow fs s t)
    (hinner : ∀ s₁ u, Part inner fs s t s₁ u → Later fs s s₁ →
      (inner u).Ends fs s₁ fun _ s' => Later fs s₁ s') :
    (shapeSchema inner t).Ends fs s fun _ s' => Later fs s s' := by
  obtain ⟨plan, s₁, hplan, hs₁⟩ := ends_planOf hshallow
  refine Analysis.ends_bind_of_on hplan ?_
  have hparts : (plan.parts.mapM inner).Ends fs s₁ fun _ s' => Later fs s₁ s' :=
    ends_mapM_later fun before u after xs s₂ hparts hbefore hs₂ =>
      hinner s₂ u (.of_planOf hplan hparts hbefore) (hs₁.trans hs₂)
  exact hparts.bind fun xs s' hs' => ends_pure (hs₁.trans hs')

/-! ## What is asked for -/

/-- On the way to the schema of a type, inside some named types and in a session, the schema of
another type is asked for, inside which named types and in which session. -/
inductive Asks (fs : Files) :
    List NameKey → Session → TypeExpr ModuleId → List NameKey → Session → TypeExpr ModuleId →
      Prop where
  | refl {open_ : List NameKey} {s : Session} {t : TypeExpr ModuleId} : Asks fs open_ s t open_ s t
  | name {open_ open' : List NameKey} {s s₁ s' : Session} {t u v : TypeExpr ModuleId}
    {key : NameKey} (hkey : nameKey? t = some key) (hfree : open_.contains key = false)
    (hexpand : expand t fs s = some (some u, s₁)) (h : Asks fs (key :: open_) s₁ u open' s' v) :
    Asks fs open_ s t open' s' v
  | part {open_ open' : List NameKey} {s s₁ s' : Session} {t u v : TypeExpr ModuleId}
    (hshape : nameKey? t = none) (hpart : Part (schemaWithin open_) fs s t s₁ u)
    (h : Asks fs open_ s₁ u open' s' v) : Asks fs open_ s t open' s' v

/-- Wherever a schema is asked for on the way to that of a type, no declaration takes type
parameters and, if it is that of a union, none of the names among its members resolves to a
union. -/
structure Plain (fs : Files) (open_ : List NameKey) (s : Session) (t : TypeExpr ModuleId) :
    Prop where
  monomorphic : ∀ open' s' u, Asks fs open_ s t open' s' u → s'.Monomorphic
  shallow : ∀ open' s' ms, Asks fs open_ s t open' s' (.union ms) → Shallow fs s' (.union ms)

namespace Plain

theorem name (h : Plain fs open_ s t) (hkey : nameKey? t = some key)
    (hfree : open_.contains key = false) (hexpand : expand t fs s = some (some u, s₁)) :
    Plain fs (key :: open_) s₁ u where
  monomorphic open' s' v hv := h.monomorphic open' s' v (.name hkey hfree hexpand hv)
  shallow open' s' ms hms := h.shallow open' s' ms (.name hkey hfree hexpand hms)

theorem part (h : Plain fs open_ s t) (hshape : nameKey? t = none)
    (hpart : Part (schemaWithin open_) fs s t s₁ u) : Plain fs open_ s₁ u where
  monomorphic open' s' v hv := h.monomorphic open' s' v (.part hshape hpart hv)
  shallow open' s' ms hms := h.shallow open' s' ms (.part hshape hpart hms)

/-- Only a union looks for names among its members. -/
theorem shallow_of_shape (h : Plain fs open_ s t) (hshape : nameKey? t = none) :
    Shallow fs s t := by
  cases t with
  | union ms => exact h.shallow open_ s ms .refl
  | reference _ _ _ | imported _ _ _ _ => exact absurd hshape (by simp [nameKey?])
  | _ =>
    intro s' u hu
    cases hu with
    | name ht => exact absurd ht (by simp [TypeExpr.isTypeName])

end Plain

/-! ## Schemas -/

/-- The named types of which the schema can be asked for. -/
def askable (extra : List NameKey) (s : Session) : Finset NameKey := (s.nameKeys ++ extra).toFinset

theorem Extends.askable_subset (h : s'.Extends s) : s.askable extra ⊆ s'.askable extra := by
  intro key hkey
  exact List.mem_toFinset.mpr (List.mem_append.mpr ((List.mem_append.mp
    (List.mem_toFinset.mp hkey)).imp_left fun hkey => h.nameKeys_subset hkey))

/-- Those that are not being expanded yet. -/
def closed (extra open_ : List NameKey) (s : Session) : Finset NameKey :=
  s.askable extra \ open_.toFinset

theorem closed_congr (h : s'.modules = s.modules) :
    s'.closed extra open_ = s.closed extra open_ := by
  simp only [closed, askable, nameKeys, collect, h]

/-- Unless a module has been loaded, it is enough that fewer names are left or the type is
smaller. -/
theorem Later.lex_of_closed (h : Later fs s s₁) {open' : List NameKey} {k k' : Nat}
    (hlt : (s.closed extra open').card < (s.closed extra open_).card ∨ open' = open_ ∧ k' < k) :
    Prod.Lex (· < ·) (Prod.Lex (· < ·) (· < ·))
      ((unloaded fs s₁).card, (s₁.closed extra open').card, k')
      ((unloaded fs s).card, (s.closed extra open_).card, k) := by
  refine lex_of_lt ?_
  rcases h.modules_eq_or_lt with hmodules | hfewer
  · have hle : (unloaded fs s₁).card ≤ (unloaded fs s).card :=
      Finset.card_le_card h.extends_.unloaded_subset
    rw [closed_congr hmodules]
    exact .inr ⟨hle, hlt.imp_right fun ⟨hopen, hsize⟩ => ⟨by rw [hopen], hsize⟩⟩
  · exact .inl hfewer

theorem NamedAmong.mem_askable (h : s.NamedAmong extra t) (hs : s.Monomorphic)
    (hkey : nameKey? t = some key) : key ∈ s.askable extra :=
  List.mem_toFinset.mpr (h hs (mem_nameKeys_self hkey))

theorem Part.namedAmong (hshallow : Shallow fs s t) (h : Part inner fs s t s₁ u)
    (hs₁ : s₁.Extends s) (ht : s.NamedAmong extra t) : s₁.NamedAmong extra u :=
  (preserved_namedAmong extra).later hs₁ fun hs =>
    List.Subset.trans (h.smaller hshallow).2 (ht hs)

/-- **Every type has a schema,** if what is asked for on the way is plain. The recursion is on the
files that can still be loaded, then on the named types that are not being expanded, then on the
size of the type. -/
theorem ends_schemaWithin (open_ : List NameKey) (t : TypeExpr ModuleId) (s : Session)
    (hplain : Plain fs open_ s t) (ht : s.NamedAmong extra t) :
    Ends (schemaWithin open_ t) fs s fun _ s' => Later fs s s' := by
  refine Ends.of_on_eq ?_ (schemaWithin_eq open_ t fs s)
  cases hkey : nameKey? t with
  | some key =>
    cases hfree : open_.contains key with
    | true =>
      simp only [hfree, if_true]
      exact ends_pure (.refl s)
    | false =>
      simp only [hfree, Bool.false_eq_true, if_false]
      obtain ⟨next, s₁, hexpand, hs₁, hnext⟩ :
          Ends (expand t) fs s (Expands fs (NamedAmong extra) s) :=
        ends_expand (preserved_namedAmong extra) ht
      refine Analysis.ends_bind_of_on hexpand ?_
      cases next with
      | none => exact ends_pure hs₁
      | some u =>
        have hmem := ht.mem_askable (hplain.monomorphic _ _ _ .refl) hkey
        exact (ends_schemaWithin (key :: open_) u s₁ (hplain.name hkey hfree hexpand)
          (hnext u rfl)).imp fun _ s' hs' => hs₁.trans hs'
  | none =>
    have hshallow := hplain.shallow_of_shape hkey
    refine ends_shapeSchema hshallow fun s₁ u hpart hs₁ => ?_
    have hlt := (hpart.smaller hshallow).1
    exact ends_schemaWithin open_ u s₁ (hplain.part hkey hpart)
      (hpart.namedAmong hshallow hs₁.extends_ ht)
termination_by ((unloaded fs s).card, (s.closed extra open_).card, t.nodes.length)
decreasing_by
  · exact hs₁.lex_of_closed (.inr ⟨rfl, hlt⟩)
  · exact hs₁.lex_of_closed (.inl (card_sdiff_cons_lt hmem (by simpa using hfree)))

end Session
end Routebook
