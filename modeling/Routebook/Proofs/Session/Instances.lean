import Routebook.Proofs.Session.Inheritance

/-!
# What parameters stand for

The parameters of a declaration stand for its arguments, and those that are left out for their
defaults, in which the earlier parameters stand for what they stand for (`instantiation`). A session
takes a default as it is written. **So an alias or an interface that is given arguments is its body
with every parameter replaced, unless it names a parameter that is left out while its default names
an earlier one** (`expand_of_telescope`). What replaces the parameters has no reference to a
parameter but those of the arguments.
-/

namespace Routebook

open Disk (Files)
open TypeExpr (Bindings Captured stand)

variable {ps : List (TypeParameter ModuleId)} {args : List (TypeExpr ModuleId)}
  {p : TypeParameter ModuleId} {d : TypeExpr ModuleId} {b : Bindings ModuleId} {n : String}

/-! ## Arguments and defaults -/

/-- What a parameter stands for, with its argument if it is given one, where the parameters before
it stand for `b`. -/
def TypeParameter.value (b : Bindings ModuleId) (arg : Option (TypeExpr ModuleId))
    (p : TypeParameter ModuleId) : TypeExpr ModuleId :=
  arg.getD ((p.default.map (·.substitute b)).getD (.keyword .unknown))

/-- Further parameters with their arguments, where those before them stand for `b`. -/
def instancesAfter (b : Bindings ModuleId) : List (TypeParameter ModuleId) →
    List (TypeExpr ModuleId) → Bindings ModuleId
  | [], _ => b
  | p :: ps, args =>
    instancesAfter (fun n => if n = p.name then some (p.value b args.head?) else b n) ps args.tail

/-- What the parameters of a declaration stand for. -/
def instantiation (ps : List (TypeParameter ModuleId)) (args : List (TypeExpr ModuleId)) :
    Bindings ModuleId := instancesAfter (fun _ => none) ps args

/-- Parameters of different names, whose defaults name no parameter but those before them. -/
structure Telescope (ps : List (TypeParameter ModuleId)) : Prop where
  nodup : (ps.map (·.name)).Nodup
  earlier : ∀ i p d, ps[i]? = some p → p.default = some d →
    ∀ x ∈ d.bare, x.1 ∈ ps.map (·.name) → x.1 ∈ (ps.take i).map (·.name)

/-- Whether a name is that of a parameter that is left out while its default names an earlier one,
which stands for something else. -/
def Unfilled (ps : List (TypeParameter ModuleId)) (args : List (TypeExpr ModuleId))
    (name : String) : Prop :=
  ∃ (i : Nat) (p : TypeParameter ModuleId) (d : TypeExpr ModuleId), ps[i]? = some p ∧
    p.name = name ∧ args[i]? = none ∧ p.default = some d ∧
      Captured (instantiation (ps.take i) args) d

theorem instancesAfter_of_not_mem (hn : n ∉ ps.map (·.name)) :
    instancesAfter b ps args n = b n := by
  induction ps generalizing b args with
  | nil => rfl
  | cons p ps ih =>
    rw [List.map_cons, List.mem_cons, not_or] at hn
    rw [instancesAfter, ih hn.2, if_neg hn.1]

theorem instancesAfter_of_getElem? (hps : (ps.map (·.name)).Nodup) {i : Nat}
    (hp : ps[i]? = some p) :
    instancesAfter b ps args p.name =
      some (p.value (instancesAfter b (ps.take i) args) args[i]?) := by
  induction ps generalizing b args i with
  | nil => simp at hp
  | cons q ps ih =>
    simp only [List.map_cons, List.nodup_cons] at hps
    cases i with
    | zero =>
      obtain rfl := Option.some.inj hp
      rw [instancesAfter, instancesAfter_of_not_mem hps.1, if_pos rfl, List.head?_eq_getElem?]
      rfl
    | succ i =>
      rw [instancesAfter, ih hps.2 hp, List.getElem?_tail]
      rfl

theorem instantiation_of_getElem? (hps : (ps.map (·.name)).Nodup) {i : Nat}
    (hp : ps[i]? = some p) :
    instantiation ps args p.name = some (p.value (instantiation (ps.take i) args) args[i]?) :=
  instancesAfter_of_getElem? hps hp

theorem instantiation_of_not_mem (hn : n ∉ ps.map (·.name)) : instantiation ps args n = none :=
  instancesAfter_of_not_mem hn

namespace Session

/-! ## What a session binds -/

theorem bind_of_not_mem (hn : n ∉ ps.map (·.name)) : bind ps args n = none := by
  induction ps generalizing args with
  | nil => rfl
  | cons p ps ih =>
    simp only [List.map_cons, List.mem_cons, not_or] at hn
    simp [bind, ih hn.2, hn.1]

theorem bind_of_getElem? (hps : (ps.map (·.name)).Nodup) {i : Nat} (hp : ps[i]? = some p) :
    bind ps args p.name = some (args[i]?.getD (p.default.getD (.keyword .unknown))) := by
  induction ps generalizing args i with
  | nil => simp at hp
  | cons q ps ih =>
    simp only [List.map_cons, List.nodup_cons] at hps
    cases i with
    | zero =>
      obtain rfl := Option.some.inj hp
      simp [bind, bind_of_not_mem hps.1, List.head?_eq_getElem?]
    | succ i => simp [bind, ih hps.2 hp]

/-- **A parameter is bound to what it stands for, unless it is left out and its default names an
earlier one.** -/
theorem stand_bind_eq_iff (hps : (ps.map (·.name)).Nodup) (x : String × ModuleId) :
    stand (bind ps args) x = stand (instantiation ps args) x ↔ ¬ Unfilled ps args x.1 := by
  by_cases hx : x.1 ∈ ps.map (·.name)
  · obtain ⟨p, hmem, hname⟩ := List.mem_map.mp hx
    obtain ⟨i, hp⟩ := List.mem_iff_getElem?.mp hmem
    -- The parameter of this name is the only one.
    have hunfilled : Unfilled ps args x.1 ↔ ∃ d, args[i]? = none ∧ p.default = some d ∧
        Captured (instantiation (ps.take i) args) d := by
      constructor
      · rintro ⟨j, q, d, hq, hqname, hrest⟩
        have hij : i = j := by
          have hlt : i < (ps.map (·.name)).length := by
            simpa using (List.getElem?_eq_some_iff.mp hp).1
          refine (List.getElem?_inj hlt hps).mp ?_
          simp [hp, hq, hname, hqname]
        subst hij
        obtain rfl := Option.some.inj (hp.symm.trans hq)
        exact ⟨d, hrest⟩
      · rintro ⟨d, hrest⟩
        exact ⟨i, p, d, hp, hname, hrest⟩
    rw [hunfilled, stand, stand, ← hname, bind_of_getElem? hps hp, instantiation_of_getElem? hps hp,
      TypeParameter.value]
    cases harg : args[i]? with
    | some a => simp
    | none =>
      cases hd : p.default with
      | none => simp
      | some d =>
        have hself := TypeExpr.substitute_eq_self_iff (b := instantiation (ps.take i) args) (t := d)
        simp [← hself, eq_comm]
  · have hunfilled : ¬ Unfilled ps args x.1 := by
      rintro ⟨i, p, d, hp, hname, -⟩
      exact hx (List.mem_map.mpr ⟨p, List.mem_of_getElem? hp, hname⟩)
    simp [stand, bind_of_not_mem hx, instantiation_of_not_mem hx, hunfilled]

theorem substitute_bind_eq_iff (hps : (ps.map (·.name)).Nodup) (t : TypeExpr ModuleId) :
    t.substitute (bind ps args) = t.substitute (instantiation ps args) ↔
      ∀ x ∈ t.bare, ¬ Unfilled ps args x.1 := by
  rw [TypeExpr.substitute_eq_substitute_iff]
  exact forall₂_congr fun x _ => stand_bind_eq_iff hps x

theorem map_substitute_bind_eq_iff (hps : (ps.map (·.name)).Nodup)
    (ms : List (Member (TypeExpr ModuleId))) :
    ms.map (·.substitute (bind ps args)) = ms.map (·.substitute (instantiation ps args)) ↔
      ∀ m ∈ ms, ∀ x ∈ m.type.bare, ¬ Unfilled ps args x.1 := by
  rw [List.map_inj_left]
  apply forall₂_congr
  intro m _
  rw [← substitute_bind_eq_iff hps]
  simp [Member.substitute]

/-! ## What is left of the parameters -/

theorem exists_arg_of_stand (hps : Telescope ps) {k : Nat} {x r : String × ModuleId}
    (hx : x ∈ (stand (instantiation (ps.take k) args) r).bare) (hname : x.1 ∈ ps.map (·.name))
    (hr : r.1 ∈ ps.map (·.name) → r.1 ∈ (ps.take k).map (·.name)) : ∃ a ∈ args, x ∈ a.bare := by
  induction k using Nat.strongRecOn generalizing r with
  | ind k ih =>
    by_cases hmem : r.1 ∈ (ps.take k).map (·.name)
    · obtain ⟨p, hp, hpname⟩ := List.mem_map.mp hmem
      obtain ⟨i, hp⟩ := List.mem_iff_getElem?.mp hp
      have hik : i < k := by
        have hlt := (List.getElem?_eq_some_iff.mp hp).1
        rw [List.length_take] at hlt
        omega
      have hnodup : ((ps.take k).map (·.name)).Nodup := by
        rw [List.map_take]
        exact hps.nodup.sublist (List.take_sublist k _)
      rw [stand, ← hpname, instantiation_of_getElem? hnodup hp, Option.getD_some,
        TypeParameter.value, List.take_take, Nat.min_eq_left (Nat.le_of_lt hik)] at hx
      cases harg : args[i]? with
      | some a =>
        rw [harg] at hx
        exact ⟨a, List.mem_of_getElem? harg, hx⟩
      | none =>
        rw [harg] at hx
        cases hd : p.default with
        | none => simp [hd, TypeExpr.bare] at hx
        | some d =>
          -- What the default brings in stands for an earlier parameter.
          simp only [hd, Option.getD_none, Option.map_some, Option.getD_some,
            TypeExpr.bare_substitute, List.mem_flatMap] at hx
          obtain ⟨r', hr', hx⟩ := hx
          have hpi : ps[i]? = some p := by
            rwa [List.getElem?_take_of_lt hik] at hp
          exact ih i hik hx (hps.earlier i p d hpi hd r' hr')
    · have hfree : r.1 ∉ ps.map (·.name) := fun h => hmem (hr h)
      rw [stand, instantiation_of_not_mem hmem, Option.getD_none, TypeExpr.bare,
        List.mem_singleton] at hx
      subst hx
      exact absurd hname hfree

/-- **With every parameter replaced, a type refers to parameters in its arguments only.** -/
theorem exists_arg_of_substitute (hps : Telescope ps) {u : TypeExpr ModuleId}
    {x : String × ModuleId} (hx : x ∈ (u.substitute (instantiation ps args)).bare)
    (hname : x.1 ∈ ps.map (·.name)) : ∃ a ∈ args, x ∈ a.bare := by
  rw [TypeExpr.bare_substitute, List.mem_flatMap] at hx
  obtain ⟨r, -, hx⟩ := hx
  rw [← List.take_length (l := ps)] at hx
  exact exists_arg_of_stand hps hx hname fun h => by rwa [List.take_length]

/-! ## Expanding with arguments -/

variable {fs : Files} {s s₁ : Session} {target : ModuleId} {name : String} {t : TypeExpr ModuleId}

/-- **What is given arguments is expanded to its body with every parameter replaced by what it
stands for, as far as no parameter that is left out has a default that names an earlier one.** The
members of an interface are replaced in this way, and so are its parents before they are resolved;
what they hand down is found as in `Arrives`. Arguments stand for themselves, and nothing else
brings in a reference to a parameter. -/
theorem expand_of_telescope (hps : Telescope ps) :
    (∀ body, NamesDeclaration fs s t target name args (.typeAlias ps body) s₁ →
      ∃ r, expand t fs s = some (some r, s₁) ∧
        (r = body.substitute (instantiation ps args) ↔ ∀ x ∈ body.bare, ¬ Unfilled ps args x.1)) ∧
    (∀ parents members shapes s₂,
      NamesDeclaration fs s t target name args (.interface ps parents members) s₁ →
      s₁.expanding.contains (target, name) = false →
      (∀ parent ∈ parents, ∀ x ∈ parent.bare, ¬ Unfilled ps args x.1) →
      ((parents.map (·.substitute (instantiation ps args))).mapM resolve).on fs
        (s₁.enter (target, name)) = some (shapes, s₂) →
      ∃ arrived own, expand t fs s = some (some (.object (arrived ++ own)), s₂.leave) ∧
        List.Forall₂ (Arrives (bind ps args)) (handedDown shapes members) arrived ∧
        (own = (ownMembers members).map (·.substitute (instantiation ps args)) ↔
          ∀ m ∈ ownMembers members, ∀ x ∈ m.type.bare, ¬ Unfilled ps args x.1)) ∧
    (∀ (i : Nat) p a, ps[i]? = some p → args[i]? = some a →
      instantiation ps args p.name = some a) ∧
    ∀ (u : TypeExpr ModuleId) x, x ∈ (u.substitute (instantiation ps args)).bare →
      x.1 ∈ ps.map (·.name) → ∃ a ∈ args, x ∈ a.bare := by
  refine ⟨?_, ?_, ?_, ?_⟩
  · intro body hnames
    refine ⟨body.substitute (bind ps args), ?_, substitute_bind_eq_iff hps.nodup body⟩
    rw [expand_of_namesDeclaration hnames, expandDeclaration_typeAlias]
  · intro parents members shapes s₂ hnames hguard hparents hshapes
    have hbound : parents.map (·.substitute (bind ps args)) =
        parents.map (·.substitute (instantiation ps args)) :=
      List.map_congr_left fun parent h =>
        (substitute_bind_eq_iff hps.nodup parent).mpr (hparents parent h)
    rw [← hbound] at hshapes
    have hexpand := expand_of_shapes hnames hguard hshapes
    rw [foldl_addOwnMember, List.map_append] at hexpand
    refine ⟨(handedDown shapes members).map (·.substitute (bind ps args)), _, hexpand, ?_,
      map_substitute_bind_eq_iff hps.nodup _⟩
    rw [List.forall₂_map_right_iff, List.forall₂_same]
    intro x _
    exact arrives_substitute (bind ps args) x
  · intro i p a hp ha
    rw [instantiation_of_getElem? hps.nodup hp, ha]
    rfl
  · intro u x hx hname
    exact exists_arg_of_substitute hps hx hname

/-! ### Defaults that do and do not name an earlier parameter -/

section Defaults

/-- `Pair<A, B = A[]>`, whose second parameter has a default that names the first. -/
def pairParameters : List (TypeParameter ModuleId) :=
  [⟨"A", none⟩, ⟨"B", some (.array (.reference "A" [] 0))⟩]

def pairBody : TypeExpr ModuleId :=
  .object [⟨"first", false, .reference "A" [] 0⟩, ⟨"second", false, .reference "B" [] 0⟩]

/-- `Page<T, M = number>`, which has its items from a parent. -/
def pageParameters : List (TypeParameter ModuleId) := [⟨"T", none⟩, ⟨"M", some (.keyword .number)⟩]

def pageMembers : List (Member (TypeExpr ModuleId)) := [⟨"meta", false, .reference "M" [] 0⟩]

def pagesModule : Module where
  path := ⟨"pages.ts"⟩
  declarations := [
    ("Pair", .typeAlias pairParameters pairBody),
    ("Listed", .interface [⟨"T", none⟩] [] [⟨"items", false, .array (.reference "T" [] 0)⟩]),
    ("Page", .interface pageParameters [.reference "Listed" [.reference "T" [] 0] 0] pageMembers)]
  imports := []
  renames := []
  exportedAliases := []

def pagesSession : Session := ⟨.empty, [pagesModule], [(["/", "pages.ts"], 0)], []⟩

theorem telescope_pairParameters : Telescope pairParameters := by
  refine ⟨by decide, ?_⟩
  intro i p d hp hd x hx hmem
  match i, hp with
  | 0, hp =>
    obtain rfl := Option.some.inj hp
    exact absurd hd (by simp)
  | 1, hp =>
    obtain rfl := Option.some.inj hp
    obtain rfl := Option.some.inj hd
    obtain rfl := List.mem_singleton.mp hx
    decide

theorem telescope_pageParameters : Telescope pageParameters := by
  refine ⟨by decide, ?_⟩
  intro i p d hp hd x hx hmem
  match i, hp with
  | 0, hp =>
    obtain rfl := Option.some.inj hp
    exact absurd hd (by simp)
  | 1, hp =>
    obtain rfl := Option.some.inj hp
    obtain rfl := Option.some.inj hd
    exact absurd hx (by simp [TypeExpr.bare])

theorem unfilled_pair : Unfilled pairParameters [.keyword .string] "B" :=
  ⟨1, _, _, rfl, rfl, rfl, rfl, ("A", 0), List.mem_singleton.mpr rfl, .keyword .string, rfl,
    by simp⟩

/-- A default that names no parameter fills in. -/
theorem not_unfilled_page (n : String) : ¬ Unfilled pageParameters [.keyword .string] n := by
  rintro ⟨i, p, d, hp, -, -, hd, r, hr, -⟩
  match i, hp with
  | 0, hp =>
    obtain rfl := Option.some.inj hp
    exact absurd hd (by simp)
  | 1, hp =>
    obtain rfl := Option.some.inj hp
    obtain rfl := Option.some.inj hd
    exact absurd hr (by simp [TypeExpr.bare])

theorem resolve_listedOfString (fs : Files) :
    ((([.reference "Listed" [.reference "T" [] 0] 0] : List (TypeExpr ModuleId)).map
      (·.substitute (instantiation pageParameters [.keyword .string]))).mapM resolve).on fs
        (pagesSession.enter (0, "Page")) =
      some ([.object [⟨"items", false, .array (.keyword .string)⟩]],
        pagesSession.enter (0, "Page")) := by
  have hnames : NamesDeclaration fs (pagesSession.enter (0, "Page"))
      (.reference "Listed" [.keyword .string] 0) 0 "Listed" [.keyword .string]
      (.interface [⟨"T", none⟩] [] [⟨"items", false, .array (.reference "T" [] 0)⟩])
      (pagesSession.enter (0, "Page")) := .reference rfl
  have hparents : (([] : List (TypeExpr ModuleId)).mapM resolve).on fs
      ((pagesSession.enter (0, "Page")).enter (0, "Listed")) =
        some ([], (pagesSession.enter (0, "Page")).enter (0, "Listed")) := rfl
  have hexpand := expand_of_shapes hnames (by decide) hparents
  have hresolve := (resolveWithin_of_expand hexpand 31).trans (resolveWithin_of_shape rfl 31)
  exact Analysis.on_mapM_cons.mpr ⟨_, _, [], hresolve, rfl, rfl⟩

/-- `Pair<string>` is not its body with both parameters replaced, and the members of `Page<string>`
are replaced throughout. -/
theorem expand_of_telescope_page :
    (∃ r, expand (.reference "Pair" [.keyword .string] 0) ⟨[], []⟩ pagesSession =
        some (some r, pagesSession) ∧
      r ≠ .object [⟨"first", false, .keyword .string⟩,
        ⟨"second", false, .array (.keyword .string)⟩]) ∧
    ∃ arrived, expand (.reference "Page" [.keyword .string] 0) ⟨[], []⟩ pagesSession =
        some (some (.object (arrived ++ [⟨"meta", false, .keyword .number⟩])), pagesSession) ∧
      List.Forall₂ (Arrives (bind pageParameters [.keyword .string]))
        [⟨"items", false, .array (.keyword .string)⟩] arrived := by
  have hpair : NamesDeclaration ⟨[], []⟩ pagesSession (.reference "Pair" [.keyword .string] 0) 0
      "Pair" [.keyword .string] (.typeAlias pairParameters pairBody) pagesSession := .reference rfl
  have hpage : NamesDeclaration ⟨[], []⟩ pagesSession (.reference "Page" [.keyword .string] 0) 0
      "Page" [.keyword .string] (.interface pageParameters
        [.reference "Listed" [.reference "T" [] 0] 0] pageMembers) pagesSession := .reference rfl
  constructor
  · obtain ⟨r, hexpand, hiff⟩ := (expand_of_telescope telescope_pairParameters).1 pairBody hpair
    refine ⟨r, hexpand, ?_⟩
    intro hr
    exact hiff.mp hr ("B", 0) (by simp [pairBody, TypeExpr.bare, TypeExpr.bareOfMembers])
      unfilled_pair
  · obtain ⟨arrived, own, hexpand, harrived, hown⟩ :=
      (expand_of_telescope telescope_pageParameters).2.1 _ _ _ _ hpage (by decide)
        (fun _ _ x _ => not_unfilled_page x.1) (resolve_listedOfString ⟨[], []⟩)
    rw [hown.mpr fun _ _ x _ => not_unfilled_page x.1] at hexpand
    exact ⟨arrived, hexpand, harrived⟩

end Defaults

end Session
end Routebook
