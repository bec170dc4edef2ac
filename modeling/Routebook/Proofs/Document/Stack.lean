import Routebook.Proofs.Document.Termination

/-!
# The stack of names

The named types that are being expanded can be kept on one stack: a name is pushed before the type
that it stands for is looked at, and popped after that (`stackedSchema`). **Every call leaves the
stack as it found it,** so the schemas are those of `schemaWithin`, which hands the names down.

On the way to a schema the stack never has a name twice, and **no more names are pushed than there
are named types in the session and in the type** (`stackedSchema_ends`).
-/

namespace Routebook
namespace Session

open Disk (Files)
open Analysis (Ends Grows grows_pure)

/-! ## One stack -/

/-- An analysis with a stack of named types. -/
abbrev Stacked := StateT (List NameKey) Analysis

/-- The schema of a type, with the named types that are being expanded on a stack. -/
def stackedSchema (t : TypeExpr ModuleId) (stack : List NameKey) (fs : Files) (s : Session) :
    Option ((Schema × List NameKey) × Session) :=
  let generate : Stacked Schema := do
    let inner : TypeExpr ModuleId → Stacked Schema :=
      fun t stack fs s => s |>.stackedSchema t stack fs
    match nameKey? t with
    | some key => do
      if (← get).contains key then return {}
      match ← StateT.lift (expand t) with
      | some expanded => do
        modify (key :: ·)
        let schema ← inner expanded
        modify List.tail
        return schema
      | none => return {}
    | none => do
      let plan ← planOf t
      return plan.assemble (← plan.parts.mapM inner)
  (generate.run stack).on fs s
partial_fixpoint

variable {α β : Type} {fs : Files} {s s' s₁ : Session} {t u : TypeExpr ModuleId} {key : NameKey}
  {stack open_ open' extra : List NameKey}

/-! ## Balance -/

/-- With a stack an analysis comes to what it comes to without, and leaves the stack as it was. -/
def Balanced (stack : List NameKey) (a : Stacked α) (b : Analysis α) : Prop :=
  ∀ fs s x s', b.on fs s = some (x, s') → (a.run stack).on fs s = some ((x, stack), s')

namespace Balanced

protected theorem pure (x : α) : Balanced stack (pure x) (pure x) := by
  intro fs s y s' h
  obtain ⟨rfl, rfl⟩ := Analysis.on_pure_eq_some.mp h
  rfl

theorem lift (b : Analysis α) : Balanced stack (StateT.lift b) b :=
  fun _ _ _ _ h => Analysis.on_bind h

theorem bind {a : Stacked α} {b : Analysis α} {f : α → Stacked β} {g : α → Analysis β}
    (hab : Balanced stack a b) (hfg : ∀ x, Balanced stack (f x) (g x)) :
    Balanced stack (a >>= f) (b >>= g) := by
  intro fs s y s' h
  obtain ⟨x, s₁, hx, hy⟩ := Analysis.on_bind_eq_some.mp h
  rw [StateT.run_bind]
  exact (Analysis.on_bind (hab fs s x s₁ hx)).trans (hfg x fs s₁ y s' hy)

theorem mapM {f : α → Stacked β} {g : α → Analysis β} (hfg : ∀ x, Balanced stack (f x) (g x))
    (xs : List α) : Balanced stack (xs.mapM f) (xs.mapM g) := by
  induction xs with
  | nil => exact .pure []
  | cons x xs ih =>
    rw [List.mapM_cons, List.mapM_cons]
    exact (hfg x).bind fun y => ih.bind fun ys => .pure (y :: ys)

theorem get_bind {f : List NameKey → Stacked α} {b : Analysis α} (h : Balanced stack (f stack) b) :
    Balanced stack (get >>= f) b := h

/-- What is pushed is popped again. -/
theorem pushed {f : Stacked α} {b : Analysis α} (h : Balanced (key :: stack) f b) :
    Balanced stack (do modify (key :: ·); let x ← f; modify List.tail; return x) b := by
  intro fs s x s' hx
  have hpush : ((modify (key :: ·) : Stacked PUnit).run stack).on fs s =
      some ((PUnit.unit, key :: stack), s) := rfl
  rw [StateT.run_bind]
  refine (Analysis.on_bind hpush).trans ?_
  rw [StateT.run_bind]
  exact Analysis.on_bind (h fs s x s' hx)

end Balanced

/-- **Every call leaves the stack as it found it,** and comes to the schema inside the named types
that are on the stack. -/
theorem stackedSchema_of_schemaWithin {x : Schema} (h : schemaWithin stack t fs s = some (x, s')) :
    stackedSchema t stack fs s = some ((x, stack), s') := by
  refine schemaWithin.partial_correctness (fun stack t fs s r =>
    stackedSchema t stack fs s = some ((r.1, stack), r.2)) ?_ stack t fs s (x, s') h
  rintro schemaWithin₀ ih stack t fs s ⟨x, s'⟩ h
  have hinner : ∀ stack u, Balanced stack (stackedSchema u) (schemaWithin₀ stack u) :=
    fun stack u fs s x s' h => ih stack u fs s (x, s') h
  rw [stackedSchema.eq_def]
  refine (?_ : Balanced stack _ _) fs s x s' h
  cases hkey : nameKey? t with
  | some key =>
    refine .get_bind ?_
    cases hfree : stack.contains key with
    | true =>
      simp only [hfree, if_true]
      exact .pure _
    | false =>
      simp only [hfree, Bool.false_eq_true, if_false]
      refine (Balanced.lift _).bind fun next => ?_
      cases next with
      | none => exact .pure _
      | some u => exact .pushed (hinner (key :: stack) u)
  | none =>
    exact (Balanced.lift (planOf t)).bind fun plan =>
      (Balanced.mapM (hinner stack) plan.parts).bind fun xs => .pure _

/-! ## On the way -/

theorem grows_planOf (t : TypeExpr ModuleId) : (planOf t).Grows := by
  intro fs s plan s' h
  cases planOf_cases h with
  | enumeration hflat _ | alternatives hflat _ => exact grows_flattenUnion _ fs s _ _ hflat
  | _ => exact .refl s

theorem grows_shapeSchema {inner : TypeExpr ModuleId → Analysis Schema}
    (hinner : ∀ t, (inner t).Grows) (t : TypeExpr ModuleId) : (shapeSchema inner t).Grows :=
  (grows_planOf t).bind fun _ => (Grows.mapM fun u _ => hinner u).bind fun _ => grows_pure _

theorem grows_schemaWithin (open_ : List NameKey) (t : TypeExpr ModuleId) :
    Grows (schemaWithin open_ t) := by
  intro fs s x s' h
  refine schemaWithin.partial_correctness (fun _ _ _ s r => r.2.Extends s) ?_ open_ t fs s (x, s') h
  rintro schemaWithin₀ ih open_ t fs s ⟨x, s'⟩ h
  have hinner : ∀ open_ t, Grows (schemaWithin₀ open_ t) :=
    fun open_ t fs s x s' h => ih open_ t fs s (x, s') h
  cases hkey : nameKey? t with
  | some key =>
    simp only [hkey] at h
    cases hfree : open_.contains key with
    | true =>
      simp only [hfree, if_true] at h
      exact grows_pure _ fs s x s' h
    | false =>
      simp only [hfree, Bool.false_eq_true, if_false] at h
      refine (grows_expand t).bind (fun next => ?_) fs s x s' h
      cases next with
      | none => exact grows_pure _
      | some u => exact hinner (key :: open_) u
  | none =>
    simp only [hkey] at h
    exact grows_shapeSchema (hinner open_) t fs s x s' h

theorem Part.extends_ {inner : TypeExpr ModuleId → Analysis Schema} (hinner : ∀ t, (inner t).Grows)
    (h : Part inner fs s t s₁ u) : s₁.Extends s := by
  cases h with
  | element => exact .refl s
  | member hbefore =>
    refine Grows.mapM (fun m _ => ?_) fs s _ s₁ hbefore
    exact (hinner m.type).bind fun x => grows_pure _
  | alternative hflat _ _ hbefore =>
    exact (Grows.mapM (fun t _ => hinner t) fs _ _ s₁ hbefore).trans
      (grows_flattenUnion _ fs s _ _ hflat)

/-- Wherever a schema is asked for, names have been pushed that were not on the stack. -/
theorem Asks.pushed (h : Asks fs open_ s t open' s' u) (hplain : Plain fs open_ s t)
    {opened : List NameKey} (hopen : open_ = opened ++ stack)
    (hopened : Pushed stack (s.askable extra) opened) (ht : s.NamedAmong extra t) :
    ∃ opened', open' = opened' ++ stack ∧ Pushed stack (s'.askable extra) opened' := by
  induction h generalizing opened with
  | refl => exact ⟨opened, hopen, hopened⟩
  | name hkey hfree hexpand _ ih =>
    obtain ⟨hlater, hnext⟩ := (ends_expand (preserved_namedAmong extra) ht).of_on hexpand
    have hmem := ht.mem_askable (hplain.monomorphic _ _ _ .refl) hkey
    have hpushed := hopened.push hmem (hopen ▸ by simpa using hfree)
    exact ih (hplain.name hkey hfree hexpand) (congrArg _ hopen)
      (hpushed.mono hlater.extends_.askable_subset) (hnext _ rfl)
  | part hshape hpart _ ih =>
    have hext := hpart.extends_ (grows_schemaWithin _)
    exact ih (hplain.part hshape hpart) hopen (hopened.mono hext.askable_subset)
      (hpart.namedAmong (hplain.shallow_of_shape hshape) hext ht)

/-- **Every type has a schema,** however its declarations go round in circles, **and the stack is
left as it was,** if no declaration takes type parameters and no union has the name of a union among
its members. (That is asked only of what is met on the way.) The stack never has a name twice, and
no more names are pushed than there are named types in the session and in the type. -/
theorem stackedSchema_ends (h : Plain fs stack s t) :
    Ends (α := Schema × List NameKey) (stackedSchema t stack) fs s (fun r s' =>
        r.2 = stack ∧ schemaWithin stack t fs s = some (r.1, s')) ∧
      ∀ open' s' u, Asks fs stack s t open' s' u →
        (stack.Nodup → open'.Nodup) ∧
          ∃ opened, open' = opened ++ stack ∧
            opened.length ≤ (s'.nameKeys ++ t.nameKeys).toFinset.card := by
  have ht : s.NamedAmong t.nameKeys t := fun _ => List.subset_append_right _ _
  refine ⟨?_, fun open' s' u hasks => ?_⟩
  · obtain ⟨x, s', hx, -⟩ : Ends (schemaWithin stack t) fs s fun _ s' => Later fs s s' :=
      ends_schemaWithin stack t s h ht
    exact ⟨(x, stack), s', stackedSchema_of_schemaWithin hx, rfl, hx⟩
  · obtain ⟨opened, rfl, hopened⟩ := hasks.pushed h rfl (.nil _ _) ht
    exact ⟨hopened.nodup_append, opened, rfl, hopened.length_le⟩

/-- A module with an interface for trees. -/
def treeSession : Session :=
  { Session.start .empty with
    modules := [{ Module.empty ⟨"tree.ts"⟩ with
      declarations := [("Tree", .interface [] []
        [⟨"children", false, .array (.reference "Tree" [] 0)⟩])] }] }

def treeName : TypeExpr ModuleId := .reference "Tree" [] 0

def treeShape : TypeExpr ModuleId := .object [⟨"children", false, .array treeName⟩]

theorem expand_treeName :
    expand treeName ⟨[], []⟩ treeSession = some (some treeShape, treeSession) := by cbv

/-- What is met on the way to the schema of a tree: its name, its shape and the list of its
children. -/
theorem mem_of_asks_tree (h : Asks ⟨[], []⟩ open_ s t open' s' u) (hs : s = treeSession)
    (ht : t = treeName ∨ t = treeShape ∨ t = .array treeName) :
    s' = treeSession ∧ (u = treeName ∨ u = treeShape ∨ u = .array treeName) := by
  induction h with
  | refl => exact ⟨hs, ht⟩
  | name hkey _ hexpand _ ih =>
    subst hs
    rcases ht with rfl | rfl | rfl
    · obtain ⟨hu, rfl⟩ := Prod.mk.inj (Option.some.inj (expand_treeName.symm.trans hexpand))
      exact ih rfl (.inr (.inl (Option.some.inj hu).symm))
    · exact absurd hkey (by simp [nameKey?, treeShape])
    · exact absurd hkey (by simp [nameKey?])
  | part hshape hpart _ ih =>
    subst hs
    cases hpart with
    | element =>
      obtain ht | ht | ht := ht
      · exact absurd ht (by simp [treeName])
      · exact absurd ht (by simp [treeShape])
      · exact ih rfl (.inl (TypeExpr.array.inj ht))
    | member hbefore =>
      obtain ht | ht | ht := ht
      · exact absurd ht (by simp [treeName])
      · obtain ⟨rfl, hm⟩ | ⟨-, hnil⟩ := List.append_eq_singleton_iff.mp (TypeExpr.object.inj ht)
        · obtain ⟨-, rfl⟩ := Prod.mk.inj (Option.some.inj hbefore)
          obtain ⟨rfl, -⟩ := List.cons.inj hm
          exact ih rfl (.inr (.inr rfl))
        · exact absurd hnil (List.cons_ne_nil _ _)
      · exact absurd ht (by simp)
    | alternative _ _ _ _ =>
      obtain ht | ht | ht := ht
      · exact absurd ht (by simp [treeName])
      · exact absurd ht (by simp [treeShape])
      · exact absurd ht (by simp)

theorem stackedSchema_ends_tree :
    Plain ⟨[], []⟩ [] treeSession treeName ∧
      Ends (α := Schema × List NameKey) (stackedSchema treeName []) ⟨[], []⟩ treeSession
        (fun r _ => r.2 = []) ∧
      Asks ⟨[], []⟩ [] treeSession treeName [(0, "Tree")] treeSession treeName ∧
      ∃ opened, [(0, "Tree")] = opened ++ ([] : List NameKey) ∧
        opened.length ≤ (treeSession.nameKeys ++ treeName.nameKeys).toFinset.card := by
  have hplain : Plain ⟨[], []⟩ [] treeSession treeName := {
    monomorphic := by
      intro open' s' u h
      obtain ⟨rfl, -⟩ := mem_of_asks_tree h rfl (.inl rfl)
      rintro m n d ⟨x, hx, hd⟩
      obtain rfl := List.mem_singleton.mp (List.mem_of_getElem? hx)
      obtain ⟨-, rfl⟩ := Prod.mk.inj (List.mem_singleton.mp hd)
      rfl
    shallow := by
      intro open' s' ms h
      obtain ⟨-, hms | hms | hms⟩ := mem_of_asks_tree h rfl (.inl rfl)
      · exact absurd hms (by simp [treeName])
      · exact absurd hms (by simp [treeShape])
      · exact absurd hms (by simp) }
  have hinside : Asks ⟨[], []⟩ [] treeSession treeName [(0, "Tree")] treeSession treeName := by
    have hchildren : Part (schemaWithin [(0, "Tree")]) ⟨[], []⟩ treeSession
        (.object ([] ++ [⟨"children", false, .array treeName⟩])) treeSession (.array treeName) :=
      .member rfl
    exact .name rfl rfl expand_treeName (.part rfl hchildren (.part rfl .element .refl))
  obtain ⟨hends, hway⟩ := stackedSchema_ends hplain
  exact ⟨hplain, hends.imp fun _ _ h => h.1, hinside, (hway _ _ _ hinside).2⟩

end Session
end Routebook
