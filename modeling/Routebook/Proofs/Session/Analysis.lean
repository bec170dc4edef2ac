import Mathlib.Data.List.Forall2
import Routebook.Session.Basic

/-!
# What an analysis comes to

An analysis is a chain of steps, each in the session that the one before it leaves. The lemmas here
take an outcome apart into the outcomes of the steps (`on_bind_eq_some`, `on_mapM_cons`), and state
the three inductions over lists of steps that everything else is built from:

* `on_mapM_forall`: what every step guarantees of its result, all the results have;
* `on_mapM_simulates`: **an analysis that each step can be exchanged for, leaving the same session,
  the whole list can be exchanged for**, and `on_mapM_agree` if the steps agree where they are
  taken;
* `on_foldlM_invariant`: what every step keeps, the fold keeps.
-/

namespace Routebook
namespace Analysis

open Disk (Files)

variable {α β γ : Type} {fs : Files} {s s' : Session}

/-! ## One step -/

theorem on_bind_eq_some {x : Analysis α} {f : α → Analysis β} {r : β × Session} :
    (x >>= f).on fs s = some r ↔
      ∃ a s₁, x.on fs s = some (a, s₁) ∧ (f a).on fs s₁ = some r := by
  show (x fs s).bind (fun p => f p.1 fs p.2) = some r ↔ _
  rw [Option.bind_eq_some_iff]
  exact ⟨fun ⟨p, h₁, h₂⟩ => ⟨p.1, p.2, h₁, h₂⟩, fun ⟨a, s₁, h₁, h₂⟩ => ⟨(a, s₁), h₁, h₂⟩⟩

theorem on_pure_eq_some {a b : α} :
    (pure a : Analysis α).on fs s = some (b, s') ↔ b = a ∧ s' = s := by
  show some (a, s) = some (b, s') ↔ _
  rw [Option.some.injEq, eq_comm, Prod.mk.injEq]

theorem on_pure (a : α) : (pure a : Analysis α).on fs s = some (a, s) := rfl

theorem on_bind {x : Analysis α} {f : α → Analysis β} {a : α} {s₁ : Session}
    (h : x.on fs s = some (a, s₁)) : (x >>= f).on fs s = (f a).on fs s₁ := by
  show (x fs s).bind (fun p => f p.1 fs p.2) = _
  rw [show x fs s = some (a, s₁) from h]
  rfl

/-- Chains come to the same if their first steps do and they go on alike. -/
theorem on_bind_congr {x y : Analysis α} {f g : α → Analysis β}
    (hxy : x.on fs s = y.on fs s)
    (hfg : ∀ a s₁, x.on fs s = some (a, s₁) → (f a).on fs s₁ = (g a).on fs s₁) :
    (x >>= f).on fs s = (y >>= g).on fs s := by
  show (x fs s).bind (fun p => f p.1 fs p.2) = (y fs s).bind fun p => g p.1 fs p.2
  rw [← show x fs s = y fs s from hxy]
  exact Option.bind_congr fun p hp => hfg p.1 p.2 hp

/-! ## Lists of steps -/

theorem on_mapM_cons {f : α → Analysis β} {a : α} {as : List α} {ys : List β} :
    ((a :: as).mapM f).on fs s = some (ys, s') ↔
      ∃ x s₁ xs, (f a).on fs s = some (x, s₁) ∧ (as.mapM f).on fs s₁ = some (xs, s') ∧
        ys = x :: xs := by
  rw [List.mapM_cons, on_bind_eq_some]
  constructor
  · rintro ⟨x, s₁, hx, h⟩
    obtain ⟨xs, s₂, hxs, h⟩ := on_bind_eq_some.mp h
    obtain ⟨rfl, rfl⟩ := on_pure_eq_some.mp h
    exact ⟨x, s₁, xs, hx, hxs, rfl⟩
  · rintro ⟨x, s₁, xs, hx, hxs, rfl⟩
    exact ⟨x, s₁, hx, on_bind_eq_some.mpr ⟨xs, s', hxs, on_pure _⟩⟩

theorem on_mapM_forall {f : α → Analysis β} {P : β → Prop} {as : List α} {xs : List β}
    (hf : ∀ a ∈ as, ∀ s x s', (f a).on fs s = some (x, s') → P x)
    (h : (as.mapM f).on fs s = some (xs, s')) : ∀ x ∈ xs, P x := by
  induction as generalizing s xs with
  | nil =>
    obtain ⟨rfl, rfl⟩ := on_pure_eq_some.mp h
    exact fun _ hx => absurd hx List.not_mem_nil
  | cons a as ih =>
    obtain ⟨x, s₁, ys, hx, hys, rfl⟩ := on_mapM_cons.mp h
    exact List.forall_mem_cons.mpr ⟨hf a List.mem_cons_self _ _ _ hx,
      ih (fun b hb => hf b (List.mem_cons_of_mem _ hb)) hys⟩

/-- Results that each keep something of what they are made of keep it in order. -/
theorem on_mapM_map (source : α → γ) (target : β → γ) {f : α → Analysis β} {as : List α}
    {xs : List β}
    (hf : ∀ a s x s', (f a).on fs s = some (x, s') → target x = source a)
    (h : (as.mapM f).on fs s = some (xs, s')) : xs.map target = as.map source := by
  induction as generalizing s xs with
  | nil =>
    obtain ⟨rfl, rfl⟩ := on_pure_eq_some.mp h
    rfl
  | cons a as ih =>
    obtain ⟨x, s₁, ys, hx, hys, rfl⟩ := on_mapM_cons.mp h
    rw [List.map_cons, List.map_cons, hf a s x s₁ hx, ih hys]

theorem on_mapM_simulates {f : α → Analysis β} {g : α → Analysis γ} {R : β → γ → Prop}
    {as : List α} {xs : List β}
    (hfg : ∀ a ∈ as, ∀ s x s', (f a).on fs s = some (x, s') →
      ∃ y, (g a).on fs s = some (y, s') ∧ R x y)
    (h : (as.mapM f).on fs s = some (xs, s')) :
    ∃ ys, (as.mapM g).on fs s = some (ys, s') ∧ List.Forall₂ R xs ys := by
  induction as generalizing s xs with
  | nil =>
    obtain ⟨rfl, rfl⟩ := on_pure_eq_some.mp h
    exact ⟨[], rfl, .nil⟩
  | cons a as ih =>
    obtain ⟨x, s₁, xs', hx, hxs, rfl⟩ := on_mapM_cons.mp h
    obtain ⟨y, hy, hxy⟩ := hfg a (by simp) _ _ _ hx
    obtain ⟨ys, hys, hall⟩ := ih (fun b hb => hfg b (List.mem_cons_of_mem _ hb)) hxs
    exact ⟨y :: ys, on_mapM_cons.mpr ⟨y, s₁, ys, hy, hys, rfl⟩, .cons hxy hall⟩

/-- A list of steps has an outcome that another list has, if each step has it wherever the steps
before it have agreed. -/
theorem on_mapM_agree {f g : α → Analysis β} {as : List α} {xs : List β}
    (hfg : ∀ before a after ys s₁ x s₂, as = before ++ a :: after →
      (before.mapM f).on fs s = some (ys, s₁) → (before.mapM g).on fs s = some (ys, s₁) →
        (f a).on fs s₁ = some (x, s₂) → (g a).on fs s₁ = some (x, s₂))
    (h : (as.mapM f).on fs s = some (xs, s')) : (as.mapM g).on fs s = some (xs, s') := by
  induction as generalizing s xs with
  | nil => exact h
  | cons a as ih =>
    obtain ⟨x, s₁, ys, hx, hys, rfl⟩ := on_mapM_cons.mp h
    have hx' := hfg [] a as [] s x s₁ rfl rfl rfl hx
    refine on_mapM_cons.mpr ⟨x, s₁, ys, hx', ih (fun before b after zs s₂ y s₃ has hf hg => ?_) hys,
      rfl⟩
    exact hfg (a :: before) b after (x :: zs) s₂ y s₃ (by rw [has, List.cons_append])
      (on_mapM_cons.mpr ⟨x, s₁, zs, hx, hf, rfl⟩) (on_mapM_cons.mpr ⟨x, s₁, zs, hx', hg, rfl⟩)

/-- What every step guarantees of its result and of something made of that and of what it was
given. -/
theorem on_mapM_zipWith {f : α → Analysis β} {g : α → β → γ} {R : β → γ → Prop} {as : List α}
    {xs : List β} (hf : ∀ a s x s', (f a).on fs s = some (x, s') → R x (g a x))
    (h : (as.mapM f).on fs s = some (xs, s')) : List.Forall₂ R xs (List.zipWith g as xs) := by
  induction as generalizing s xs with
  | nil =>
    obtain ⟨rfl, rfl⟩ := on_pure_eq_some.mp h
    exact .nil
  | cons a as ih =>
    obtain ⟨x, s₁, ys, hx, hys, rfl⟩ := on_mapM_cons.mp h
    exact .cons (hf a _ _ _ hx) (ih hys)

/-- What is kept of a list, in its order: one result at most of each element. -/
theorem on_filterMapM_sublist (source : α → γ) (target : β → γ) {f : α → Analysis (Option β)}
    {P : β → Prop} {as : List α} {xs : List β}
    (hf : ∀ a ∈ as, ∀ s x s', (f a).on fs s = some (some x, s') → P x ∧ target x = source a)
    (h : (as.filterMapM f).on fs s = some (xs, s')) :
    (∀ x ∈ xs, P x) ∧ (xs.map target).Sublist (as.map source) := by
  induction as generalizing s xs with
  | nil =>
    obtain ⟨rfl, rfl⟩ := on_pure_eq_some.mp h
    exact ⟨fun _ hx => absurd hx List.not_mem_nil, .slnil⟩
  | cons a as ih =>
    rw [List.filterMapM_cons] at h
    obtain ⟨y, s₁, hy, h⟩ := on_bind_eq_some.mp h
    have hrest := fun b hb => hf b (List.mem_cons_of_mem _ hb)
    cases y with
    | none =>
      obtain ⟨hall, hsub⟩ := ih hrest h
      exact ⟨hall, hsub.cons _⟩
    | some x =>
      obtain ⟨ys, s₂, hys, h⟩ := on_bind_eq_some.mp h
      obtain ⟨rfl, rfl⟩ := on_pure_eq_some.mp h
      obtain ⟨hall, hsub⟩ := ih hrest hys
      obtain ⟨hx, hsource⟩ := hf a List.mem_cons_self _ _ _ hy
      refine ⟨List.forall_mem_cons.mpr ⟨hx, hall⟩, ?_⟩
      rw [List.map_cons, List.map_cons, hsource]
      exact hsub.cons_cons _

theorem on_foldlM_invariant {f : β → α → Analysis β} {P : β → Prop} {as : List α} {b b' : β}
    (hf : ∀ b, ∀ a ∈ as, ∀ s b' s', P b → (f b a).on fs s = some (b', s') → P b')
    (hb : P b) (h : (as.foldlM f b).on fs s = some (b', s')) : P b' := by
  induction as generalizing s b with
  | nil =>
    obtain ⟨rfl, rfl⟩ := on_pure_eq_some.mp h
    exact hb
  | cons a as ih =>
    rw [List.foldlM_cons] at h
    obtain ⟨b₁, s₁, hb₁, h⟩ := on_bind_eq_some.mp h
    exact ih (fun b c hc => hf b c (List.mem_cons_of_mem _ hc)) (hf b a (by simp) _ _ _ hb hb₁) h

/-- A fold whose steps ask for something and then go on from it asks for everything first. -/
theorem foldlM_eq_mapM_foldl {f : γ → α → Analysis γ} {g : α → Analysis β} {h : γ → β → γ}
    (hf : ∀ c a, f c a = do return h c (← g a)) (as : List α) (c : γ) :
    as.foldlM f c = do return (← as.mapM g).foldl h c := by
  induction as generalizing c with
  | nil => simp
  | cons a as ih =>
    rw [List.foldlM_cons, hf, List.mapM_cons]
    simp only [bind_assoc, pure_bind, ih, List.foldl_cons]

end Analysis

/-- What is told of a source shows that it is read. -/
theorem Session.exists_program_of_map {α : Type} {fs : Disk.Files} {p : Disk.Path}
    {f : Source.Program → α} {a : α} (h : (readProgram fs p).toOption.map f = some a) :
    ∃ program, readProgram fs p = .ok program ∧ f program = a := by
  obtain ⟨program, hprogram, ha⟩ := Option.map_eq_some_iff.mp h
  refine ⟨program, ?_, ha⟩
  cases hread : readProgram fs p with
  | error e =>
    rw [hread] at hprogram
    cases hprogram
  | ok other =>
    rw [hread] at hprogram
    rw [Option.some.inj hprogram]

end Routebook
