import Routebook.Generate.Group
import Routebook.Proofs.Document.Simulation
import Routebook.Proofs.Generate.Step

/-!
# Steps of a run in corresponding sessions

A step that only reads the files can be taken in either of two corresponding sessions
(`Mirrors`): **it succeeds in both or fails in both, and leaves corresponding sessions.** Why it
fails may be said differently, because a failure names files as they are spelled in the session.
Documenting a group is such a step (`mirrors_group`).
-/

namespace Routebook

open Disk (Files)

namespace Correspondence

variable {fs : Files} {α β γ δ : Type} (C : Correspondence fs) {w : World}

/-- Whether a step in the first of two sessions is matched by one in the second: both succeed with
related outcomes or both fail, the files are as before, and the sessions still correspond. -/
def Mirrors (w : World) (Q : World → α → β → Prop) (x : Generation α) (y : Generation β) : Prop :=
  ∀ r v, Workspace.perform ⟨fs, w.1⟩ x = some (r, v) → C.Related w →
    ∃ s r' s', v = ⟨fs, s⟩ ∧ Workspace.perform ⟨fs, w.2⟩ y = some (r', ⟨fs, s'⟩) ∧
      C.Later w (s, s') ∧ Option.Rel (Q (s, s')) r.toOption r'.toOption

variable {C} {Q : World → α → β → Prop} {R : World → γ → δ → Prop}
  {x : Generation α} {y : Generation β} {f : α → Generation γ} {g : β → Generation δ}

theorem Mirrors.pure {a : α} {b : β} (h : Q w a b) :
    C.Mirrors w Q (Pure.pure a) (Pure.pure b) := by
  intro r v hr hw
  obtain ⟨rfl, rfl⟩ := Prod.mk.inj (Option.some.inj hr)
  exact ⟨w.1, .ok b, w.2, rfl, rfl, .refl hw, .some h⟩

/-- A step that follows is taken only if the first succeeds. -/
theorem Mirrors.bind (hx : C.Mirrors w Q x y)
    (hf : ∀ w₁, C.Later w w₁ → ∀ a b, Q w₁ a b → C.Mirrors w₁ R (f a) (g b)) :
    C.Mirrors w R (x >>= f) (y >>= g) := by
  intro r v hr hw
  rw [Generation.perform_bind, Option.bind_eq_some_iff] at hr
  obtain ⟨⟨r₁, v₁⟩, hr₁, hr⟩ := hr
  obtain ⟨s₁, r₁', s₁', rfl, hr₁', hlater, hrr⟩ := hx r₁ v₁ hr₁ hw
  rw [Generation.perform_bind, hr₁', Option.bind_some]
  cases r₁ with
  | error e =>
    obtain ⟨rfl, rfl⟩ := Prod.mk.inj (Option.some.inj hr)
    cases r₁' with
    | error e' => exact ⟨s₁, .error e', s₁', rfl, rfl, hlater, .none⟩
    | ok b => exact absurd hrr nofun
  | ok a =>
    cases r₁' with
    | error e' => exact absurd hrr nofun
    | ok b =>
      cases hrr with
      | some hab =>
        obtain ⟨s, r', s', hv, hr', hlater', hrr'⟩ := hf _ hlater a b hab r v hr hlater.related
        exact ⟨s, r', s', hv, hr', hlater.trans hlater', hrr'⟩

/-- Looking at the workspace and going on. -/
theorem Mirrors.get {f : Workspace → Generation γ} {g : Workspace → Generation δ}
    (h : C.Mirrors w R (f ⟨fs, w.1⟩) (g ⟨fs, w.2⟩)) :
    C.Mirrors w R (MonadState.get >>= f) (MonadState.get >>= g) := h

theorem Mirrors.ofExcept {r : Except Error α} {r' : Except Error β}
    (h : Option.Rel (Q w) r.toOption r'.toOption) :
    C.Mirrors w Q (Generation.ofExcept r) (Generation.ofExcept r') := by
  intro r₁ v hr hw
  cases r with
  | error e =>
    obtain ⟨rfl, rfl⟩ := Prod.mk.inj (Option.some.inj hr)
    cases r' with
    | error e' => exact ⟨w.1, .error (.ofError e'), w.2, rfl, rfl, .refl hw, .none⟩
    | ok b => exact absurd h nofun
  | ok a =>
    obtain ⟨rfl, rfl⟩ := Prod.mk.inj (Option.some.inj hr)
    cases r' with
    | error e' => exact absurd h nofun
    | ok b => exact ⟨w.1, .ok b, w.2, rfl, rfl, .refl hw, h⟩

theorem Mirrors.analyse {a : Analysis α} {b : Analysis β} (h : C.Simulates w Q a b) :
    C.Mirrors w Q (Generation.analyse a) (Generation.analyse b) := by
  intro r v hr hw
  obtain ⟨⟨x, s⟩, hx, hr⟩ := Option.bind_eq_some_iff.mp hr
  obtain ⟨rfl, rfl⟩ := Prod.mk.inj (Option.some.inj hr)
  obtain ⟨y, s', hy, hlater, hxy⟩ := h x s hx hw
  exact ⟨s, .ok y, s', rfl, Option.bind_eq_some_iff.mpr ⟨(y, s'), hy, rfl⟩, hlater, .some hxy⟩

/-! ## Documenting a group -/

theorem mirrors_foundPaths (docs : RouteDocs) (g : Group) :
    C.Mirrors w (fun _ a b => b = a) (Generation.foundPaths docs g)
      (Generation.foundPaths docs g) := by
  refine .get (Mirrors.bind (Q := fun _ a b => b = a) (.ofExcept ?_) fun w₁ _ p p' hp => ?_)
  · cases (Session.readProgram fs g.routesSource).toOption with
    | none => exact .none
    | some program => exact .some rfl
  · rw [hp]
    exact .pure rfl

/-- **A group has the same document in corresponding sessions, or none in both.** -/
theorem mirrors_group {c : Config} {g : Group} (hadd : C.Adds g.appTypePath) :
    C.Mirrors w (fun _ a b => b = a) (Generation.group c g) (Generation.group c g) := by
  refine (Mirrors.analyse hadd).bind fun w₁ _ added added' hadded => ?_
  refine Mirrors.bind (Q := fun w m n => C.ids w m n none) (.ofExcept hadded)
    fun w₂ hw₂ m n hmn => .get ?_
  have happ := corresponds_appType hw₂.related.sessions hmn g.appTypeName
  refine Mirrors.bind (Q := C.Types) (.ofExcept happ) fun w₃ _ app app' happs => .get ?_
  refine (Mirrors.analyse (simulates_entries happs)).bind fun w₄ _ es es' hes => ?_
  have hentries : Option.Rel (Option.Rel (C.Entries w₄)) es.toOption es'.toOption := by
    cases hes with
    | error e => exact .none
    | ok hes => exact .some hes
  refine Mirrors.bind (Q := fun w => Option.Rel (C.Entries w)) (.ofExcept hentries)
    fun w₅ _ es es' hes => ?_
  cases hes with
  | none =>
    exact (mirrors_foundPaths _ g).bind fun w₆ _ ps ps' hps => .pure (by rw [hps])
  | some hes =>
    refine (Mirrors.analyse (simulates_pathsOfEntries _ g.name hes)).bind
      fun w₆ _ ps ps' hps => .pure (by rw [hps])

end Correspondence

end Routebook
