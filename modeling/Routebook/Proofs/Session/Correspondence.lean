import Routebook.Proofs.Session.Growth
import Routebook.Proofs.Session.Modules

/-!
# Corresponding sessions

What an analysis finds out should depend on the files, not on the numbers that modules happened to
get. A `Correspondence` says when two sessions hold the same modules, under whatever numbers, and
that loading keeps it so. An analysis in the one session is then simulated (`Simulates`) by the same
analysis in the other: **it comes to a corresponding outcome, and leaves corresponding sessions.**
The lemmas here put simulations together as analyses are put together.

A correspondence of a session with itself is an invariant of single sessions. So what is shown here
of two sessions holds in particular of one.
-/

namespace Routebook

open Disk (Files Path)

/-- Two sessions side by side. -/
abbrev World := Session × Session

/-- Whether each of two sessions has all that it had before. -/
structure World.Extends (w₁ w : World) : Prop where
  left : w₁.1.Extends w.1
  right : w₁.2.Extends w.2

theorem World.Extends.refl (w : World) : w.Extends w := ⟨.refl _, .refl _⟩

theorem World.Extends.trans {w w₁ w₂ : World} (h' : w₂.Extends w₁) (h : w₁.Extends w) :
    w₂.Extends w := ⟨h'.left.trans h.left, h'.right.trans h.right⟩

/-- A sense in which two sessions hold the same modules. A number in the one session stands for a
number in the other at names, and at import types with the specifiers that may be followed there. -/
structure Correspondence (fs : Files) where
  sessions : World → Prop
  ids : World → ScopeRelation ModuleId ModuleId
  ids_of_extends : ∀ {w w₁ : World} {m n o}, w₁.Extends w → ids w m n o → ids w₁ m n o
  ids_unique : ∀ {w m n o m' n' o'}, sessions w → ids w m n o → ids w m' n' o' → (m = m' ↔ n = n')
  modules : ∀ {w m n o}, sessions w → ids w m n o → ∃ x y, w.1.modules[m]? = some x ∧
    w.2.modules[n]? = some y ∧ x.Corresponds (ids w) y ∧ ∀ sp ∈ x.specifiers, ids w m n (some sp)
  load : ∀ {w m n sp r s}, sessions w → ids w m n (some sp) →
    (Session.loadSpecifier m sp).on fs w.1 = some (r, s) →
    ∃ r' s', (Session.loadSpecifier n sp).on fs w.2 = some (r', s') ∧ sessions (s, s') ∧
      Option.Rel (fun m n => ids (s, s') m n none) r r'
  enter : ∀ {s s' m n o} (name : String), sessions (s, s') → ids (s, s') m n o →
    sessions (s.enter (m, name), s'.enter (n, name))
  leave : ∀ {s s'}, sessions (s, s') → sessions (s.leave, s'.leave)

namespace Correspondence

variable {fs : Files} {α β γ δ : Type} (C : Correspondence fs) {w w₁ w₂ : World}

/-! ## Worlds -/

/-- Names in corresponding modules. -/
def Names (w : World) (a b : ModuleId × String) : Prop := (∃ o, C.ids w a.1 b.1 o) ∧ b.2 = a.2

/-- Sessions that correspond and are in the middle of the same interfaces. -/
structure Related (w : World) : Prop where
  sessions : C.sessions w
  expanding : List.Forall₂ (C.Names w) w.1.expanding w.2.expanding

theorem related_of_idle {C : Correspondence fs} (h : C.sessions w) (hleft : w.1.expanding = [])
    (hright : w.2.expanding = []) : C.Related w := by
  refine ⟨h, ?_⟩
  rw [hleft, hright]
  exact .nil

/-- Sessions as they can be after some analysis. -/
structure Later (w w₁ : World) : Prop where
  related : C.Related w₁
  extends_ : w₁.Extends w
  left : w₁.1.expanding = w.1.expanding
  right : w₁.2.expanding = w.2.expanding

variable {C}

theorem Later.refl (h : C.Related w) : C.Later w w := ⟨h, .refl w, rfl, rfl⟩

theorem Later.trans (h : C.Later w w₁) (h' : C.Later w₁ w₂) : C.Later w w₂ :=
  ⟨h'.related, h'.extends_.trans h.extends_, h'.left.trans h.left, h'.right.trans h.right⟩

/-! ## What later sessions keep -/

variable (C) in
/-- A relation that holds for good. -/
def Kept (Q : World → α → β → Prop) : Prop :=
  ∀ ⦃w w₁ : World⦄ ⦃a b⦄, w₁.Extends w → Q w a b → Q w₁ a b

theorem kept_eq : Kept (fun (_ : World) (a b : α) => b = a) := fun _ _ _ _ _ h => h

theorem eq_of_forall₂ {as bs : List α} (h : List.Forall₂ (fun a b => b = a) as bs) : bs = as := by
  induction h with
  | nil => rfl
  | cons hab _ ih => rw [hab, ih]

theorem kept_names : Kept C.Names := fun _ _ _ _ hw h => ⟨h.1.imp fun _ => C.ids_of_extends hw, h.2⟩

theorem Kept.list {Q : World → α → β → Prop} (h : Kept Q) :
    Kept fun w => List.Forall₂ (Q w) := fun _ _ _ _ hw hl => hl.imp fun _ _ => h hw

theorem Kept.option {Q : World → α → β → Prop} (h : Kept Q) :
    Kept fun w => Option.Rel (Q w) := by
  intro w w₁ a b hw ha
  cases ha with
  | none => exact .none
  | some hab => exact .some (h hw hab)

theorem Kept.member {Q : World → α → β → Prop} (h : Kept Q) :
    Kept fun w => Member.Corresponds (Q w) := fun _ _ _ _ hw hm => hm.imp fun _ _ => h hw

variable (C) in
/-- Types that correspond in two sessions. -/
def Types (w : World) : TypeExpr ModuleId → TypeExpr ModuleId → Prop :=
  TypeExpr.Corresponds (C.ids w)

variable (C) in
/-- Lists of members that correspond in two sessions. -/
def Members (w : World) :
    List (Member (TypeExpr ModuleId)) → List (Member (TypeExpr ModuleId)) → Prop :=
  List.Forall₂ (Member.Corresponds (C.Types w))

/-- Sessions that are in the middle of what they were in the middle of before need only correspond
again. -/
theorem Related.later (hw : C.Related w) (h : C.sessions w₁) (hext : w₁.Extends w)
    (hleft : w₁.1.expanding = w.1.expanding) (hright : w₁.2.expanding = w.2.expanding) :
    C.Later w w₁ := by
  refine ⟨⟨h, ?_⟩, hext, hleft, hright⟩
  rw [hleft, hright]
  exact kept_names.list hext hw.expanding

theorem kept_types : Kept C.Types := fun _ _ _ _ hw h => h.imp fun _ _ _ => C.ids_of_extends hw

theorem kept_members : Kept C.Members := kept_types.member.list

/-! ## Simulations -/

variable (C) in
/-- Whether an outcome in the first of two related sessions is matched by an analysis in the second:
its outcome is related, and so are the sessions that are left. -/
def Matched (w : World) (Q : World → α → β → Prop) (r : α × Session) (b : Analysis β) : Prop :=
  C.Related w →
    ∃ y s', b.on fs w.2 = some (y, s') ∧ C.Later w (r.2, s') ∧ Q (r.2, s') r.1 y

variable (C) in
/-- Whether an analysis in the first of two sessions is matched by one in the second. -/
def Simulates (w : World) (Q : World → α → β → Prop) (a : Analysis α) (b : Analysis β) : Prop :=
  ∀ x s, a.on fs w.1 = some (x, s) → C.Matched w Q (x, s) b

variable {Q : World → α → β → Prop} {R : World → γ → δ → Prop} {a : Analysis α} {b : Analysis β}
  {f : α → Analysis γ} {g : β → Analysis δ}

theorem Simulates.of_related (h : C.Related w → C.Simulates w Q a b) : C.Simulates w Q a b :=
  fun x s hx hw => h hw x s hx hw

theorem Simulates.pure {x : α} {y : β} (h : Q w x y) :
    C.Simulates w Q (Pure.pure x) (Pure.pure y) := by
  intro x' s hx hw
  obtain ⟨rfl, rfl⟩ := Analysis.on_pure_eq_some.mp hx
  exact ⟨y, w.2, rfl, .refl hw, h⟩

theorem Simulates.bind (ha : C.Simulates w Q a b)
    (hf : ∀ w₁, C.Later w w₁ → ∀ x y, Q w₁ x y → C.Simulates w₁ R (f x) (g y)) :
    C.Simulates w R (a >>= f) (b >>= g) := by
  intro z s hz hw
  obtain ⟨x, s₁, hx, hz⟩ := Analysis.on_bind_eq_some.mp hz
  obtain ⟨y, s₁', hy, hlater, hxy⟩ := ha x s₁ hx hw
  obtain ⟨z', s', hz', hlater', hzz⟩ := hf _ hlater x y hxy z s hz hlater.related
  exact ⟨z', s', (Analysis.on_bind hy).trans hz', hlater.trans hlater', hzz⟩

/-- Looking at the session and going on. -/
theorem Simulates.get {f : Session → Analysis γ} {g : Session → Analysis δ}
    (h : C.Simulates w R (f w.1) (g w.2)) :
    C.Simulates w R (MonadState.get >>= f) (MonadState.get >>= g) := h

theorem Simulates.mapM {as : List α} {bs : List β} (hR : Kept R)
    (h : List.Forall₂ (fun a b => ∀ w₁, C.Later w w₁ → C.Simulates w₁ R (f a) (g b)) as bs) :
    C.Simulates w (fun w => List.Forall₂ (R w)) (as.mapM f) (bs.mapM g) := by
  induction as generalizing bs w with
  | nil =>
    cases h
    exact .pure .nil
  | cons a as ih =>
    cases h with
    | cons hab hrest =>
      rw [List.mapM_cons, List.mapM_cons]
      refine .of_related fun hw => (hab w (.refl hw)).bind fun w₁ hw₁ x y hxy => ?_
      have htail := ih (hrest.imp fun _ _ h w₂ hw₂ => h w₂ (hw₁.trans hw₂))
      exact htail.bind fun w₂ hw₂ xs ys hxs => .pure (.cons (hR hw₂.extends_ hxy) hxs)

/-- Of the same list a part is kept, and it is the same part. -/
theorem Simulates.filterMapM {as : List α} {f : α → Analysis (Option γ)}
    {g : α → Analysis (Option δ)} (hR : Kept R)
    (h : ∀ a ∈ as, ∀ w₁, C.Later w w₁ → C.Simulates w₁ (fun w => Option.Rel (R w)) (f a) (g a)) :
    C.Simulates w (fun w => List.Forall₂ (R w)) (as.filterMapM f) (as.filterMapM g) := by
  induction as generalizing w with
  | nil => exact .pure .nil
  | cons a as ih =>
    rw [List.filterMapM_cons, List.filterMapM_cons]
    have hhead := h a List.mem_cons_self w
    refine .of_related fun hw => (hhead (.refl hw)).bind fun w₁ hw₁ x y hxy => ?_
    have htail := ih fun b hb w₂ hw₂ => h b (List.mem_cons_of_mem _ hb) w₂ (hw₁.trans hw₂)
    cases hxy with
    | none => exact htail
    | some hxy =>
      exact htail.bind fun w₂ hw₂ xs ys hxs => .pure (.cons (hR hw₂.extends_ hxy) hxs)

theorem Simulates.foldlM {Q : World → α → β → Prop} {f : α → γ → Analysis α}
    {g : β → δ → Analysis β} {cs : List γ} {ds : List δ} {a : α} {b : β}
    (h : List.Forall₂ (fun c d => ∀ w₁, C.Later w w₁ → ∀ a b, Q w₁ a b →
      C.Simulates w₁ Q (f a c) (g b d)) cs ds) (hab : Q w a b) :
    C.Simulates w Q (cs.foldlM f a) (ds.foldlM g b) := by
  induction cs generalizing ds w a b with
  | nil =>
    cases h
    exact .pure hab
  | cons c cs ih =>
    cases h with
    | cons hcd hrest =>
      rw [List.foldlM_cons, List.foldlM_cons]
      refine .of_related fun hw => (hcd w (.refl hw) a b hab).bind fun w₁ hw₁ x y hxy => ?_
      exact ih (hrest.imp fun _ _ h w₂ hw₂ => h w₂ (hw₁.trans hw₂)) hxy

/-! ## Loading and expanding -/

theorem Simulates.load {m n : ModuleId} {specifier : String}
    (h : C.ids w m n (some specifier)) :
    C.Simulates w (fun w => Option.Rel fun m n => C.ids w m n none)
      (Session.loadSpecifier m specifier) (Session.loadSpecifier n specifier) := by
  intro r s hr hw
  obtain ⟨r', s', hr', hsessions, hrr⟩ := C.load hw.sessions h hr
  have hext : World.Extends (s, s') w :=
    ⟨Session.grows_loadSpecifier m specifier fs _ _ _ hr,
      Session.grows_loadSpecifier n specifier fs _ _ _ hr'⟩
  have hlater := hw.later hsessions hext (Session.expanding_of_loadSpecifier hr)
    (Session.expanding_of_loadSpecifier hr')
  exact ⟨r', s', hr', hlater, hrr⟩

variable (C) in
/-- Whether adding a file to two corresponding sessions keeps them so. -/
def Adds (p : Path) : Prop :=
  ∀ {w : World}, C.Simulates w
    (fun w r r' => Option.Rel (fun m n => C.ids w m n none) r.toOption r'.toOption)
    (Session.addFile p) (Session.addFile p)

/-- Adding a file is no expanding, so nothing has to be shown of what is being expanded. -/
theorem adds_of_addFile {p : Path}
    (h : ∀ {w : World} {r s}, C.sessions w → (Session.addFile p).on fs w.1 = some (r, s) →
      ∃ r' s', (Session.addFile p).on fs w.2 = some (r', s') ∧ C.sessions (s, s') ∧
        Option.Rel (fun m n => C.ids (s, s') m n none) r.toOption r'.toOption) : C.Adds p := by
  intro w r s hadd hw
  obtain ⟨r', s', hadd', hsessions, hrr⟩ := h hw.sessions hadd
  have hext : World.Extends (s, s') w :=
    ⟨Session.grows_addFile p fs _ _ _ hadd, Session.grows_addFile p fs _ _ _ hadd'⟩
  have hlater := hw.later hsessions hext (Session.expanding_of_addFile hadd)
    (Session.expanding_of_addFile hadd')
  exact ⟨r', s', hadd', hlater, hrr⟩

/-- Two names in corresponding modules are the same name in both sessions or in neither. -/
theorem Names.eq_iff (hw : C.sessions w) {a a' b b' : ModuleId × String} (h : C.Names w a b)
    (h' : C.Names w a' b') : a = a' ↔ b = b' := by
  obtain ⟨⟨o, hid⟩, hname⟩ := h
  obtain ⟨⟨o', hid'⟩, hname'⟩ := h'
  rw [Prod.ext_iff, Prod.ext_iff, C.ids_unique hw hid hid', hname, hname']

theorem contains_names (hw : C.sessions w) {as bs : List (ModuleId × String)}
    {a b : ModuleId × String} (hs : List.Forall₂ (C.Names w) as bs) (h : C.Names w a b) :
    bs.contains b = as.contains a := by
  induction hs with
  | nil => rfl
  | cons hab _ ih =>
    rw [List.contains_cons, List.contains_cons, ih]
    congr 1
    rw [Bool.eq_iff_iff, beq_iff_eq, beq_iff_eq]
    exact (h.eq_iff hw hab).symm

/-- An analysis inside a name that is being expanded in both sessions. -/
theorem Simulates.within {name name' : ModuleId × String} (hname : C.Names w name name')
    (hQ : Kept Q) (ha : C.Simulates (w.1.enter name, w.2.enter name') Q a b)
    (hf : ∀ w₁, C.Later w w₁ → ∀ x y, Q w₁ x y → C.Simulates w₁ R (f x) (g y)) :
    C.Simulates w R
      (do modify (·.enter name); let x ← a; modify Session.leave; f x)
      (do modify (·.enter name'); let y ← b; modify Session.leave; g y) := by
  intro z s hz hw
  obtain ⟨u, s₀, henter, hz⟩ := Analysis.on_bind_eq_some.mp hz
  obtain ⟨-, rfl⟩ := Prod.mk.inj (Option.some.inj henter)
  obtain ⟨x, s₁, hx, hz⟩ := Analysis.on_bind_eq_some.mp hz
  obtain ⟨u, s₂, hleave, hz⟩ := Analysis.on_bind_eq_some.mp hz
  obtain ⟨-, rfl⟩ := Prod.mk.inj (Option.some.inj hleave)
  have hinner : C.sessions (w.1.enter name, w.2.enter name') := by
    obtain ⟨m, name⟩ := name
    obtain ⟨n, name'⟩ := name'
    obtain ⟨⟨o, hid⟩, rfl⟩ := hname
    exact C.enter _ hw.sessions hid
  -- Inside, both sessions have one name more.
  have hinto : World.Extends (w.1.enter name, w.2.enter name') w :=
    ⟨Session.extends_enter _ _, Session.extends_enter _ _⟩
  have hinside : C.Related (w.1.enter name, w.2.enter name') :=
    ⟨hinner, .cons (kept_names hinto hname) (kept_names.list hinto hw.expanding)⟩
  obtain ⟨y, s₁', hy, hlater, hxy⟩ := ha x s₁ hx hinside
  -- Outside again, they are in the middle of what they were in the middle of before.
  have hout : World.Extends (s₁.leave, s₁'.leave) (s₁, s₁') :=
    ⟨Session.extends_leave _, Session.extends_leave _⟩
  have hext : World.Extends (s₁.leave, s₁'.leave) w :=
    hout.trans (hlater.extends_.trans hinto)
  have hafter : C.Later w (s₁.leave, s₁'.leave) :=
    hw.later (C.leave hlater.related.sessions) hext (congrArg List.tail hlater.left)
      (congrArg List.tail hlater.right)
  obtain ⟨z', s', hz', hlater', hzz⟩ := hf _ hafter x y (hQ hout hxy) z s hz hafter.related
  refine ⟨z', s', ?_, hafter.trans hlater', hzz⟩
  refine Analysis.on_bind_eq_some.mpr ⟨u, _, rfl, ?_⟩
  exact Analysis.on_bind_eq_some.mpr
    ⟨y, s₁', hy, Analysis.on_bind_eq_some.mpr ⟨u, s₁'.leave, rfl, hz'⟩⟩

end Correspondence

end Routebook
