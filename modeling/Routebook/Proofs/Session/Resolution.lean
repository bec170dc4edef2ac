import Routebook.Proofs.Session.Declared
import Routebook.Proofs.Session.Shape

/-!
# What was resolved stays resolved

A name that has been expanded to anything but the members of an interface is expanded to the same in
every later session, and nothing is loaded for it again (`lasts_expand`). So **a name that has been
resolved to a union, a literal or a keyword resolves to it from then on** (`lasts_resolve`): no
interface stands on the way to one, so it does not matter which interfaces are being expanded.
-/

namespace Routebook

open Disk (Files)

/-- A type that a union's names are seen through to: a union, a literal or a keyword. -/
def TypeExpr.isSeenThroughTo {σ : Type} : TypeExpr σ → Bool
  | union _ | literal _ | keyword _ => true
  | _ => false

/-! ## Outcomes that last -/

namespace Analysis

variable {α : Type} {fs : Files} {s : Session}

/-- Whether an analysis comes to something in every session from some session on, and adds nothing
to it. -/
def Lasts (a : Analysis α) (fs : Files) (x : α) (s : Session) : Prop :=
  ∀ s', s'.Extends s → a.on fs s' = some (x, s')

theorem lasts_pure (x : α) : (pure x : Analysis α).Lasts fs x s := fun _ _ => rfl

end Analysis

namespace Session

open Analysis (Lasts lasts_pure)

variable {fs : Files} {s s' s₁ : Session} {m : ModuleId} {n : String} {t u : TypeExpr ModuleId}

theorem nameKey?_of_isSeenThroughTo (h : t.isSeenThroughTo = true) : nameKey? t = none := by
  cases t with
  | reference _ _ _ => exact absurd h (by simp [TypeExpr.isSeenThroughTo])
  | imported _ _ _ _ => exact absurd h (by simp [TypeExpr.isSeenThroughTo])
  | query _ _ => exact absurd h (by simp [TypeExpr.isSeenThroughTo])
  | _ => rfl

/-- A name leads to a declaration in a module that is there. -/
theorem exists_module_of_lookupWithin {k : Nat} {found : ModuleId × Declaration}
    (h : (lookupWithin k m n).on fs s = some (some found, s')) :
    ∃ x, s'.modules[found.1]? = some x := by
  induction k generalizing m n s with
  | zero => exact absurd (Prod.mk.inj (Option.some.inj h)).1 (by simp)
  | succ k ih =>
    cases hx : s.modules[m]? with
    | none =>
      rw [lookupWithin_of_no_module hx] at h
      exact absurd (Prod.mk.inj (Option.some.inj h)).1 (by simp)
    | some x =>
      rw [lookupWithin_of_module? hx] at h
      cases hlead : x.lead? n with
      | none => simp [hlead, Analysis.on_pure_eq_some] at h
      | some lead =>
        simp only [hlead] at h
        cases lead with
        | declared d =>
          obtain ⟨hfound, rfl⟩ := Analysis.on_pure_eq_some.mp h
          obtain rfl := Option.some.inj hfound
          exact ⟨x, hx⟩
        | renamed other => exact ih h
        | imported specifier rest =>
          obtain ⟨target, s', -, h⟩ := Analysis.on_bind_eq_some.mp h
          cases target with
          | none => simp [Analysis.on_pure_eq_some] at h
          | some target => exact ih h

/-! ## Expanding -/

/-- The type of a variable stays as it is, because the module that tells what the variable is
constructed from does. -/
theorem lasts_expandVariable {d : Declaration} {x : Module} (hx : s.modules[m]? = some x)
    {r : Option (TypeExpr ModuleId)} (h : (expandVariable m d).on fs s = some (r, s')) :
    s' = s ∧ (expandVariable m d).Lasts fs r s := by
  cases d with
  | variableOf type constructed =>
    cases type with
    | some t =>
      obtain ⟨rfl, rfl⟩ := Analysis.on_pure_eq_some.mp h
      exact ⟨rfl, lasts_pure _⟩
    | none =>
      cases constructed with
      | none =>
        obtain ⟨rfl, rfl⟩ := Analysis.on_pure_eq_some.mp h
        exact ⟨rfl, lasts_pure _⟩
      | some callee =>
        have hcanonical : ∀ s₂ : Session, s₂.Extends s →
            s₂.canonicalName? (.reference callee [] m) =
              s.canonicalName? (.reference callee [] m) := by
          intro s₂ hext
          simp only [canonicalName?, hx, hext.module? hx]
        replace h := (Analysis.on_bind (a := s) rfl).symm.trans h
        cases hono : s.canonicalName? (.reference callee [] m) == some "Hono" with
        | true | false =>
          simp only [hono, Bool.false_eq_true, if_true, if_false] at h
          obtain ⟨rfl, rfl⟩ := Analysis.on_pure_eq_some.mp h
          refine ⟨rfl, fun s₂ hext => (Analysis.on_bind (a := s₂) rfl).trans ?_⟩
          rw [hcanonical s₂ hext, hono]
          rfl
  | _ =>
    obtain ⟨rfl, rfl⟩ := Analysis.on_pure_eq_some.mp h
    exact ⟨rfl, lasts_pure _⟩

/-- A declaration says of a name an object, or what it says in every session. -/
theorem lasts_expandDeclaration {d : Declaration} {args : List (TypeExpr ModuleId)}
    (h : expandDeclaration m n args d fs s = some (some u, s')) :
    (∃ ms, u = .object ms) ∨ s' = s ∧ Lasts (expandDeclaration m n args d) fs (some u) s := by
  cases d with
  | typeAlias ps body =>
    rw [expandDeclaration_typeAlias] at h
    obtain ⟨hu, rfl⟩ := Prod.mk.inj (Option.some.inj h)
    obtain rfl := Option.some.inj hu
    exact .inr ⟨rfl, fun _ _ => expandDeclaration_typeAlias ps body⟩
  | interface ps parents members =>
    obtain ⟨-, shapes, s₁, -, -, hu⟩ := expandDeclaration_interface_eq_some.mp h
    exact .inl ⟨_, hu.trans (by rw [TypeExpr.substitute])⟩
  | enumeration values =>
    rw [expandDeclaration_enumeration] at h
    obtain ⟨hu, rfl⟩ := Prod.mk.inj (Option.some.inj h)
    obtain rfl := Option.some.inj hu
    exact .inr ⟨rfl, fun _ _ => expandDeclaration_enumeration values⟩
  | _ =>
    rw [expandDeclaration.eq_def] at h
    exact absurd (Analysis.on_pure_eq_some.mp h).1 (by simp)

/-- What a type names it names from then on. -/
theorem NamesDeclaration.of_extends {target : ModuleId} {args : List (TypeExpr ModuleId)}
    {d : Declaration} (h : NamesDeclaration fs s t target n args d s₁) {s₂ : Session}
    (hext : s₂.Extends s₁) : NamesDeclaration fs s₂ t target n args d s₂ := by
  cases h with
  | reference hlookup => exact .reference (lookup_of_extends hlookup hext)
  | imported hload hlookup =>
    exact .imported (loadSpecifier_of_extends hload (hext.trans (grows_lookup _ _ _ _ _ _ hlookup)))
      (lookup_of_extends hlookup hext)

/-- A type that is expanded names a declaration, or is that of a variable. -/
theorem expand_cases (h : expand t fs s = some (some u, s')) :
    (∃ target name args d s₁, NamesDeclaration fs s t target name args d s₁ ∧
        expandDeclaration target name args d fs s₁ = some (some u, s')) ∨
      ∃ n m target d s₁, t = .query n m ∧ (lookup m n).on fs s = some (some (target, d), s₁) ∧
        (expandVariable target d).on fs s₁ = some (some u, s') := by
  rw [expand.eq_def] at h
  cases t with
  | reference n args m =>
    obtain ⟨found, s₁, hlookup, h⟩ := Analysis.on_bind_eq_some.mp h
    cases found with
    | none => exact absurd (Analysis.on_pure_eq_some.mp h).1 (by simp)
    | some found => exact .inl ⟨found.1, n, args, found.2, s₁, .reference hlookup, h⟩
  | imported specifier qualifier args m =>
    cases qualifier with
    | none => exact absurd (Analysis.on_pure_eq_some.mp h).1 (by simp)
    | some q =>
      obtain ⟨file, s₁, hfile, h⟩ := Analysis.on_bind_eq_some.mp h
      cases file with
      | none => exact absurd (Analysis.on_pure_eq_some.mp h).1 (by simp)
      | some file =>
        obtain ⟨found, s₂, hlookup, h⟩ := Analysis.on_bind_eq_some.mp h
        cases found with
        | none => exact absurd (Analysis.on_pure_eq_some.mp h).1 (by simp)
        | some found => exact .inl ⟨found.1, q, args, found.2, s₂, .imported hfile hlookup, h⟩
  | query n m =>
    obtain ⟨found, s₁, hlookup, h⟩ := Analysis.on_bind_eq_some.mp h
    cases found with
    | none => exact absurd (Analysis.on_pure_eq_some.mp h).1 (by simp)
    | some found => exact .inr ⟨n, m, found.1, found.2, s₁, rfl, hlookup, h⟩
  | _ => exact absurd (Analysis.on_pure_eq_some.mp h).1 (by simp)

/-- **A name is expanded to an object, or to the same from then on.** -/
theorem lasts_expand (h : expand t fs s = some (some u, s')) :
    (∃ ms, u = .object ms) ∨ Lasts (expand t) fs (some u) s' := by
  rcases expand_cases h with
    ⟨target, name, args, d, s₁, hnames, hd⟩ | ⟨n, m, target, d, s₁, rfl, hlookup, hd⟩
  · rcases lasts_expandDeclaration hd with hobject | ⟨rfl, hlasts⟩
    · exact .inl hobject
    · exact .inr fun s₂ hs₂ =>
        (expand_of_namesDeclaration (hnames.of_extends hs₂)).trans (hlasts s₂ hs₂)
  · obtain ⟨x, hx⟩ := exists_module_of_lookupWithin hlookup
    obtain ⟨rfl, hlasts⟩ := lasts_expandVariable hx hd
    refine .inr fun s₂ hs₂ => ?_
    show expand _ fs s₂ = _
    rw [expand.eq_def]
    exact (Analysis.on_bind (lookup_of_extends hlookup hs₂)).trans (hlasts s₂ hs₂)

/-! ## Resolving -/

theorem lasts_resolveWithin {k : Nat} (h : resolveWithin k t fs s = some (u, s'))
    (hu : u.isSeenThroughTo = true) : Lasts (resolveWithin k t) fs u s' := by
  have hshape : ∀ k, Lasts (resolveWithin k u) fs u s' := fun k _ _ =>
    resolveWithin_of_shape (nameKey?_of_isSeenThroughTo hu) k
  induction k generalizing t s with
  | zero =>
    rw [resolveWithin.eq_def] at h
    obtain ⟨rfl, rfl⟩ := Analysis.on_pure_eq_some.mp h
    exact hshape 0
  | succ k ih =>
    rw [resolveWithin.eq_def] at h
    obtain ⟨next, s₁, hexpand, h⟩ := Analysis.on_bind_eq_some.mp h
    cases next with
    | none =>
      obtain ⟨rfl, rfl⟩ := Analysis.on_pure_eq_some.mp h
      exact hshape (k + 1)
    | some next =>
      rcases lasts_expand hexpand with ⟨ms, rfl⟩ | hlasts
      · -- An object is resolved, and is not seen through to.
        replace h := (resolveWithin_of_shape rfl k).symm.trans h
        obtain ⟨rfl, -⟩ := Prod.mk.inj (Option.some.inj h)
        exact absurd hu (by simp [TypeExpr.isSeenThroughTo])
      · have hext : s'.Extends s₁ := extends_of_expansion.2.2 k next fs s₁ (u, s') h
        exact fun s₂ hs₂ =>
          (resolveWithin_of_expand (hlasts s₂ (hs₂.trans hext)) k).trans (ih h s₂ hs₂)

/-- **A name that has been resolved to a union, a literal or a keyword resolves to it from then
on.** -/
theorem lasts_resolve (h : (resolve t).on fs s = some (u, s')) (hu : u.isSeenThroughTo = true) :
    (resolve t).Lasts fs u s' := lasts_resolveWithin h hu

end Session

end Routebook
