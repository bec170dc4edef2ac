import Mathlib.Data.List.Forall2
import Mathlib.Data.Option.Basic
import Routebook.CommandLine.Sources
import Routebook.Session.Expand
import Routebook.TypeExpr.Text

/-!
# Types that are the same but for their scopes

Two types correspond (`Corresponds`) when they are written the same and each scope of the one
stands, in a sense that is left open, for the scope at the same place of the other. **All that can
be asked of a type without following its names is the same for both**: its text, its value if it is
a literal, whether it is nullish. Substitution keeps the correspondence (`Corresponds.substitute`),
and so does everything that is built from it.

The sense in which scopes correspond may depend on the specifier that an import type has in them,
because a specifier can mean different files in different modules.
-/

namespace Routebook

/-- When a scope of one type stands for a scope of another, at a name or at an import type with this
specifier. -/
abbrev ScopeRelation (σ τ : Type) := σ → τ → Option String → Prop

/-- Members that differ only in their types, which are related. -/
structure Member.Corresponds {α β : Type} (R : α → β → Prop) (x : Member α) (y : Member β) :
    Prop where
  name : y.name = x.name
  optional : y.optional = x.optional
  type : R x.type y.type

theorem Member.Corresponds.imp {α β : Type} {R R' : α → β → Prop} {x : Member α} {y : Member β}
    (h : x.Corresponds R y) (hR : ∀ a b, R a b → R' a b) : x.Corresponds R' y :=
  ⟨h.name, h.optional, hR _ _ h.type⟩

namespace TypeExpr

variable {σ τ : Type} {P Q : ScopeRelation σ τ}

mutual
inductive Corresponds (P : ScopeRelation σ τ) : TypeExpr σ → TypeExpr τ → Prop
  | keyword (k : Keyword) : Corresponds P (.keyword k) (.keyword k)
  | literal (l : Literal) : Corresponds P (.literal l) (.literal l)
  | array {t u} : Corresponds P t u → Corresponds P (.array t) (.array u)
  | tuple {ts us} : CorrespondsList P ts us → Corresponds P (.tuple ts) (.tuple us)
  | object {ms ns} : CorrespondsMembers P ms ns → Corresponds P (.object ms) (.object ns)
  | union {ts us} : CorrespondsList P ts us → Corresponds P (.union ts) (.union us)
  | intersection {ts us} :
    CorrespondsList P ts us → Corresponds P (.intersection ts) (.intersection us)
  | reference (name : String) {ts us a b} : CorrespondsList P ts us → P a b none →
    Corresponds P (.reference name ts a) (.reference name us b)
  | imported (specifier : String) (qualifier : Option String) {ts us a b} :
    CorrespondsList P ts us → P a b (some specifier) →
    Corresponds P (.imported specifier qualifier ts a) (.imported specifier qualifier us b)
  | query (name : String) {a b} : P a b none → Corresponds P (.query name a) (.query name b)
  | other (source : String) : Corresponds P (.other source) (.other source)
inductive CorrespondsList (P : ScopeRelation σ τ) : List (TypeExpr σ) → List (TypeExpr τ) → Prop
  | nil : CorrespondsList P [] []
  | cons {t u ts us} : Corresponds P t u → CorrespondsList P ts us →
    CorrespondsList P (t :: ts) (u :: us)
inductive CorrespondsMembers (P : ScopeRelation σ τ) :
    List (Member (TypeExpr σ)) → List (Member (TypeExpr τ)) → Prop
  | nil : CorrespondsMembers P [] []
  | cons (name : String) (optional : Bool) {t u ms ns} : Corresponds P t u →
    CorrespondsMembers P ms ns →
    CorrespondsMembers P (⟨name, optional, t⟩ :: ms) (⟨name, optional, u⟩ :: ns)
end

/-! ## Lists -/

theorem correspondsList_iff {ts : List (TypeExpr σ)} {us : List (TypeExpr τ)} :
    CorrespondsList P ts us ↔ List.Forall₂ (Corresponds P) ts us := by
  constructor
  · intro h
    induction ts generalizing us with
    | nil =>
      cases h
      exact .nil
    | cons t ts ih =>
      cases h with
      | cons ht hts => exact .cons ht (ih hts)
  · intro h
    induction h with
    | nil => exact .nil
    | cons ht _ ih => exact .cons ht ih

theorem correspondsMembers_iff {ms : List (Member (TypeExpr σ))} {ns : List (Member (TypeExpr τ))} :
    CorrespondsMembers P ms ns ↔ List.Forall₂ (Member.Corresponds (Corresponds P)) ms ns := by
  constructor
  · intro h
    induction ms generalizing ns with
    | nil =>
      cases h
      exact .nil
    | cons m ms ih =>
      cases h with
      | cons name optional ht hms => exact .cons ⟨rfl, rfl, ht⟩ (ih hms)
  · intro h
    induction h with
    | nil => exact .nil
    | @cons x y ms ns hxy _ ih =>
      obtain ⟨name, optional, t⟩ := x
      obtain ⟨name', optional', u⟩ := y
      obtain ⟨rfl, rfl, ht⟩ := hxy
      exact .cons name' optional' ht ih

/-! ## Scopes that correspond in another sense -/

/-- The other sense need only be implied at the specifiers that a type mentions. -/
structure ImpliedAt (P Q : ScopeRelation σ τ) (specifiers : List String) : Prop where
  names : ∀ a b, P a b none → Q a b none
  imports : ∀ specifier ∈ specifiers, ∀ a b, P a b (some specifier) → Q a b (some specifier)

theorem ImpliedAt.left {sps sps' : List String} (h : ImpliedAt P Q (sps ++ sps')) :
    ImpliedAt P Q sps := ⟨h.names, fun sp hsp => h.imports sp (List.mem_append_left _ hsp)⟩

theorem ImpliedAt.right {sps sps' : List String} (h : ImpliedAt P Q (sps ++ sps')) :
    ImpliedAt P Q sps' := ⟨h.names, fun sp hsp => h.imports sp (List.mem_append_right _ hsp)⟩

mutual
theorem Corresponds.of_impliedAt {t : TypeExpr σ} {u : TypeExpr τ} :
    Corresponds P t u → ImpliedAt P Q t.specifiers → Corresponds Q t u
  | .keyword k, _ => .keyword k
  | .literal l, _ => .literal l
  | .array ht, h => .array (ht.of_impliedAt h)
  | .tuple hts, h => .tuple (hts.of_impliedAt h)
  | .object hms, h => .object (hms.of_impliedAt h)
  | .union hts, h => .union (hts.of_impliedAt h)
  | .intersection hts, h => .intersection (hts.of_impliedAt h)
  | .reference name hts hab, h => .reference name (hts.of_impliedAt h) (h.names _ _ hab)
  | .imported specifier qualifier hts hab, h =>
    have hargs : ImpliedAt P Q ([specifier] ++ _) := h
    .imported specifier qualifier (hts.of_impliedAt hargs.right)
      (h.imports specifier List.mem_cons_self _ _ hab)
  | .query name hab, h => .query name (h.names _ _ hab)
  | .other source, _ => .other source
theorem CorrespondsList.of_impliedAt {ts : List (TypeExpr σ)} {us : List (TypeExpr τ)} :
    CorrespondsList P ts us → ImpliedAt P Q (specifiersOfList ts) → CorrespondsList Q ts us
  | .nil, _ => .nil
  | .cons ht hts, h => .cons (ht.of_impliedAt h.left) (hts.of_impliedAt h.right)
theorem CorrespondsMembers.of_impliedAt {ms : List (Member (TypeExpr σ))}
    {ns : List (Member (TypeExpr τ))} :
    CorrespondsMembers P ms ns → ImpliedAt P Q (specifiersOfMembers ms) →
      CorrespondsMembers Q ms ns
  | .nil, _ => .nil
  | .cons name optional ht hms, h =>
    .cons name optional (ht.of_impliedAt h.left) (hms.of_impliedAt h.right)
end

theorem Corresponds.imp {t : TypeExpr σ} {u : TypeExpr τ} (ht : Corresponds P t u)
    (h : ∀ a b o, P a b o → Q a b o) : Corresponds Q t u :=
  ht.of_impliedAt ⟨fun a b => h a b none, fun sp _ a b => h a b (some sp)⟩

/-! ## What corresponding types have in common -/

theorem Corresponds.needsParens {t : TypeExpr σ} {u : TypeExpr τ} (h : Corresponds P t u) :
    u.needsParens = t.needsParens := by
  cases h <;> rfl

mutual
/-- Corresponding types read the same. -/
theorem Corresponds.text {t : TypeExpr σ} {u : TypeExpr τ} : Corresponds P t u → u.text = t.text
  | .keyword _ | .literal _ | .query _ _ | .other _ => by simp only [TypeExpr.text]
  | .array ht => by simp only [TypeExpr.text, ht.text, ht.needsParens]
  | .tuple hts | .union hts | .intersection hts | .reference _ hts _ => by
    simp only [TypeExpr.text, hts.texts]
  | .imported _ none hts _ | .imported _ (some _) hts _ => by simp only [TypeExpr.text, hts.texts]
  | .object .nil => by simp only [TypeExpr.text]
  | .object (.cons name optional ht hms) => by
    simp only [TypeExpr.text, (CorrespondsMembers.cons name optional ht hms).texts]
theorem CorrespondsList.texts {ts : List (TypeExpr σ)} {us : List (TypeExpr τ)} :
    CorrespondsList P ts us → TypeExpr.texts us = TypeExpr.texts ts
  | .nil => rfl
  | .cons ht hts => by rw [TypeExpr.texts, TypeExpr.texts, ht.text, hts.texts]
theorem CorrespondsMembers.texts {ms : List (Member (TypeExpr σ))}
    {ns : List (Member (TypeExpr τ))} :
    CorrespondsMembers P ms ns → TypeExpr.memberTexts ns = TypeExpr.memberTexts ms
  | .nil => rfl
  | .cons _ _ ht hms => by rw [TypeExpr.memberTexts, TypeExpr.memberTexts, ht.text, hms.texts]
end

mutual
/-- Corresponding types mention the same files. -/
theorem Corresponds.specifiers {t : TypeExpr σ} {u : TypeExpr τ} :
    Corresponds P t u → u.specifiers = t.specifiers
  | .keyword _ | .literal _ | .query _ _ | .other _ => by simp only [TypeExpr.specifiers]
  | .array ht => by simp only [TypeExpr.specifiers, ht.specifiers]
  | .tuple hts | .union hts | .intersection hts | .reference _ hts _ | .imported _ _ hts _ => by
    simp only [TypeExpr.specifiers, hts.specifiers]
  | .object hms => by simp only [TypeExpr.specifiers, hms.specifiers]
theorem CorrespondsList.specifiers {ts : List (TypeExpr σ)} {us : List (TypeExpr τ)} :
    CorrespondsList P ts us → specifiersOfList us = specifiersOfList ts
  | .nil => rfl
  | .cons ht hts => by rw [specifiersOfList, specifiersOfList, ht.specifiers, hts.specifiers]
theorem CorrespondsMembers.specifiers {ms : List (Member (TypeExpr σ))}
    {ns : List (Member (TypeExpr τ))} :
    CorrespondsMembers P ms ns → specifiersOfMembers ns = specifiersOfMembers ms
  | .nil => rfl
  | .cons _ _ ht hms => by
    rw [specifiersOfMembers, specifiersOfMembers, ht.specifiers, hms.specifiers]
end

section Shape

variable {t : TypeExpr σ} {u : TypeExpr τ}

theorem Corresponds.kind (h : Corresponds P t u) : u.kind = t.kind := by
  cases h <;> rfl

theorem Corresponds.string? (h : Corresponds P t u) : u.string? = t.string? := by
  cases h with
  | literal l => cases l <;> rfl
  | _ => rfl

theorem Corresponds.status? (h : Corresponds P t u) : u.status? = t.status? := by
  cases h with
  | literal l => cases l <;> rfl
  | _ => rfl

theorem Corresponds.isNullish (h : Corresponds P t u) : u.isNullish = t.isNullish := by
  cases h with
  | keyword k => cases k <;> rfl
  | _ => rfl

theorem Corresponds.args (h : Corresponds P t u) : List.Forall₂ (Corresponds P) t.args u.args := by
  cases h with
  | reference _ hts _ => exact correspondsList_iff.mp hts
  | imported _ _ hts _ => exact correspondsList_iff.mp hts
  | _ => exact .nil

theorem Corresponds.members? (h : Corresponds P t u) :
    Option.Rel (List.Forall₂ (Member.Corresponds (Corresponds P))) t.members? u.members? := by
  cases h with
  | object hms => exact .some (correspondsMembers_iff.mp hms)
  | _ => exact .none

end Shape

/-! ## Substitution -/

/-- Bindings of the same names to corresponding types. -/
def CorrespondingBindings (P : ScopeRelation σ τ) (b : Bindings σ) (c : Bindings τ) : Prop :=
  ∀ name, Option.Rel (Corresponds P) (b name) (c name)

mutual
theorem Corresponds.substitute {b : Bindings σ} {c : Bindings τ} (h : CorrespondingBindings P b c)
    {t : TypeExpr σ} {u : TypeExpr τ} :
    Corresponds P t u → Corresponds P (t.substitute b) (u.substitute c)
  | .keyword k => .keyword k
  | .literal l => .literal l
  | .array ht => .array (ht.substitute h)
  | .tuple hts => .tuple (hts.substitute h)
  | .object hms => .object (hms.substitute h)
  | .union hts => .union (hts.substitute h)
  | .intersection hts => .intersection (hts.substitute h)
  | .reference name .nil hab => by
    rw [TypeExpr.substitute, TypeExpr.substitute]
    have hname := h name
    generalize b name = t? at hname
    generalize c name = u? at hname
    cases hname with
    | some ht => exact ht
    | none => exact .reference name .nil hab
  | .reference name (.cons ht hts) hab =>
    .reference name (.cons (ht.substitute h) (hts.substitute h)) hab
  | .imported specifier qualifier hts hab => .imported specifier qualifier (hts.substitute h) hab
  | .query name hab => .query name hab
  | .other source => .other source
theorem CorrespondsList.substitute {b : Bindings σ} {c : Bindings τ}
    (h : CorrespondingBindings P b c) {ts : List (TypeExpr σ)} {us : List (TypeExpr τ)} :
    CorrespondsList P ts us → CorrespondsList P (substituteList b ts) (substituteList c us)
  | .nil => .nil
  | .cons ht hts => .cons (ht.substitute h) (hts.substitute h)
theorem CorrespondsMembers.substitute {b : Bindings σ} {c : Bindings τ}
    (h : CorrespondingBindings P b c) {ms : List (Member (TypeExpr σ))}
    {ns : List (Member (TypeExpr τ))} : CorrespondsMembers P ms ns →
      CorrespondsMembers P (substituteMembers b ms) (substituteMembers c ns)
  | .nil => .nil
  | .cons name optional ht hms => .cons name optional (ht.substitute h) (hms.substitute h)
end

/-! ## Types in the scope of a module -/

mutual
/-- A type that is put into two modules, whose numbers stand for each other. -/
theorem corresponds_map {f : σ → τ} {ρ : Type} {g : σ → ρ} {P : ScopeRelation τ ρ}
    (h : ∀ a o, P (f a) (g a) o) : ∀ t : TypeExpr σ, Corresponds P (t.map f) (t.map g)
  | .keyword k => .keyword k
  | .literal l => .literal l
  | .array t => .array (corresponds_map h t)
  | .tuple ts => .tuple (correspondsList_map h ts)
  | .object ms => .object (correspondsMembers_map h ms)
  | .union ts => .union (correspondsList_map h ts)
  | .intersection ts => .intersection (correspondsList_map h ts)
  | .reference name ts a => .reference name (correspondsList_map h ts) (h a none)
  | .imported specifier qualifier ts a =>
    .imported specifier qualifier (correspondsList_map h ts) (h a (some specifier))
  | .query name a => .query name (h a none)
  | .other source => .other source
theorem correspondsList_map {f : σ → τ} {ρ : Type} {g : σ → ρ} {P : ScopeRelation τ ρ}
    (h : ∀ a o, P (f a) (g a) o) :
    ∀ ts : List (TypeExpr σ), CorrespondsList P (mapList f ts) (mapList g ts)
  | [] => .nil
  | t :: ts => .cons (corresponds_map h t) (correspondsList_map h ts)
theorem correspondsMembers_map {f : σ → τ} {ρ : Type} {g : σ → ρ} {P : ScopeRelation τ ρ}
    (h : ∀ a o, P (f a) (g a) o) :
    ∀ ms : List (Member (TypeExpr σ)), CorrespondsMembers P (mapMembers f ms) (mapMembers g ms)
  | [] => .nil
  | ⟨name, optional, t⟩ :: ms =>
    .cons name optional (corresponds_map h t) (correspondsMembers_map h ms)
end

end TypeExpr

end Routebook
