import Mathlib
import Routebook.Proofs.Session.Declared
import Routebook.Proofs.Session.Questions
import Routebook.Proofs.Session.Sources

/-!
# Loading and following come to an end

An analysis may go on for ever, and then it has no outcome, so that it has one is to be proved
(`Analysis.Ends`). Loading a file has one, and so has following a name, which takes a limited number
of steps. What is left behind is the session with perhaps some more modules (`Session.Later`), and
**each of them has used up one of the files that could still be loaded.**
-/

namespace Routebook

open Disk (Files)

/-! ## Analyses that end -/

namespace Analysis

variable {α β : Type} {fs : Files} {s s' : Session} {P : α → Session → Prop}
  {Q : β → Session → Prop}

/-- Whether an analysis comes to something, and what it comes to has a property. -/
def Ends (a : Analysis α) (fs : Files) (s : Session) (P : α → Session → Prop) : Prop :=
  ∃ x s', a.on fs s = some (x, s') ∧ P x s'

theorem ends_pure {x : α} (h : P x s) : (pure x : Analysis α).Ends fs s P := ⟨x, s, rfl, h⟩

/-- Where the first step has come to something, it is enough that the rest ends. -/
theorem ends_bind_of_on {a : Analysis α} {f : α → Analysis β} {x : α} {s₁ : Session}
    (h : a.on fs s = some (x, s₁)) (hf : (f x).Ends fs s₁ Q) : (a >>= f).Ends fs s Q := by
  obtain ⟨y, s₂, hy, hQ⟩ := hf
  exact ⟨y, s₂, (on_bind h).trans hy, hQ⟩

theorem Ends.bind {a : Analysis α} {f : α → Analysis β} (ha : a.Ends fs s P)
    (hf : ∀ x s', P x s' → (f x).Ends fs s' Q) : (a >>= f).Ends fs s Q := by
  obtain ⟨x, s₁, hx, hP⟩ := ha
  exact ends_bind_of_on hx (hf x s₁ hP)

theorem Ends.imp {a : Analysis α} {P' : α → Session → Prop} (ha : a.Ends fs s P)
    (h : ∀ x s', P x s' → P' x s') : a.Ends fs s P' := by
  obtain ⟨x, s', hx, hP⟩ := ha
  exact ⟨x, s', hx, h x s' hP⟩

theorem Ends.of_on_eq {a b : Analysis α} (hb : b.Ends fs s P) (h : a.on fs s = b.on fs s) :
    a.Ends fs s P := by
  obtain ⟨x, s', hx, hP⟩ := hb
  exact ⟨x, s', h.trans hx, hP⟩

/-- An analysis has one outcome. -/
theorem Ends.of_on {a : Analysis α} {x : α} (ha : a.Ends fs s P) (h : a.on fs s = some (x, s')) :
    P x s' := by
  obtain ⟨y, s₁, hy, hP⟩ := ha
  obtain ⟨rfl, rfl⟩ := Prod.mk.inj (Option.some.inj (hy.symm.trans h))
  exact hP

/-- Steps that each keep an invariant all end, if each of them does after those before it have, and
what they come to lasts. -/
theorem ends_mapM_of_before {f : α → Analysis β} {as : List α} {I : Session → Prop}
    (hQ : ∀ x s s', s'.Extends s → Q x s → Q x s')
    (hf : ∀ before a after xs s₁, as = before ++ a :: after →
      (before.mapM f).on fs s = some (xs, s₁) → I s₁ →
        (f a).Ends fs s₁ fun x s' => s'.Extends s₁ ∧ I s' ∧ Q x s')
    (hs : I s) : (as.mapM f).Ends fs s fun xs s' => s'.Extends s ∧ I s' ∧ ∀ x ∈ xs, Q x s' := by
  induction as generalizing s with
  | nil => exact ends_pure ⟨.refl s, hs, fun _ hx => absurd hx List.not_mem_nil⟩
  | cons a as ih =>
    obtain ⟨x, s₁, hx, hext, hs₁, hQx⟩ := hf [] a as [] s rfl rfl hs
    obtain ⟨xs, s₂, hxs, hext', hs₂, hQxs⟩ := ih (fun before b after ys s' has hys => by
      refine hf (a :: before) b after (x :: ys) s' (by rw [has, List.cons_append]) ?_
      exact on_mapM_cons.mpr ⟨x, s₁, ys, hx, hys, rfl⟩) hs₁
    exact ⟨x :: xs, s₂, on_mapM_cons.mpr ⟨x, s₁, xs, hx, hxs, rfl⟩, hext'.trans hext, hs₂,
      List.forall_mem_cons.mpr ⟨hQ x s₁ s₂ hext' hQx, hQxs⟩⟩

theorem ends_mapM {f : α → Analysis β} {as : List α} {I : Session → Prop}
    (hQ : ∀ x s s', s'.Extends s → Q x s → Q x s')
    (hf : ∀ a ∈ as, ∀ s, I s → (f a).Ends fs s fun x s' => s'.Extends s ∧ I s' ∧ Q x s')
    (hs : I s) : (as.mapM f).Ends fs s fun xs s' => s'.Extends s ∧ I s' ∧ ∀ x ∈ xs, Q x s' :=
  ends_mapM_of_before hQ (fun before a _ _ s₁ has _ hs₁ => hf a
    (has ▸ List.mem_append_right before List.mem_cons_self) s₁ hs₁) hs

end Analysis

namespace Session

open Analysis (Ends ends_pure ends_mapM)

variable {fs : Files} {s s' s₁ s₂ : Session} {m : ModuleId} {n : String}
  {t u : TypeExpr ModuleId}

/-! ## What loading uses up -/

/-- The keys of the files that have not been loaded. -/
def unloaded (fs : Files) (s : Session) : Finset (List String) :=
  (fs.entries.map fun e => "/" :: e.1).toFinset.filter fun key => s.locations.lookup key = none

theorem Extends.unloaded_subset (h : s'.Extends s) : unloaded fs s' ⊆ unloaded fs s := by
  intro key hkey
  obtain ⟨hfile, hnone⟩ := Finset.mem_filter.mp hkey
  refine Finset.mem_filter.mpr ⟨hfile, ?_⟩
  cases hlookup : s.locations.lookup key with
  | none => rfl
  | some id => exact absurd (hnone.symm.trans (h.location? hlookup)) (by simp)

/-- What is left behind by an analysis: the session with perhaps more modules, each from a file that
had not been loaded, and inside the same interfaces. -/
structure Later (fs : Files) (s s' : Session) : Prop where
  extends_ : s'.Extends s
  expanding : s'.expanding = s.expanding
  paid : s'.modules.length + (unloaded fs s').card ≤ s.modules.length + (unloaded fs s).card

namespace Later

theorem refl (s : Session) : Later fs s s := ⟨.refl s, rfl, le_rfl⟩

theorem trans (h : Later fs s s₁) (h' : Later fs s₁ s₂) : Later fs s s₂ :=
  ⟨h'.extends_.trans h.extends_, h'.expanding.trans h.expanding, h'.paid.trans h.paid⟩

/-- Either no module has been loaded or fewer files are left. -/
theorem modules_eq_or_lt (h : Later fs s s') :
    s'.modules = s.modules ∨ (unloaded fs s').card < (unloaded fs s).card := by
  by_cases hlength : s'.modules.length = s.modules.length
  · exact .inl (h.extends_.modules.eq_of_length hlength.symm).symm
  · have hle := h.extends_.modules.length_le
    have hpaid := h.paid
    exact .inr (by omega)

end Later

/-- Steps one after another leave what each of them leaves. -/
theorem ends_mapM_later {α β : Type} {f : α → Analysis β} {as : List α}
    (hf : ∀ before a after xs s₁, as = before ++ a :: after →
      (before.mapM f).on fs s = some (xs, s₁) → Later fs s s₁ →
        (f a).Ends fs s₁ fun _ s' => Later fs s₁ s') :
    (as.mapM f).Ends fs s fun _ s' => Later fs s s' := by
  have hall : (as.mapM f).Ends fs s fun xs s' =>
      s'.Extends s ∧ Later fs s s' ∧ ∀ x ∈ xs, True := by
    refine Analysis.ends_mapM_of_before (fun _ _ _ _ h => h) ?_ (.refl s)
    intro before a after xs s₁ has hbefore hs₁
    exact (hf before a after xs s₁ has hbefore hs₁).imp fun _ s' hs' =>
      ⟨hs'.extends_, hs₁.trans hs', trivial⟩
  exact hall.imp fun _ _ h => h.2.1

theorem fileKey_mem_unloaded {p : Disk.Path} {program : Source.Program}
    (hnew : s.locations.lookup (fileKey fs p) = none) (hread : readProgram fs p = .ok program) :
    fileKey fs p ∈ unloaded fs s := by
  obtain ⟨l, text, hl, hentry⟩ := exists_file_of_readProgram hread
  have hkey := fileKey_eq hl (by simp [hentry])
  have hmem : (l, Disk.Entry.file text) ∈ fs.entries := by
    rw [Disk.Files.entry?] at hentry
    split at hentry
    · exact absurd hentry (by simp)
    · obtain ⟨before, after, hentries, -⟩ := List.lookup_eq_some_iff.mp hentry
      exact hentries ▸ List.mem_append_right _ List.mem_cons_self
  refine Finset.mem_filter.mpr ⟨?_, hnew⟩
  rw [hkey]
  exact List.mem_toFinset.mpr (List.mem_map_of_mem hmem)

theorem ends_addFile (p : Disk.Path) : (addFile p).Ends fs s fun _ s' => Later fs s s' := by
  cases hlookup : s.locations.lookup (fileKey fs p) with
  | some id => exact ⟨_, _, addFile_of_location? hlookup, .refl s⟩
  | none =>
    cases hread : readProgram fs p with
    | error e => exact ⟨_, _, addFile_of_error hlookup hread, .refl s⟩
    | ok program =>
      obtain ⟨s', hadd, hlength⟩ : ∃ s', (addFile p).on fs s = some (.ok s.modules.length, s') ∧
          s'.modules.length = s.modules.length + 1 :=
        ⟨_, addFile_of_readProgram hlookup hread, List.length_append⟩
      have hext := grows_addFile p fs s _ s' hadd
      -- The file that is loaded now is not one of those that can still be loaded.
      have hfewer : (unloaded fs s').card < (unloaded fs s).card := by
        refine Finset.card_lt_card ⟨hext.unloaded_subset, fun hsubset => ?_⟩
        have hstill := (Finset.mem_filter.mp (hsubset (fileKey_mem_unloaded hlookup hread))).2
        exact absurd (hstill.symm.trans (location?_of_addFile hadd)) (by simp)
      exact ⟨_, s', hadd, hext, expanding_of_addFile hadd, by omega⟩

theorem ends_loadSpecifier (m : ModuleId) (specifier : String) :
    (loadSpecifier m specifier).Ends fs s fun _ s' => Later fs s s' := by
  cases hfile : specifierFile? fs s m specifier with
  | none => exact ⟨_, _, loadSpecifier_of_no_file hfile, .refl s⟩
  | some p =>
    have hadd : (addFile p).Ends fs s _ := ends_addFile p
    obtain ⟨r, s', hadd, hs'⟩ := hadd
    exact ⟨_, _, loadSpecifier_of_addFile hfile hadd, hs'⟩

/-! ## Following names -/

/-- A module of a session declares something under a name. -/
def Declares (s : Session) (m : ModuleId) (name : String) (d : Declaration) : Prop :=
  ∃ x, s.modules[m]? = some x ∧ (name, d) ∈ x.declarations

theorem Declares.of_extends {d : Declaration} (h : s.Declares m n d) (hext : s'.Extends s) :
    s'.Declares m n d := by
  obtain ⟨x, hx, hd⟩ := h
  exact ⟨x, hext.module? hx, hd⟩

theorem declarations_of_lead? {x : Module} {d : Declaration}
    (h : x.lead? n = some (.declared d)) : (n, d) ∈ x.declarations := by
  rw [Module.lead?] at h
  split at h
  · split at h <;> simp at h
  · cases hd : x.declarations.get? n with
    | some d' =>
      simp only [hd, Option.some.injEq, Lead.declared.injEq] at h
      exact h ▸ Table.mem_of_get? hd
    | none =>
      simp only [hd] at h
      split at h
      · simp at h
      · split at h <;> simp at h

/-- Following a name ends. Where it leads to a declaration, a module declares it. -/
theorem ends_lookupWithin (k : Nat) (m : ModuleId) (n : String) :
    (lookupWithin k m n).Ends fs s fun found s' =>
      Later fs s s' ∧ ∀ e, found = some e → ∃ name, s'.Declares e.1 name e.2 := by
  induction k generalizing m n s with
  | zero => exact ends_pure ⟨.refl s, by simp⟩
  | succ k ih =>
    cases hx : s.modules[m]? with
    | none => exact ⟨_, _, lookupWithin_of_no_module hx k, .refl s, by simp⟩
    | some x =>
      refine Ends.of_on_eq ?_ (lookupWithin_of_module? hx k)
      cases hlead : x.lead? n with
      | none => exact ends_pure ⟨.refl s, by simp⟩
      | some lead =>
        cases lead with
        | declared d =>
          refine ends_pure ⟨.refl s, fun e he => ?_⟩
          obtain rfl := Option.some.inj he
          exact ⟨n, x, hx, declarations_of_lead? hlead⟩
        | renamed other => exact ih m other
        | imported specifier rest =>
          refine (ends_loadSpecifier m specifier).bind fun target s₁ hs₁ => ?_
          cases target with
          | none => exact ends_pure ⟨hs₁, by simp⟩
          | some target => exact (ih target rest).imp fun _ _ h => h.imp_left hs₁.trans

end Session
end Routebook
