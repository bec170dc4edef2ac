import Routebook.Proofs.Session.Analysis
import Routebook.Proofs.Session.Round

/-!
# Sessions only grow

Whatever an analysis adds to a session is put behind what is there (`Extends`), so what a session
knows, every later session knows. **A name that has once led to a declaration leads to the same one
from then on, and nothing is loaded for it again** (`lookup_of_extends`). A name that leads nowhere
may lead somewhere later.
-/

namespace Routebook

open Disk (Files Path)

namespace Session

/-- Whether a session has all that another has, in the same places. -/
structure Extends (s' s : Session) : Prop where
  aliases : s'.aliases = s.aliases
  modules : s.modules <+: s'.modules
  locations : s.locations <+: s'.locations

variable {fs : Files} {s s' s₁ s₂ : Session} {m id : ModuleId} {n : String}

theorem Extends.refl (s : Session) : s.Extends s := ⟨rfl, List.prefix_rfl, List.prefix_rfl⟩

theorem Extends.trans (h' : s₂.Extends s₁) (h : s₁.Extends s) : s₂.Extends s :=
  ⟨h'.aliases.trans h.aliases, h.modules.trans h'.modules, h.locations.trans h'.locations⟩

/-- A module keeps its number. -/
theorem Extends.module? (h : s'.Extends s) {x : Module} (hx : s.modules[m]? = some x) :
    s'.modules[m]? = some x := by
  obtain ⟨added, hadded⟩ := h.modules
  rw [← hadded, List.getElem?_append_left (List.getElem?_eq_some_iff.mp hx).1]
  exact hx

/-- A place that a module was loaded from is its place for good. -/
theorem Extends.location? (h : s'.Extends s) {key : List String}
    (hid : s.locations.lookup key = some id) : s'.locations.lookup key = some id := by
  obtain ⟨added, hadded⟩ := h.locations
  rw [← hadded, List.lookup_append, hid]
  rfl

end Session

/-! ## Analyses that only add to the session -/

/-- Whether an analysis leaves a session that extends the one it began in. -/
def Analysis.Grows {α : Type} (a : Analysis α) : Prop :=
  ∀ fs s x s', a.on fs s = some (x, s') → s'.Extends s

namespace Analysis

variable {α β : Type}

theorem grows_pure (x : α) : (pure x : Analysis α).Grows := by
  intro fs s y s' h
  obtain ⟨-, rfl⟩ := on_pure_eq_some.mp h
  exact .refl _

theorem Grows.bind {a : Analysis α} {f : α → Analysis β} (ha : a.Grows) (hf : ∀ x, (f x).Grows) :
    (a >>= f).Grows := by
  intro fs s y s' h
  obtain ⟨x, s₁, hx, hy⟩ := on_bind_eq_some.mp h
  exact (hf x fs s₁ y s' hy).trans (ha fs s x s₁ hx)

theorem grows_get : (get : Analysis Session).Grows := by
  intro fs s x s' h
  obtain ⟨-, rfl⟩ := Prod.mk.inj (Option.some.inj h)
  exact .refl _

theorem grows_read : (read : Analysis Files).Grows := by
  intro fs s x s' h
  obtain ⟨-, rfl⟩ := Prod.mk.inj (Option.some.inj h)
  exact .refl _

/-- Steps that only add to the session do so together. -/
theorem Grows.mapM {f : α → Analysis β} {as : List α} (hf : ∀ a ∈ as, (f a).Grows) :
    (as.mapM f).Grows := by
  induction as with
  | nil =>
    rw [List.mapM_nil]
    exact grows_pure []
  | cons a as ih =>
    rw [List.mapM_cons]
    refine (hf a List.mem_cons_self).bind fun x => ?_
    exact (ih fun b hb => hf b (List.mem_cons_of_mem _ hb)).bind fun xs => grows_pure _

end Analysis

namespace Session

open Analysis (Grows grows_pure grows_get grows_read)

variable {fs : Files} {s s' s₁ s₂ : Session} {m id : ModuleId} {n : String}

/-! ## Loading files -/

/-- What adding a file comes to: the file is there, it cannot be read, or it is put at the end. -/
theorem addFile_cases {p : Path} {r : Except Error ModuleId}
    (h : (addFile p).on fs s = some (r, s')) :
    (∃ id, s.locations.lookup (fileKey fs p) = some id ∧ r = .ok id ∧ s' = s) ∨
      (∃ e, s.locations.lookup (fileKey fs p) = none ∧ readProgram fs p = .error e ∧
        r = .error e ∧ s' = s) ∨
      ∃ program, s.locations.lookup (fileKey fs p) = none ∧ readProgram fs p = .ok program ∧
        r = .ok s.modules.length ∧
        s' = { s with
          modules := s.modules ++ [Module.ofProgram s.modules.length p program]
          locations := s.locations ++ [(fileKey fs p, s.modules.length)] } := by
  obtain ⟨fs', s₁, hfs, h⟩ := Analysis.on_bind_eq_some.mp h
  obtain ⟨rfl, rfl⟩ := Prod.mk.inj (Option.some.inj hfs)
  obtain ⟨now, s₂, hnow, h⟩ := Analysis.on_bind_eq_some.mp h
  obtain ⟨rfl, rfl⟩ := Prod.mk.inj (Option.some.inj hnow)
  cases hlookup : s.locations.lookup (fileKey fs p) with
  | some id =>
    simp only [hlookup] at h
    obtain ⟨rfl, rfl⟩ := Analysis.on_pure_eq_some.mp h
    exact .inl ⟨id, rfl, rfl, rfl⟩
  | none =>
    cases hread : readProgram fs p with
    | error e =>
      simp only [hlookup, hread] at h
      obtain ⟨rfl, rfl⟩ := Analysis.on_pure_eq_some.mp h
      exact .inr (.inl ⟨e, rfl, rfl, rfl, rfl⟩)
    | ok program =>
      simp only [hlookup, hread] at h
      obtain ⟨_, s₃, hset, h⟩ := Analysis.on_bind_eq_some.mp h
      obtain ⟨-, rfl⟩ := Prod.mk.inj (Option.some.inj hset)
      obtain ⟨rfl, rfl⟩ := Analysis.on_pure_eq_some.mp h
      exact .inr (.inr ⟨program, rfl, rfl, rfl, rfl⟩)

/-- Whatever comes of adding a file, nothing is lost by it. -/
theorem grows_addFile (p : Path) : (addFile p).Grows := by
  intro fs s r s' h
  rcases addFile_cases h with ⟨id, -, -, rfl⟩ | ⟨e, -, -, -, rfl⟩ | ⟨program, -, -, -, rfl⟩
  · exact .refl _
  · exact .refl _
  · exact ⟨rfl, List.prefix_append .., List.prefix_append ..⟩

/-- A file that has been added is there. -/
theorem location?_of_addFile {p : Path} (h : (addFile p).on fs s = some (.ok id, s')) :
    s'.locations.lookup (fileKey fs p) = some id := by
  rcases addFile_cases h with ⟨id', hid, hr, rfl⟩ | ⟨e, -, -, hr, -⟩ | ⟨program, hnone, -, hr, rfl⟩
  · obtain rfl := Except.ok.inj hr
    exact hid
  · cases hr
  · obtain rfl := Except.ok.inj hr
    rw [List.lookup_append, hnone]
    simp

/-- A file that is there already is found under its number, and is not read again. -/
theorem addFile_of_location? {p : Path} (h : s.locations.lookup (fileKey fs p) = some id) :
    (addFile p).on fs s = some (.ok id, s) := by
  refine (Analysis.on_bind (a := fs) rfl).trans ((Analysis.on_bind (a := s) rfl).trans ?_)
  simp only [h]
  rfl

/-- A file that is not there yet is added as it can be read. -/
theorem addFile_of_readProgram {p : Path} {program : Source.Program}
    (hnew : s.locations.lookup (fileKey fs p) = none) (hread : readProgram fs p = .ok program) :
    (addFile p).on fs s = some (.ok s.modules.length, { s with
      modules := s.modules ++ [Module.ofProgram s.modules.length p program]
      locations := s.locations ++ [(fileKey fs p, s.modules.length)] }) := by
  refine (Analysis.on_bind (a := fs) rfl).trans ((Analysis.on_bind (a := s) rfl).trans ?_)
  simp only [hnew, hread]
  rfl

/-- A file that cannot be read leaves no trace. -/
theorem addFile_of_error {p : Path} {e : Error}
    (hnew : s.locations.lookup (fileKey fs p) = none) (hread : readProgram fs p = .error e) :
    (addFile p).on fs s = some (.error e, s) := by
  refine (Analysis.on_bind (a := fs) rfl).trans ((Analysis.on_bind (a := s) rfl).trans ?_)
  simp only [hnew, hread]
  rfl

/-- What a specifier means is said by the module and the aliases, which stay as they are. -/
theorem specifierFile?_of_extends (h : s'.Extends s) {specifier : String} {p : Path}
    (hp : specifierFile? fs s m specifier = some p) :
    specifierFile? fs s' m specifier = some p := by
  obtain ⟨x, hx, hfind⟩ := Option.bind_eq_some_iff.mp hp
  refine Option.bind_eq_some_iff.mpr ⟨x, h.module? hx, ?_⟩
  rw [h.aliases]
  exact hfind

/-- What loading a module comes to: there is no file, it cannot be read, or it is added. -/
theorem loadSpecifier_cases {specifier : String} {r : Option ModuleId}
    (h : (loadSpecifier m specifier).on fs s = some (r, s')) :
    (specifierFile? fs s m specifier = none ∧ r = none ∧ s' = s) ∨
      ∃ p, specifierFile? fs s m specifier = some p ∧
        ((∃ e, (addFile p).on fs s = some (.error e, s') ∧ r = none) ∨
          ∃ id, (addFile p).on fs s = some (.ok id, s') ∧ r = some id) := by
  obtain ⟨fs', s₁, hfs, h⟩ := Analysis.on_bind_eq_some.mp h
  obtain ⟨rfl, rfl⟩ := Prod.mk.inj (Option.some.inj hfs)
  obtain ⟨now, s₂, hnow, h⟩ := Analysis.on_bind_eq_some.mp h
  obtain ⟨rfl, rfl⟩ := Prod.mk.inj (Option.some.inj hnow)
  cases hfile : specifierFile? fs s m specifier with
  | none =>
    simp only [hfile] at h
    obtain ⟨rfl, rfl⟩ := Analysis.on_pure_eq_some.mp h
    exact .inl ⟨rfl, rfl, rfl⟩
  | some p =>
    simp only [hfile] at h
    obtain ⟨e, s₃, hadd, h⟩ := Analysis.on_bind_eq_some.mp h
    cases e with
    | error e =>
      obtain ⟨rfl, rfl⟩ := Analysis.on_pure_eq_some.mp h
      exact .inr ⟨p, rfl, .inl ⟨e, hadd, rfl⟩⟩
    | ok id =>
      obtain ⟨rfl, rfl⟩ := Analysis.on_pure_eq_some.mp h
      exact .inr ⟨p, rfl, .inr ⟨id, hadd, rfl⟩⟩

theorem loadSpecifier_of_addFile {specifier : String} {p : Path} {r : Except Error ModuleId}
    (hfile : specifierFile? fs s m specifier = some p) (hadd : (addFile p).on fs s = some (r, s')) :
    (loadSpecifier m specifier).on fs s = some (r.toOption, s') := by
  refine (Analysis.on_bind (a := fs) rfl).trans ((Analysis.on_bind (a := s) rfl).trans ?_)
  simp only [hfile]
  refine (Analysis.on_bind hadd).trans ?_
  cases r <;> rfl

theorem loadSpecifier_of_no_file {specifier : String}
    (hfile : specifierFile? fs s m specifier = none) :
    (loadSpecifier m specifier).on fs s = some (none, s) := by
  refine (Analysis.on_bind (a := fs) rfl).trans ((Analysis.on_bind (a := s) rfl).trans ?_)
  rw [hfile]
  rfl

/-- A specifier is loaded if it means a file, and that can be added. -/
theorem loadSpecifier_eq_some {specifier : String} :
    (loadSpecifier m specifier).on fs s = some (some id, s') ↔
      ∃ p, specifierFile? fs s m specifier = some p ∧
        (addFile p).on fs s = some (.ok id, s') := by
  constructor
  · intro h
    rcases loadSpecifier_cases h with ⟨-, hr, -⟩ | ⟨p, hfile, ⟨e, -, hr⟩ | ⟨id', hadd, hr⟩⟩
    · exact absurd hr (by simp)
    · exact absurd hr (by simp)
    · exact ⟨p, hfile, Option.some.inj hr ▸ hadd⟩
  · rintro ⟨p, hfile, hadd⟩
    exact loadSpecifier_of_addFile hfile hadd

theorem grows_loadSpecifier (m : ModuleId) (specifier : String) :
    (loadSpecifier m specifier).Grows := by
  refine grows_read.bind fun fs => grows_get.bind fun s => ?_
  cases specifierFile? fs s m specifier with
  | none => exact grows_pure none
  | some p =>
    refine (grows_addFile p).bind fun r => ?_
    cases r with
    | ok id => exact grows_pure (some id)
    | error e => exact grows_pure none

/-- Adding a file is no expanding, and neither is loading a module. -/
theorem expanding_of_addFile {p : Path} {r : Except Error ModuleId}
    (h : (addFile p).on fs s = some (r, s')) : s'.expanding = s.expanding := by
  rcases addFile_cases h with ⟨id, -, -, rfl⟩ | ⟨e, -, -, -, rfl⟩ | ⟨program, -, -, -, rfl⟩
  all_goals rfl

theorem expanding_of_loadSpecifier {specifier : String} {r : Option ModuleId}
    (h : (loadSpecifier m specifier).on fs s = some (r, s')) : s'.expanding = s.expanding := by
  rcases loadSpecifier_cases h with ⟨-, -, rfl⟩ | ⟨p, -, ⟨e, hadd, -⟩ | ⟨id, hadd, -⟩⟩
  · rfl
  · exact expanding_of_addFile hadd
  · exact expanding_of_addFile hadd

/-- A module that has been loaded is found again, and nothing is loaded for it. -/
theorem loadSpecifier_of_extends {specifier : String}
    (h : (loadSpecifier m specifier).on fs s = some (some id, s₁)) (hext : s₂.Extends s₁) :
    (loadSpecifier m specifier).on fs s₂ = some (some id, s₂) := by
  have hs := hext.trans (grows_loadSpecifier m specifier fs s _ _ h)
  obtain ⟨p, hp, hadd⟩ := loadSpecifier_eq_some.mp h
  exact loadSpecifier_eq_some.mpr ⟨p, specifierFile?_of_extends hs hp,
    addFile_of_location? (hext.location? (location?_of_addFile hadd))⟩

/-! ## Following names -/

/-- Following a name loads modules on the way, and does no more. -/
theorem grows_lookupWithin (k : Nat) (m : ModuleId) (n : String) : (lookupWithin k m n).Grows := by
  induction k generalizing m n with
  | zero => exact grows_pure none
  | succ k ih =>
    refine grows_get.bind fun s => ?_
    cases s.modules[m]? with
    | none => exact grows_pure none
    | some x =>
      dsimp only
      cases x.lead? n with
      | none => exact grows_pure none
      | some lead =>
        cases lead with
        | declared d => exact grows_pure (some (m, d))
        | renamed other => exact ih m other
        | imported specifier rest =>
          refine (grows_loadSpecifier m specifier).bind fun target => ?_
          cases target with
          | none => exact grows_pure none
          | some target => exact ih target rest

theorem grows_lookup (m : ModuleId) (n : String) : (lookup m n).Grows := grows_lookupWithin _ m n

/-- Following a name begins in its module. -/
theorem lookupWithin_of_module? {x : Module} (hx : s.modules[m]? = some x) (k : Nat) :
    (lookupWithin (k + 1) m n).on fs s = Analysis.on (do
      match x.lead? n with
      | none => return none
      | some (.declared d) => return some (m, d)
      | some (.renamed other) => lookupWithin k m other
      | some (.imported specifier rest) =>
        let some target ← loadSpecifier m specifier | return none
        lookupWithin k target rest) fs s := by
  refine (Analysis.on_bind (a := s) rfl).trans ?_
  generalize s.modules[m]? = x? at hx
  subst hx
  rfl

theorem lookupWithin_of_no_module (hx : s.modules[m]? = none) (k : Nat) :
    (lookupWithin (k + 1) m n).on fs s = some (none, s) := by
  refine (Analysis.on_bind (a := s) rfl).trans ?_
  rw [hx]
  rfl

/-- A search that has succeeded goes the same way in a later session, module by module. -/
theorem lookupWithin_of_extends {k : Nat} {found : ModuleId × Declaration}
    (h : (lookupWithin k m n).on fs s = some (some found, s₁)) (hext : s₂.Extends s₁) :
    (lookupWithin k m n).on fs s₂ = some (some found, s₂) := by
  induction k generalizing m n s with
  | zero => exact absurd (Prod.mk.inj (Option.some.inj h)).1 (by simp)
  | succ k ih =>
    -- The later session has the module in which the search began, and all that it loaded.
    have hs := hext.trans (grows_lookupWithin (k + 1) m n fs s _ _ h)
    cases hx : s.modules[m]? with
    | none =>
      rw [lookupWithin_of_no_module hx] at h
      exact absurd (Prod.mk.inj (Option.some.inj h)).1 (by simp)
    | some x =>
      rw [lookupWithin_of_module? hx] at h
      rw [lookupWithin_of_module? (hs.module? hx)]
      cases hlead : x.lead? n with
      | none =>
        simp [hlead, Analysis.on_pure_eq_some] at h
      | some lead =>
        simp only [hlead] at h ⊢
        cases lead with
        | declared d =>
          obtain ⟨hfound, -⟩ := Analysis.on_pure_eq_some.mp h
          rw [hfound]
          rfl
        | renamed other => exact ih h
        | imported specifier rest =>
          obtain ⟨target, s', hload, h⟩ := Analysis.on_bind_eq_some.mp h
          cases target with
          | none => simp [Analysis.on_pure_eq_some] at h
          | some target =>
            have hmiddle := hext.trans (grows_lookupWithin k target rest fs s' _ _ h)
            exact (Analysis.on_bind (loadSpecifier_of_extends hload hmiddle)).trans (ih h)

/-- **A name that has been followed to a declaration leads to it in every later session, and
following it again loads nothing.** -/
theorem lookup_of_extends {found : ModuleId × Declaration}
    (h : (lookup m n).on fs s = some (some found, s₁)) (hext : s₂.Extends s₁) :
    (lookup m n).on fs s₂ = some (some found, s₂) := lookupWithin_of_extends h hext

/-! ## Expanding names -/

/-- Changing the session is no loss if the changed one has all that was there. -/
theorem grows_modify {f : Session → Session} (hf : ∀ s, (f s).Extends s) :
    (modify f : Analysis PUnit).Grows := by
  intro fs s u s' h
  obtain ⟨-, rfl⟩ := Prod.mk.inj (Option.some.inj h)
  exact hf s

theorem extends_enter (s : Session) (name : ModuleId × String) : (s.enter name).Extends s :=
  ⟨rfl, List.prefix_rfl, List.prefix_rfl⟩

theorem extends_leave (s : Session) : s.leave.Extends s := ⟨rfl, List.prefix_rfl, List.prefix_rfl⟩

theorem grows_expandVariable (m : ModuleId) (d : Declaration) : (expandVariable m d).Grows := by
  cases d with
  | variableOf type constructed =>
    cases type with
    | some t => exact grows_pure (some t)
    | none =>
      cases constructed with
      | none => exact grows_pure none
      | some callee =>
        refine grows_get.bind fun s => ?_
        split
        · exact grows_pure _
        · exact grows_pure none
  | _ => exact grows_pure none

/-- What becomes of a name adds to the session what the declaration does. -/
theorem grows_foundBy {next : ModuleId → Declaration → Analysis (Option (TypeExpr ModuleId))}
    (hnext : ∀ target d, (next target d).Grows) (m : ModuleId) (n : String) :
    (foundBy next m n).Grows := by
  refine (grows_lookup m n).bind fun found => ?_
  cases found with
  | none => exact grows_pure none
  | some found => exact hnext found.1 found.2

theorem grows_expandBy {declared : DeclarationReader}
    (hdeclared : ∀ m n args d, (declared m n args d).Grows) (t : TypeExpr ModuleId) :
    (expandBy declared t).Grows := by
  cases t with
  | reference n args m => exact grows_foundBy (fun target d => hdeclared target n args d) m n
  | imported specifier qualifier args m =>
    cases qualifier with
    | none => exact grows_pure none
    | some q =>
      refine (grows_loadSpecifier m specifier).bind fun file => ?_
      cases file with
      | none => exact grows_pure none
      | some file => exact grows_foundBy (fun target d => hdeclared target q args d) file q
  | query n m => exact grows_foundBy grows_expandVariable m n
  | _ => exact grows_pure none

theorem grows_declarationBy {resolved : Resolver}
    (hresolved : ∀ k t, (resolved k t).Grows) (m : ModuleId) (n : String)
    (args : List (TypeExpr ModuleId)) (d : Declaration) :
    (declarationBy resolved m n args d).Grows := by
  cases d with
  | interface ps parents members =>
    refine grows_get.bind fun s => ?_
    split
    · exact grows_pure none
    · -- What is entered and left is only the list of interfaces that are being expanded.
      refine (grows_modify fun s => extends_enter s (m, n)).bind fun _ => ?_
      refine (Grows.mapM fun t _ => hresolved resolveLimit t).bind fun shapes => ?_
      exact (grows_modify extends_leave).bind fun _ => grows_pure _
  | _ => exact grows_pure _

/-- A round of resolving expands once, and goes on from there. -/
theorem grows_resolveBy {step : Expander} {inner : Resolver}
    (hstep : ∀ t, (step t).Grows) (hinner : ∀ k t, (inner k t).Grows) (k : Nat)
    (t : TypeExpr ModuleId) : (resolveBy step inner k t).Grows := by
  cases k with
  | zero => exact grows_pure t
  | succ k =>
    refine (hstep t).bind fun next => ?_
    cases next with
    | none => exact grows_pure t
    | some next => exact hinner k next

/-- Expanding a name, a declaration and a type again and again only add to the session. -/
theorem extends_of_expansion :
    (∀ t fs s r, expand t fs s = some r → r.2.Extends s) ∧
      (∀ m n args d fs s r, expandDeclaration m n args d fs s = some r → r.2.Extends s) ∧
      ∀ k t fs s r, resolveWithin k t fs s = some r → r.2.Extends s := by
  refine expansion_induction ?_ ?_ ?_
  · intro declared ih t fs s r
    exact grows_expandBy (fun m n args d fs s r s' => ih m n args d fs s (r, s')) t fs s r.1 r.2
  · intro resolved ih m n args d fs s r
    exact grows_declarationBy (fun k t fs s r s' => ih k t fs s (r, s')) m n args d fs s r.1 r.2
  · intro step inner ihstep ih k t fs s r
    exact grows_resolveBy (fun t fs s r s' => ihstep t fs s (r, s'))
      (fun k t fs s r s' => ih k t fs s (r, s')) k t fs s r.1 r.2

theorem grows_expand (t : TypeExpr ModuleId) : Analysis.Grows (expand t) :=
  fun fs s r s' h => extends_of_expansion.1 t fs s (r, s') h

theorem grows_expandDeclaration (m : ModuleId) (n : String) (args : List (TypeExpr ModuleId))
    (d : Declaration) : Analysis.Grows (expandDeclaration m n args d) :=
  fun fs s r s' h => extends_of_expansion.2.1 m n args d fs s (r, s') h

/-- The session in which a name has been expanded has all that looking it up has loaded. -/
theorem extends_lookup_of_expand {found : Option (ModuleId × Declaration)}
    {args : List (TypeExpr ModuleId)} {r : Option (TypeExpr ModuleId)}
    (hlookup : (lookup m n).on fs s = some (found, s₁))
    (hexpand : expand (.reference n args m) fs s = some (r, s₂)) : s₂.Extends s₁ := by
  rw [expand.eq_def] at hexpand
  have hrest := (Analysis.on_bind hlookup).symm.trans hexpand
  cases found with
  | none => exact grows_pure none fs s₁ r s₂ hrest
  | some found => exact grows_expandDeclaration found.1 n args found.2 fs s₁ r s₂ hrest

end Session

end Routebook
