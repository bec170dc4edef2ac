import Routebook.Proofs.Session.Questions

/-!
# Sessions that agree

Two sessions agree on a set of questions when they have modules under the same numbers, and would
load files under the same, that answer these questions alike (`Agreement`). The set has to be closed:
what is used in an answer is asked next. **Then every type whose uses are in the set comes to the
same in both sessions** (`Agreement.expand_eq`, `Agreement.resolve_eq`), whatever else the modules
say. Agreement is symmetric, so it is enough to follow an analysis in the one session and find it in
the other (`Simulates`).
-/

namespace Routebook

open Disk (Files Path)
open Session (fileKey readProgram)

/-- Modules of one file under one number that answer some questions alike, where the questions
include those that come of the answers. -/
structure Module.Agrees (fs : Files) (aliases : PathAliases) (Q : Questions) (key : List String)
    (m : ModuleId) (x y : Module) : Prop where
  path : y.path = x.path
  lead? : ∀ name, Q key (.lead name) → y.lead? name = x.lead? name
  importedName? : ∀ name, Q key (.importedAs name) → y.importedName? name = x.importedName? name
  closed : ∀ name lead, Q key (.lead name) → x.lead? name = some lead → ∀ u ∈ lead.uses m,
    u.1 = m ∧ ∀ key' q, u.2.Asks fs aliases key x.path key' q → Q key' q

/-- Two sessions with modules that agree, each above files of its own with modules that would
agree. -/
structure Agreement (fs fs' : Files) (Q : Questions) (w : World) : Prop where
  isFile : fs'.isFile = fs.isFile
  fileKey : fileKey fs' = fileKey fs
  aliases : w.2.aliases = w.1.aliases
  locations : w.2.locations = w.1.locations
  expanding : w.2.expanding = w.1.expanding
  length : w.2.modules.length = w.1.modules.length
  modules : ∀ key m, (key, m) ∈ w.1.locations → ∃ x y, w.1.modules[m]? = some x ∧
    w.2.modules[m]? = some y ∧ x.Agrees fs w.1.aliases Q key m y
  loadable : ∀ p, w.1.locations.lookup (Session.fileKey fs p) = none →
    Option.Rel (fun a b => ∀ m, (Module.ofProgram m p a).Agrees fs w.1.aliases Q
      (Session.fileKey fs p) m (Module.ofProgram m p b))
      (readProgram fs p).toOption (readProgram fs' p).toOption

/-- A use in a module of a session whose questions are in a set. -/
def Session.Asking (fs : Files) (Q : Questions) (s : Session) (u : ModuleId × Use) : Prop :=
  ∃ key x, (key, u.1) ∈ s.locations ∧ s.modules[u.1]? = some x ∧
    ∀ key' q, u.2.Asks fs s.aliases key x.path key' q → Q key' q

theorem Use.Asks.of_files {fs fs' : Files} (hfile : fs'.isFile = fs.isFile)
    (hkey : fileKey fs' = fileKey fs) {aliases : PathAliases} {key key' : List String} {path : Path}
    {u : Use} {q : Question} (h : u.Asks fs' aliases key path key' q) :
    u.Asks fs aliases key path key' q := by
  cases h with
  | name name => exact .name name
  | imported hp =>
    rw [specified?, hfile] at hp
    rw [hkey]
    exact .imported hp
  | constructed callee => exact .constructed callee

/-- What is asked stays asked when more is loaded. -/
theorem Session.Asking.of_extends {fs : Files} {Q : Questions} {s s' : Session}
    {u : ModuleId × Use} (hext : s'.Extends s) (h : s.Asking fs Q u) : s'.Asking fs Q u := by
  obtain ⟨key, x, hkey, hx, hasks⟩ := h
  refine ⟨key, x, hext.locations.subset hkey, hext.module? hx, ?_⟩
  rw [hext.aliases]
  exact hasks

theorem Module.Agrees.symm {fs fs' : Files} {aliases : PathAliases} {Q : Questions}
    {key : List String} {m : ModuleId} {x y : Module} (hfile : fs'.isFile = fs.isFile)
    (hkey : fileKey fs' = fileKey fs) (h : x.Agrees fs aliases Q key m y) :
    y.Agrees fs' aliases Q key m x where
  path := h.path.symm
  lead? name hq := (h.lead? name hq).symm
  importedName? name hq := (h.importedName? name hq).symm
  closed name lead hq hlead u hu := by
    rw [h.lead? name hq] at hlead
    rw [h.path]
    exact (h.closed name lead hq hlead u hu).imp_right fun hasks key' q hq' =>
      hasks key' q (hq'.of_files hfile hkey)

namespace Agreement

variable {fs fs' : Files} {Q : Questions} {w : World} {m : ModuleId} {key : List String}
  {α β : Type} {x y : Module}

/-! ## Agreement is symmetric -/

theorem symm (h : Agreement fs fs' Q w) : Agreement fs' fs Q w.swap where
  isFile := h.isFile.symm
  fileKey := h.fileKey.symm
  aliases := h.aliases.symm
  locations := h.locations.symm
  expanding := h.expanding.symm
  length := h.length.symm
  modules key m hm := by
    obtain ⟨x, y, hx, hy, hxy⟩ := h.modules key m (h.locations ▸ hm)
    refine ⟨y, x, hy, hx, ?_⟩
    rw [Prod.fst_swap, h.aliases]
    exact hxy.symm h.isFile h.fileKey
  loadable p hp := by
    rw [Prod.fst_swap, h.locations, h.fileKey] at hp
    have hrel := h.loadable p hp
    rw [Prod.fst_swap, h.aliases, h.fileKey]
    generalize (readProgram fs p).toOption = a at hrel
    generalize (readProgram fs' p).toOption = b at hrel
    cases hrel with
    | none => exact .none
    | some hab => exact .some fun m => (hab m).symm h.isFile h.fileKey

theorem asking_symm (h : Agreement fs fs' Q w) {u : ModuleId × Use} (hu : w.1.Asking fs Q u) :
    w.2.Asking fs' Q u := by
  obtain ⟨key, x, hkey, hx, hasks⟩ := hu
  obtain ⟨x', y, hx', hy, hxy⟩ := h.modules key u.1 hkey
  obtain rfl := Option.some.inj (hx.symm.trans hx')
  refine ⟨key, y, h.locations ▸ hkey, hy, fun key' q hq => hasks key' q ?_⟩
  rw [h.aliases, hxy.path] at hq
  exact hq.of_files h.isFile h.fileKey

/-! ## Changes to the sessions -/

theorem enter (h : Agreement fs fs' Q w) (name : ModuleId × String) :
    Agreement fs fs' Q (w.1.enter name, w.2.enter name) :=
  { h with expanding := congrArg (name :: ·) h.expanding }

theorem leave (h : Agreement fs fs' Q w) : Agreement fs fs' Q (w.1.leave, w.2.leave) :=
  { h with expanding := congrArg List.tail h.expanding }

/-- The session with a module more. -/
def added (s : Session) (key : List String) (x : Module) : Session :=
  { s with modules := s.modules ++ [x], locations := s.locations ++ [(key, s.modules.length)] }

theorem extends_added (s : Session) (key : List String) (x : Module) :
    (added s key x).Extends s := ⟨rfl, List.prefix_append .., List.prefix_append ..⟩

/-- A file that is loaded in both sessions leaves them in agreement if its modules agree. -/
theorem add (h : Agreement fs fs' Q w)
    (hxy : x.Agrees fs w.1.aliases Q key w.1.modules.length y) :
    Agreement fs fs' Q (added w.1 key x, added w.2 key y) where
  isFile := h.isFile
  fileKey := h.fileKey
  aliases := h.aliases
  locations := by simp only [added, h.locations, h.length]
  expanding := h.expanding
  length := by simp only [added, List.length_append, h.length, List.length_singleton]
  modules key' m hm := by
    rcases List.mem_append.mp hm with hm | hm
    · obtain ⟨x', y', hx', hy', hagrees⟩ := h.modules key' m hm
      exact ⟨x', y', (extends_added w.1 key x).module? hx', (extends_added w.2 key y).module? hy',
        hagrees⟩
    · obtain ⟨rfl, rfl⟩ := Prod.mk.inj (List.mem_singleton.mp hm)
      refine ⟨x, y, List.getElem?_concat_length, ?_, hxy⟩
      rw [← h.length]
      exact List.getElem?_concat_length
  loadable p hp := by
    refine h.loadable p ?_
    rw [added, List.lookup_append, Option.or_eq_none_iff] at hp
    exact hp.1

/-! ## Simulations -/

variable (fs fs' Q) in
/-- Whether an outcome in the first of two agreeing sessions is an analysis' outcome in the second,
has a property there, and leaves agreeing sessions. -/
def Matched (w : World) (P : Session → α → Prop) (r : α × Session) (b : Analysis α) : Prop :=
  Agreement fs fs' Q w → ∃ s', b.on fs' w.2 = some (r.1, s') ∧ Agreement fs fs' Q (r.2, s') ∧
    r.2.Extends w.1 ∧ P r.2 r.1

variable (fs fs' Q) in
/-- Whether an analysis in the first of two sessions is matched by one in the second. -/
def Simulates (w : World) (P : Session → α → Prop) (a b : Analysis α) : Prop :=
  ∀ x s, a.on fs w.1 = some (x, s) → Matched fs fs' Q w P (x, s) b

section Rules

variable {P : Session → α → Prop} {R : Session → β → Prop} {a b : Analysis α}
  {f g : α → Analysis β}

theorem Simulates.of_agreement (h : Agreement fs fs' Q w → Simulates fs fs' Q w P a b) :
    Simulates fs fs' Q w P a b := fun x s hx hw => h hw x s hx hw

theorem Simulates.pure {x : α} (h : P w.1 x) :
    Simulates fs fs' Q w P (Pure.pure x) (Pure.pure x) := by
  intro x' s hx hw
  obtain ⟨rfl, rfl⟩ := Analysis.on_pure_eq_some.mp hx
  exact ⟨w.2, rfl, hw, .refl _, h⟩

theorem Simulates.bind (ha : Simulates fs fs' Q w P a b)
    (hf : ∀ w₁ : World, w₁.1.Extends w.1 → ∀ x, P w₁.1 x → Simulates fs fs' Q w₁ R (f x) (g x)) :
    Simulates fs fs' Q w R (a >>= f) (b >>= g) := by
  intro z s hz hw
  obtain ⟨x, s₁, hx, hz⟩ := Analysis.on_bind_eq_some.mp hz
  obtain ⟨s₁', hx', hw₁, hext, hP⟩ := ha x s₁ hx hw
  obtain ⟨s', hz', hs, hext', hR⟩ := hf (s₁, s₁') hext x hP z s hz hw₁
  exact ⟨s', (Analysis.on_bind hx').trans hz', hs, hext'.trans hext, hR⟩

/-- Looking at the session and going on. -/
theorem Simulates.get {f g : Session → Analysis β}
    (h : Simulates fs fs' Q w R (f w.1) (g w.2)) :
    Simulates fs fs' Q w R (MonadState.get >>= f) (MonadState.get >>= g) := h

theorem Simulates.modify {f : Session → Session} (hext : (f w.1).Extends w.1)
    (hf : Agreement fs fs' Q w → Agreement fs fs' Q (f w.1, f w.2)) :
    Simulates fs fs' Q w (fun _ _ => True) (modify f : Analysis PUnit) (modify f) := by
  intro x s hx hw
  obtain ⟨-, rfl⟩ := Prod.mk.inj (Option.some.inj hx)
  exact ⟨f w.2, rfl, hf hw, hext, trivial⟩

/-- Results that keep a property for good all have it in the end. -/
theorem Simulates.mapM {R : Session → β → Prop}
    (hR : ∀ {s s' x}, s'.Extends s → R s x → R s' x) {f g : α → Analysis β} {as : List α}
    (h : ∀ w₁ : World, w₁.1.Extends w.1 → ∀ a ∈ as, Simulates fs fs' Q w₁ R (f a) (g a)) :
    Simulates fs fs' Q w (fun s xs => ∀ x ∈ xs, R s x) (as.mapM f) (as.mapM g) := by
  induction as generalizing w with
  | nil => exact .pure nofun
  | cons a as ih =>
    rw [List.mapM_cons, List.mapM_cons]
    refine (h w (.refl _) a List.mem_cons_self).bind fun w₁ hw₁ x hx => ?_
    have htail := ih fun w₂ hw₂ b hb => h w₂ (hw₂.trans hw₁) b (List.mem_cons_of_mem _ hb)
    exact htail.bind fun w₂ hw₂ xs hxs => .pure (List.forall_mem_cons.mpr ⟨hR hw₂ hx, hxs⟩)

end Rules

/-! ## Loading and following names -/

open Session (Asking specifierFile? loadSpecifier lookupWithin lookup expandVariable expand
  expandDeclaration resolveWithin resolve resolveLimit Expander DeclarationReader Resolver foundBy
  expandBy interfaceBy declarationBy resolveBy)

/-- A specifier means the same file in both sessions. -/
theorem specifierFile?_eq (h : Agreement fs fs' Q w) (hkey : (key, m) ∈ w.1.locations)
    (specifier : String) :
    specifierFile? fs' w.2 m specifier = specifierFile? fs w.1 m specifier := by
  obtain ⟨x, y, hx, hy, hxy⟩ := h.modules key m hkey
  rw [specifierFile?, specifierFile?, hx, hy, h.isFile, h.aliases]
  simp only [Option.bind_eq_bind, Option.bind_some, hxy.path]

/-- Adding a file succeeds in both sessions or in neither, and under one number. -/
theorem addFile_eq (h : Agreement fs fs' Q w) {p : Path} {r : Except Error ModuleId}
    {s : Session} (hadd : (Session.addFile p).on fs w.1 = some (r, s)) :
    ∃ r' s', (Session.addFile p).on fs' w.2 = some (r', s') ∧ r'.toOption = r.toOption ∧
      Agreement fs fs' Q (s, s') := by
  have hlocation : w.2.locations.lookup (Session.fileKey fs' p) =
      w.1.locations.lookup (Session.fileKey fs p) := by rw [h.locations, h.fileKey]
  rcases Session.addFile_cases hadd with
    ⟨id, hid, rfl, rfl⟩ | ⟨e, hnew, hread, rfl, rfl⟩ | ⟨program, hnew, hread, rfl, rfl⟩
  · exact ⟨.ok id, w.2, Session.addFile_of_location? (hlocation.trans hid), rfl, h⟩
  · have hrel := h.loadable p hnew
    cases hread' : readProgram fs' p with
    | error e' =>
      exact ⟨.error e', w.2, Session.addFile_of_error (hlocation.trans hnew) hread', rfl, h⟩
    | ok program' =>
      rw [hread, hread'] at hrel
      cases hrel
  · have hrel := h.loadable p hnew
    cases hread' : readProgram fs' p with
    | error e' =>
      rw [hread, hread'] at hrel
      cases hrel
    | ok program' =>
      rw [hread, hread'] at hrel
      cases hrel with
      | some hagrees =>
        have hadded := h.add (hagrees w.1.modules.length)
        rw [added, added, h.length] at hadded
        refine ⟨_, _, Session.addFile_of_readProgram (hlocation.trans hnew) hread', ?_, ?_⟩
        · rw [h.length]
        · rw [h.length, h.fileKey]
          exact hadded

/-- A specifier that is loaded leads to the file it means, and its place is known from then on. -/
theorem simulates_loadSpecifier {specifier : String} (hkey : (key, m) ∈ w.1.locations)
    (hx : w.1.modules[m]? = some x) :
    Simulates fs fs' Q w (fun s r => ∀ id, r = some id → ∃ p,
        specified? fs w.1.aliases x.path specifier = some p ∧
          (Session.fileKey fs p, id) ∈ s.locations)
      (loadSpecifier m specifier) (loadSpecifier m specifier) := by
  intro r s hr hw
  have hext := Session.grows_loadSpecifier m specifier fs w.1 r s hr
  rcases Session.loadSpecifier_cases hr with ⟨hfile, rfl, rfl⟩ | ⟨p, hfile, hr⟩
  · rw [← hw.specifierFile?_eq hkey] at hfile
    exact ⟨w.2, Session.loadSpecifier_of_no_file hfile, hw, hext, nofun⟩
  · have hp : specified? fs w.1.aliases x.path specifier = some p := by
      rw [specifierFile?, hx] at hfile
      exact hfile
    obtain ⟨added, hadd, rfl⟩ : ∃ added, (Session.addFile p).on fs w.1 = some (added, s) ∧
        r = added.toOption := by
      rcases hr with ⟨e, hadd, rfl⟩ | ⟨id, hadd, rfl⟩
      · exact ⟨_, hadd, rfl⟩
      · exact ⟨_, hadd, rfl⟩
    obtain ⟨added', s', hadd', hsame, hs⟩ := hw.addFile_eq hadd
    have hload := Session.loadSpecifier_of_addFile ((hw.specifierFile?_eq hkey _).trans hfile) hadd'
    rw [hsame] at hload
    refine ⟨s', hload, hs, hext, fun id hid => ⟨p, hp, ?_⟩⟩
    obtain rfl : added = .ok id := by
      cases added with
      | error e => exact absurd hid (by simp [Except.toOption])
      | ok id' => exact congrArg Except.ok (Option.some.inj hid)
    obtain ⟨before, after, hlocations, -⟩ :=
      List.lookup_eq_some_iff.mp (Session.location?_of_addFile hadd)
    rw [hlocations]
    exact List.mem_append_right _ List.mem_cons_self

variable (fs Q) in
/-- Uses in the modules of a session whose questions are in the set. -/
def Within (s : Session) (us : List (ModuleId × Use)) : Prop := ∀ u ∈ us, s.Asking fs Q u

theorem Within.of_extends {s s' : Session} (hext : s'.Extends s) {us : List (ModuleId × Use)}
    (h : Within fs Q s us) : Within fs Q s' us := fun u hu => (h u hu).of_extends hext

variable (fs Q) in
/-- A type that uses nothing but what is asked. -/
def TypeWithin (s : Session) (t : TypeExpr ModuleId) : Prop := Within fs Q s t.uses

variable (fs Q) in
/-- If there is a type, it uses nothing but what is asked. -/
def NextWithin (s : Session) (r : Option (TypeExpr ModuleId)) : Prop :=
  ∀ t, r = some t → TypeWithin fs Q s t

theorem nextWithin_none {s : Session} : NextWithin fs Q s none :=
  fun _ hnone => absurd hnone (by simp)

theorem nextWithin_some {s : Session} {t : TypeExpr ModuleId} (h : Within fs Q s t.uses) :
    NextWithin fs Q s (some t) := by
  intro t' ht'
  obtain rfl := Option.some.inj ht'
  exact h

variable (fs Q) in
/-- If there is a declaration, it uses nothing but what is asked. -/
def FoundWithin (s : Session) (r : Option (ModuleId × Declaration)) : Prop :=
  ∀ target d, r = some (target, d) → Within fs Q s (d.uses target)

/-- What the uses in an answer come to is asked as well. -/
theorem within_of_agrees (hxy : x.Agrees fs w.1.aliases Q key m y) (hkey : (key, m) ∈ w.1.locations)
    (hx : w.1.modules[m]? = some x) {name : String} {lead : Session.Lead}
    (hq : Q key (.lead name)) (hlead : x.lead? name = some lead) :
    Within fs Q w.1 (lead.uses m) := by
  rintro ⟨a, u⟩ hu
  obtain ⟨rfl, hasks⟩ := hxy.closed name lead hq hlead (a, u) hu
  exact ⟨key, x, hkey, hx, hasks⟩

/-- **A name leads to the same declaration, and what that uses is asked as well.** -/
theorem simulates_lookupWithin (k : Nat) {name : String} (hkey : (key, m) ∈ w.1.locations)
    (hq : Q key (.lead name)) :
    Simulates fs fs' Q w (FoundWithin fs Q) (lookupWithin k m name)
      (lookupWithin k m name) := by
  induction k generalizing w m key name with
  | zero => exact .pure nofun
  | succ k ih =>
    rw [lookupWithin]
    refine .of_agreement fun hw => .get ?_
    obtain ⟨x, y, hx, hy, hxy⟩ := hw.modules key m hkey
    rw [hx, hy]
    dsimp only
    rw [hxy.lead? name hq]
    cases hlead : x.lead? name with
    | none => exact .pure nofun
    | some lead =>
      cases lead with
      | declared d =>
        refine .pure fun target d' hd => ?_
        obtain ⟨rfl, rfl⟩ := Prod.mk.inj (Option.some.inj hd)
        exact within_of_agrees hxy hkey hx hq hlead
      | renamed other =>
        obtain ⟨-, hasks⟩ := hxy.closed name _ hq hlead (m, .name other) List.mem_cons_self
        exact ih hkey (hasks key _ (.name other))
      | imported specifier rest =>
        obtain ⟨-, hasks⟩ :=
          hxy.closed name _ hq hlead (m, .imported specifier rest) List.mem_cons_self
        refine (simulates_loadSpecifier hkey hx).bind fun w₁ hw₁ file hfile => ?_
        cases file with
        | none => exact .pure nofun
        | some file =>
          obtain ⟨p, hp, hlocation⟩ := hfile file rfl
          exact ih hlocation (hasks _ _ (.imported hp))

theorem simulates_lookup {name : String} (h : w.1.Asking fs Q (m, .name name)) :
    Simulates fs fs' Q w (FoundWithin fs Q) (lookup m name) (lookup m name) := by
  obtain ⟨key, x, hkey, -, hasks⟩ := h
  exact simulates_lookupWithin _ hkey (hasks key _ (.name name))

/-! ## Expanding -/

/-- What a constructor is called by the framework is one of the things asked. -/
theorem canonicalName?_eq (h : Agreement fs fs' Q w) {callee : String}
    (hasking : w.1.Asking fs Q (m, .constructed callee)) :
    w.2.canonicalName? (.reference callee [] m) = w.1.canonicalName? (.reference callee [] m) := by
  obtain ⟨key, x, hkey, hx, hasks⟩ := hasking
  obtain ⟨x', y, hx', hy, hxy⟩ := h.modules key m hkey
  obtain rfl := Option.some.inj (hx.symm.trans hx')
  have hname := hxy.importedName? callee (hasks key _ (.constructed callee))
  simp only [Session.canonicalName?, hx, hy, Option.bind_eq_bind, Option.bind_some]
  rw [show (y.imports.get? callee).bind (·.name) = (x.imports.get? callee).bind (·.name) from hname]

/-- A type that uses nothing but what is asked, if there is one. -/
theorem simulates_expandVariable {d : Declaration} (h : Within fs Q w.1 (d.uses m)) :
    Simulates fs fs' Q w (NextWithin fs Q) (expandVariable m d) (expandVariable m d) := by
  cases d with
  | variableOf declaredType constructed =>
    cases declaredType with
    | some t => exact .pure (nextWithin_some h)
    | none =>
      cases constructed with
      | none => exact .pure nofun
      | some callee =>
        refine .of_agreement fun hw => .get ?_
        rw [hw.canonicalName?_eq (h (m, .constructed callee) List.mem_cons_self)]
        split
        · exact .pure (nextWithin_some fun u hu => h u (List.mem_cons_of_mem _ hu))
        · exact .pure nofun
  | _ => exact .pure nofun

/-- Between entering and leaving an interface its parents are resolved, with the arguments put into
them; what they hand down uses nothing new. -/
theorem simulates_interfaceBy {resolve₀ resolve₁ : TypeExpr ModuleId → Analysis (TypeExpr ModuleId)}
    (hresolve : ∀ w t, TypeWithin fs Q w.1 t →
      Simulates fs fs' Q w (TypeWithin fs Q) (resolve₀ t) (resolve₁ t))
    (name : ModuleId × String) {args : List (TypeExpr ModuleId)}
    {ps : List (TypeParameter ModuleId)} {parents : List (TypeExpr ModuleId)}
    {members : List (Member (TypeExpr ModuleId))}
    (hargs : Within fs Q w.1 (TypeExpr.usesOfList args))
    (hd : Within fs Q w.1 (Declaration.uses m (.interface ps parents members))) :
    Simulates fs fs' Q w (NextWithin fs Q)
      (interfaceBy resolve₀ name (Session.bind ps args) parents members)
      (interfaceBy resolve₁ name (Session.bind ps args) parents members) := by
  obtain ⟨hhead, hmembers⟩ := List.forall_mem_append.mp hd
  obtain ⟨hps, hparents⟩ := List.forall_mem_append.mp hhead
  have hbound : ∀ {s : Session}, s.Extends w.1 → ∀ n t, Session.bind ps args n = some t →
      ∀ u ∈ t.uses, s.Asking fs Q u := fun hs _ _ =>
    Session.uses_bind (Within.of_extends hs hps) (Within.of_extends hs hargs)
  refine (Simulates.modify (Session.extends_enter w.1 name) fun hw => hw.enter name).bind
    fun w₁ hw₁ _ _ => ?_
  refine (Simulates.mapM (R := TypeWithin fs Q) (fun hext ht => ht.of_extends hext)
    fun w₂ hw₂ t ht => hresolve w₂ t ?_).bind fun w₂ hw₂ shapes hshapes => ?_
  · obtain ⟨parent, hparent, rfl⟩ := List.mem_map.mp ht
    have hw₂ := hw₂.trans hw₁
    refine TypeExpr.uses_substitute (hbound hw₂) fun u hu => ?_
    exact (hparents u (TypeExpr.mem_usesOfList.mpr ⟨parent, hparent, hu⟩)).of_extends hw₂
  · refine (Simulates.modify (Session.extends_leave w₂.1) fun hw => hw.leave).bind
      fun w₃ hw₃ _ _ => .pure (nextWithin_some ?_)
    have hsince := hw₃.trans (hw₂.trans hw₁)
    refine TypeExpr.uses_substitute (t := .object _) (hbound hsince) ?_
    exact Session.uses_foldl_addOwnMember (Within.of_extends hsince hmembers)
      (Session.uses_inherited fun t ht => Within.of_extends hw₃ (hshapes t ht))

/-! ## Rounds -/

section Rounds

variable {args : List (TypeExpr ModuleId)} {d : Declaration} {t : TypeExpr ModuleId}
  {declared declared' : DeclarationReader} {resolved resolved' inner inner' : Resolver}
  {step step' : Expander}

variable (fs fs' Q) in
/-- Whether two readings of declarations agree on declarations and arguments that use nothing but
what is asked. -/
def ReadsAlike (declared declared' : DeclarationReader) : Prop :=
  ∀ w m name args d, Within fs Q w.1 (TypeExpr.usesOfList args) → Within fs Q w.1 (d.uses m) →
    Simulates fs fs' Q w (NextWithin fs Q) (declared m name args d) (declared' m name args d)

variable (fs fs' Q) in
/-- Whether two ways of resolving agree on types that use nothing but what is asked. -/
def ResolvesAlike (resolved resolved' : Resolver) : Prop :=
  ∀ k w t, TypeWithin fs Q w.1 t →
    Simulates fs fs' Q w (TypeWithin fs Q) (resolved k t) (resolved' k t)

/-- A name that leads to the same declaration comes to what that comes to. -/
theorem simulates_foundBy
    {next next' : ModuleId → Declaration → Analysis (Option (TypeExpr ModuleId))} {name : String}
    (hlookup : Simulates fs fs' Q w (FoundWithin fs Q) (lookup m name) (lookup m name))
    (hnext : ∀ w₁ : World, w₁.1.Extends w.1 → ∀ target d, Within fs Q w₁.1 (d.uses target) →
      Simulates fs fs' Q w₁ (NextWithin fs Q) (next target d) (next' target d)) :
    Simulates fs fs' Q w (NextWithin fs Q) (foundBy next m name) (foundBy next' m name) := by
  refine hlookup.bind fun w₁ hw₁ found hfound => ?_
  cases found with
  | none => exact .pure nextWithin_none
  | some found => exact hnext w₁ hw₁ found.1 found.2 (hfound _ _ rfl)

/-- A round of expansion asks for the names that the type uses, and for no others. -/
theorem simulates_expandBy (hdeclared : ReadsAlike fs fs' Q declared declared')
    (ht : TypeWithin fs Q w.1 t) :
    Simulates fs fs' Q w (NextWithin fs Q) (expandBy declared t) (expandBy declared' t) := by
  cases t with
  | reference name args m =>
    obtain ⟨hname, hargs⟩ := List.forall_mem_cons.mp ht
    exact simulates_foundBy (simulates_lookup hname) fun w₁ hw₁ target d hd =>
      hdeclared w₁ target name args d (Within.of_extends hw₁ hargs) hd
  | imported specifier qualifier args m =>
    cases qualifier with
    | none => exact .pure nextWithin_none
    | some name =>
      obtain ⟨⟨key, x, hkey, hx, hasks⟩, hargs⟩ := List.forall_mem_cons.mp ht
      refine (simulates_loadSpecifier hkey hx).bind fun w₁ hw₁ file hfile => ?_
      cases file with
      | none => exact .pure nextWithin_none
      | some file =>
        obtain ⟨p, hp, hlocation⟩ := hfile file rfl
        refine simulates_foundBy (simulates_lookupWithin _ hlocation (hasks _ _ (.imported hp)))
          fun w₂ hw₂ target d hd => ?_
        exact hdeclared w₂ target name args d (Within.of_extends (hw₂.trans hw₁) hargs) hd
  | query name m =>
    exact simulates_foundBy (simulates_lookup (ht _ List.mem_cons_self)) fun _ _ _ _ hd =>
      simulates_expandVariable hd
  | _ => exact .pure nextWithin_none

/-- The uses in a declaration are asked before it is read, with those in the arguments. -/
theorem simulates_declarationBy (hresolved : ResolvesAlike fs fs' Q resolved resolved')
    (name : String) (hargs : Within fs Q w.1 (TypeExpr.usesOfList args))
    (hd : Within fs Q w.1 (d.uses m)) :
    Simulates fs fs' Q w (NextWithin fs Q) (declarationBy resolved m name args d)
      (declarationBy resolved' m name args d) := by
  cases d with
  | typeAlias ps body =>
    obtain ⟨hps, hbody⟩ := List.forall_mem_append.mp hd
    exact .pure (nextWithin_some
      (TypeExpr.uses_substitute (fun _ _ => Session.uses_bind hps hargs) hbody))
  | interface ps parents members =>
    refine .of_agreement fun hw => .get ?_
    rw [hw.expanding]
    split
    · exact .pure nextWithin_none
    · exact simulates_interfaceBy (hresolved resolveLimit) (m, name) hargs hd
  | enumeration values =>
    refine .pure (nextWithin_some ?_)
    rw [Session.uses_literals]
    exact List.forall_mem_nil _
  | _ => exact .pure nextWithin_none

/-- What a step leads to uses nothing but what is asked, so the next step may be taken. -/
theorem simulates_resolveBy
    (hstep : ∀ w t, TypeWithin fs Q w.1 t →
      Simulates fs fs' Q w (NextWithin fs Q) (step t) (step' t))
    (hinner : ResolvesAlike fs fs' Q inner inner') (k : Nat) (ht : TypeWithin fs Q w.1 t) :
    Simulates fs fs' Q w (TypeWithin fs Q) (resolveBy step inner k t)
      (resolveBy step' inner' k t) := by
  cases k with
  | zero => exact .pure ht
  | succ k =>
    refine (hstep w t ht).bind fun w₁ hw₁ next hnext => ?_
    cases next with
    | none => exact .pure (Within.of_extends hw₁ ht)
    | some next => exact hinner k w₁ next (hnext next rfl)

end Rounds

/-- Expanding a type, expanding a declaration and resolving are matched, as far as they come to an
end. -/
theorem matched_expansion :
    (∀ t fs s r, expand t fs s = some r → ∀ fs' Q s', TypeWithin fs Q s t →
        Matched fs fs' Q (s, s') (NextWithin fs Q) r (expand t)) ∧
      (∀ m name args d fs s r, expandDeclaration m name args d fs s = some r → ∀ fs' Q s',
        Within fs Q s (TypeExpr.usesOfList args) → Within fs Q s (d.uses m) →
          Matched fs fs' Q (s, s') (NextWithin fs Q) r (expandDeclaration m name args d)) ∧
      ∀ k t fs s r, resolveWithin k t fs s = some r → ∀ fs' Q s', TypeWithin fs Q s t →
        Matched fs fs' Q (s, s') (TypeWithin fs Q) r (resolveWithin k t) := by
  refine Session.expansion_induction ?_ ?_ ?_
  · intro declared ih t fs s r h fs' Q s' ht
    have hdeclared : ReadsAlike fs fs' Q declared expandDeclaration :=
      fun w m name args d hargs hd r s h =>
        ih m name args d fs w.1 (r, s) h fs' Q w.2 hargs hd
    rw [Session.expand_eq t]
    exact simulates_expandBy hdeclared ht r.1 r.2 h
  · intro resolved ih m name args d fs s r h fs' Q s' hargs hd
    have hresolved : ResolvesAlike fs fs' Q resolved resolveWithin :=
      fun k w t ht r s h => ih k t fs w.1 (r, s) h fs' Q w.2 ht
    rw [Session.expandDeclaration_eq m name args d]
    exact simulates_declarationBy hresolved name hargs hd r.1 r.2 h
  · intro step inner ihstep ih k t fs s r h fs' Q s' ht
    have hinner : ResolvesAlike fs fs' Q inner resolveWithin :=
      fun k w t ht r s h => ih k t fs w.1 (r, s) h fs' Q w.2 ht
    rw [Session.resolveWithin_eq k t]
    exact simulates_resolveBy (fun w t ht r s h => ihstep t fs w.1 (r, s) h fs' Q w.2 ht) hinner k
      ht r.1 r.2 h

/-- What is matched in both directions is the same. -/
theorem outcome_eq {P : Session → α → Prop} {P' : Session → α → Prop} {a : Analysis α}
    (h : Agreement fs fs' Q w) (hleft : Simulates fs fs' Q w P a a)
    (hright : Simulates fs' fs Q w.swap P' a a) :
    (a.on fs' w.2).map Prod.fst = (a.on fs w.1).map Prod.fst := by
  cases hl : a.on fs w.1 with
  | some r =>
    obtain ⟨s', hs', -⟩ := hleft r.1 r.2 hl h
    rw [hs']
    rfl
  | none =>
    cases hr : a.on fs' w.2 with
    | none => rfl
    | some r =>
      obtain ⟨s', hs', -⟩ := hright r.1 r.2 hr h.symm
      exact absurd (hl.symm.trans hs') (by simp)

/-- **A type that uses nothing but what is asked is expanded to the same in both sessions, or in
neither.** -/
theorem expand_eq (h : Agreement fs fs' Q w) {t : TypeExpr ModuleId}
    (ht : Within fs Q w.1 t.uses) :
    (expand t fs' w.2).map Prod.fst = (expand t fs w.1).map Prod.fst :=
  outcome_eq (a := expand t) h
    (fun r s hr => matched_expansion.1 t fs w.1 (r, s) hr fs' Q w.2 ht)
    fun r s hr => matched_expansion.1 t fs' w.2 (r, s) hr fs Q w.1 fun u hu =>
      h.asking_symm (ht u hu)

/-- And it is resolved to the same. -/
theorem resolve_eq (h : Agreement fs fs' Q w) {t : TypeExpr ModuleId}
    (ht : Within fs Q w.1 t.uses) :
    ((resolve t).on fs' w.2).map Prod.fst = ((resolve t).on fs w.1).map Prod.fst :=
  outcome_eq h
    (fun r s hr => matched_expansion.2.2 resolveLimit t fs w.1 (r, s) hr fs' Q w.2 ht)
    fun r s hr => matched_expansion.2.2 resolveLimit t fs' w.2 (r, s) hr fs Q w.1 fun u hu =>
      h.asking_symm (ht u hu)

end Agreement
end Routebook
