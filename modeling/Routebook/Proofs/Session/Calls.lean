import Routebook.Proofs.Document.Simulation
import Routebook.Proofs.Session.Declared
import Routebook.Proofs.Session.Numbered
import Routebook.Proofs.Session.Scopes

/-!
# Sessions between calls

A session is asked things from outside, one after another, while the files may change in between.
Whatever is asked, **modules are only appended, every number that a declaration or an answer
mentions is the number of a module, and no interface is left half expanded** (`sound_of_reaches`).
For this a session is compared with itself (`Correspondence.same`): what an analysis comes to
corresponds to itself, so it mentions only modules that are there.
-/

namespace Routebook

open Disk (Files Path)

namespace Session

variable {fs : Files} {s s' : Session}

/-! ## Calls -/

/-- What a session can be asked from outside. -/
inductive Call where
  | addFile (p : Path)
  | appType (m : ModuleId) (name : Option String)
  | expand (t : TypeExpr ModuleId)
  | resolve (t : TypeExpr ModuleId)
  | routeTable (app : TypeExpr ModuleId)
  | entriesOf (table : TypeExpr ModuleId)
  | entries (app : TypeExpr ModuleId)
  | signatures (value : TypeExpr ModuleId)
  | branch (members : List (Member (TypeExpr ModuleId)))
  | parameters (b : Branch)
  | requestBody (b : Branch)
  | responses (bs : List Branch)
  | schema (t : TypeExpr ModuleId)
  | paths (docs : RouteDocs) (group : String) (es : List RouteEntry)

namespace Call

/-- The module numbers that a caller hands in. -/
def mentions : Call → List ModuleId
  | addFile _ => []
  | appType m _ => [m]
  | expand t | resolve t | routeTable t | entriesOf t | entries t | signatures t | schema t =>
    t.scopes
  | branch ms => TypeExpr.scopesOfMembers ms
  | parameters b | requestBody b => b.scopes
  | responses bs => bs.flatMap (·.scopes)
  | paths _ _ es => es.flatMap (·.scopes)

/-- Ask, and list the module numbers in the answer. A schema mentions none, and neither does what is
made of schemas. -/
def answer : Call → Analysis (List ModuleId)
  | addFile p => return (← Session.addFile p).toOption.toList
  | appType m name => return (((← get).appType m name).toOption.map (·.scopes)).getD []
  | expand t => return ((← Session.expand t).map (·.scopes)).getD []
  | resolve t => return (← Session.resolve t).scopes
  | routeTable app => return ((← Session.routeTable app).toOption.join.map (·.scopes)).getD []
  | entriesOf table => return ((← Session.entriesOf table).toOption.getD []).flatMap (·.scopes)
  | entries app => return ((← Session.entries app).toOption.join.getD []).flatMap (·.scopes)
  | signatures value => return (← Session.signatures value).flatMap (·.scopes)
  | branch ms => return (← branchOf ms).scopes
  | parameters b => do
    let _ ← Session.parameters b
    return []
  | requestBody b => do
    let _ ← Session.requestBody b
    return []
  | responses bs => do
    let _ ← Session.responses bs
    return []
  | schema t => do
    let _ ← schemaOf t
    return []
  | paths docs group es => do
    let _ ← pathsOfEntries docs group es
    return []

end Call

/-- The sessions that calls lead to, each with files as they may be then. -/
inductive Reaches (s : Session) : Session → Prop
  | refl : Reaches s s
  | call {s₁ s₂ : Session} {fs : Files} {c : Call} {ids : List ModuleId} : Reaches s s₁ →
    (∀ m ∈ c.mentions, m < s₁.modules.length) → c.answer.on fs s₁ = some (ids, s₂) → Reaches s s₂

/-! ## What calls keep -/

section Answers

open Correspondence

variable {w : World}

/-- Answers that mention modules that are there. -/
def InRange (w : World) (ids : List ModuleId) (_ : List ModuleId) : Prop :=
  ∀ m ∈ ids, m < w.1.modules.length

theorem lt_of_same : ∀ (a b : ModuleId) (o : Option String),
    (same (numbered fs)).ids w a b o → a < w.1.modules.length := fun _ _ _ h => h.2.1

theorem types_same {t : TypeExpr ModuleId} (h : ∀ m ∈ t.scopes, m < s.modules.length) :
    (same (numbered fs)).Types (s, s) t t :=
  TypeExpr.corresponds_self fun m hm _ => ⟨rfl, h m hm, h m hm⟩

theorem members_same {ms : List (Member (TypeExpr ModuleId))}
    (h : ∀ m ∈ TypeExpr.scopesOfMembers ms, m < s.modules.length) :
    (same (numbered fs)).Members (s, s) ms ms :=
  TypeExpr.correspondsMembers_iff.mp
    (TypeExpr.correspondsMembers_self fun m hm _ => ⟨rfl, h m hm, h m hm⟩)

theorem branch_same {b : Branch} (h : ∀ m ∈ b.scopes, m < s.modules.length) :
    b.Corresponds ((same (numbered fs)).ids (s, s)) b := by
  have hoption : ∀ t : Option (TypeExpr ModuleId),
      (∀ m ∈ (t.map (·.scopes)).getD [], m < s.modules.length) →
      Option.Rel ((same (numbered fs)).Types (s, s)) t t := by
    intro t ht
    cases t with
    | none => exact .none
    | some t => exact .some (types_same ht)
  obtain ⟨hinput, houtput⟩ := List.forall_mem_append.mp h
  exact ⟨hoption _ hinput, hoption _ houtput, rfl, rfl⟩

theorem entries_same {es : List RouteEntry}
    (h : ∀ m ∈ es.flatMap (·.scopes), m < s.modules.length) :
    (same (numbered fs)).Entries (s, s) es es := by
  refine List.forall₂_same.mpr fun e he => ⟨rfl, members_same fun m hm => h m ?_⟩
  exact List.mem_flatMap.mpr ⟨e, he, hm⟩

/-- An answer tells something of what an analysis comes to. -/
theorem simulates_told {α : Type} {P : World → α → α → Prop} {a : Analysis α}
    {tell : α → List ModuleId} (ha : (same (numbered fs)).Simulates w P a a)
    (htell : ∀ w₁ x y, P w₁ x y → ∀ m ∈ tell x, m < w₁.1.modules.length) :
    (same (numbered fs)).Simulates w InRange (do return tell (← a)) (do return tell (← a)) :=
  ha.bind fun w₁ _ x y hxy => .pure (htell w₁ x y hxy)

theorem simulates_untold {α : Type} {P : World → α → α → Prop} {a : Analysis α}
    (ha : (same (numbered fs)).Simulates w P a a) :
    (same (numbered fs)).Simulates w InRange (do let _ ← a; return []) (do let _ ← a; return []) :=
  simulates_told ha nofun

theorem lt_of_added {r r' : Except Error ModuleId} {m : ModuleId}
    (h : Option.Rel (fun a b => (same (numbered fs)).ids w a b none) r.toOption r'.toOption)
    (hm : m ∈ r.toOption.toList) : m < w.1.modules.length := by
  generalize r.toOption = o at h hm
  generalize r'.toOption = o' at h
  cases h with
  | none => exact absurd hm List.not_mem_nil
  | some hids =>
    obtain rfl := List.mem_singleton.mp hm
    exact hids.2.1

/-- What a call answers mentions only modules that are there, if what it is given does. -/
theorem simulates_answer (c : Call)
    (hc : ∀ m ∈ c.mentions, m < s.modules.length) :
    (same (numbered fs)).Simulates (s, s) InRange c.answer c.answer := by
  cases c with
  | addFile p => exact simulates_told (adds_same (numbered fs) p) fun _ _ _ hr _ => lt_of_added hr
  | appType m name =>
    have hm := hc m List.mem_cons_self
    refine .of_related fun hw => .get (.pure ?_)
    exact forall_mem_scopes_of_rel lt_of_same
      (corresponds_appType (o := none) hw.sessions ⟨rfl, hm, hm⟩ name)
  | expand t =>
    exact simulates_told (simulates_expand (types_same hc)) fun _ _ _ =>
      forall_mem_scopes_of_rel lt_of_same
  | resolve t =>
    exact simulates_told (simulates_resolve (types_same hc)) fun _ _ _ htu =>
      htu.scopes lt_of_same
  | routeTable app =>
    refine simulates_told (simulates_routeTable (types_same hc)) fun _ r r' hr => ?_
    cases hr with
    | error e => exact nofun
    | ok htable => exact forall_mem_scopes_of_rel lt_of_same htable
  | entriesOf table =>
    refine simulates_told (simulates_entriesOf (types_same hc)) fun _ r r' hr => ?_
    cases hr with
    | error e => exact nofun
    | ok hes => exact RouteEntry.forall_mem_scopes lt_of_same hes
  | entries app =>
    refine simulates_told (simulates_entries (types_same hc)) fun _ r r' hr => ?_
    cases hr with
    | error e => exact nofun
    | ok hes =>
      cases hes with
      | none => exact nofun
      | some hes => exact RouteEntry.forall_mem_scopes lt_of_same hes
  | signatures value =>
    exact simulates_told (simulates_signatures (types_same hc)) fun _ _ _ =>
      Signature.forall_mem_scopes lt_of_same
  | branch ms =>
    exact simulates_told (simulates_branchOf (members_same hc)) fun _ _ _ hb =>
      hb.scopes lt_of_same
  | parameters b => exact simulates_untold (simulates_parameters (branch_same hc))
  | requestBody b => exact simulates_untold (simulates_requestBody (branch_same hc))
  | responses bs =>
    refine simulates_untold (simulates_responses (List.forall₂_same.mpr fun b hb => ?_))
    exact branch_same fun m hm => hc m (List.mem_flatMap.mpr ⟨b, hb, hm⟩)
  | schema t => exact simulates_untold (simulates_schemaOf (types_same hc))
  | paths docs group es =>
    exact simulates_untold (simulates_pathsOfEntries docs group (entries_same hc))

end Answers

/-- What is known of a session between calls. -/
structure Sound (s : Session) : Prop where
  numbers : s.locations.map Prod.snd = List.range s.modules.length
  keys : (s.locations.map Prod.fst).Nodup
  scopes : ∀ (m : ModuleId) (x : Module), s.modules[m]? = some x → ∀ n ∈ x.scopes, n = m
  idle : s.expanding = []

theorem Numbered.sound (h : s.Numbered) (hidle : s.expanding = []) : s.Sound :=
  ⟨h.numbers, h.keys, fun m x hx => (h.modules m x hx).scopes fun _ _ _ hab => hab.1, hidle⟩

/-- What one call keeps: numbers, what is there, and that nothing is half expanded. -/
theorem Numbered.of_answer (h : s.Numbered) (hidle : s.expanding = []) {c : Call}
    (hc : ∀ m ∈ c.mentions, m < s.modules.length) {ids : List ModuleId}
    (hanswer : c.answer.on fs s = some (ids, s')) :
    s'.Numbered ∧ s'.expanding = [] ∧ s'.Extends s ∧ ∀ m ∈ ids, m < s'.modules.length := by
  have hrelated : (Correspondence.same (numbered fs)).Related (s, s) :=
    Correspondence.related_of_idle ⟨rfl, h⟩ hidle hidle
  obtain ⟨ids', s'', -, hlater, hids⟩ := simulates_answer c hc ids s' hanswer hrelated
  exact ⟨hlater.related.sessions.2, hlater.left.trans hidle, hlater.extends_.left, hids⟩

theorem Numbered.of_reaches (h : s.Numbered) (hidle : s.expanding = []) (hreach : s.Reaches s') :
    s'.Numbered ∧ s'.expanding = [] ∧ s'.Extends s := by
  induction hreach with
  | refl => exact ⟨h, hidle, .refl s⟩
  | call _ hc hanswer ih =>
    obtain ⟨hs₁, hidle₁, hext₁⟩ := ih
    obtain ⟨hs₂, hidle₂, hext₂, -⟩ := hs₁.of_answer hidle₁ hc hanswer
    exact ⟨hs₂, hidle₂, hext₂.trans hext₁⟩

/-- **Whatever a new session is asked, and however the files change in between: it is sound, has all
that it had at every earlier time, answers with numbers of modules that it has, and is as it was
after a file could not be added.** -/
theorem sound_of_reaches {aliases : PathAliases} (hs : (Session.start aliases).Reaches s)
    (hs' : s.Reaches s') :
    s'.Sound ∧ s'.Extends s ∧
      (∀ fs (c : Call) ids s'', (∀ m ∈ c.mentions, m < s'.modules.length) →
        c.answer.on fs s' = some (ids, s'') → ∀ m ∈ ids, (s''.modules[m]?).isSome) ∧
      ∀ fs p e s'', (addFile p).on fs s' = some (.error e, s'') → s'' = s' := by
  obtain ⟨hnumbered, hidle, -⟩ := (numbered_start aliases).of_reaches rfl hs
  obtain ⟨hnumbered', hidle', hext⟩ := hnumbered.of_reaches hidle hs'
  refine ⟨hnumbered'.sound hidle', hext, ?_, ?_⟩
  · intro fs c ids s'' hc hanswer m hm
    obtain ⟨-, -, -, hids⟩ := hnumbered'.of_answer hidle' hc hanswer
    rw [List.getElem?_eq_getElem (hids m hm)]
    rfl
  · intro fs p e s'' hadd
    rcases addFile_cases hadd with ⟨id, -, hr, -⟩ | ⟨e', -, -, -, hsame⟩ | ⟨program, -, -, hr, -⟩
    · exact absurd hr (by simp)
    · exact hsame
    · exact absurd hr (by simp)

/-- A file with one alias of another. -/
def aliasFiles : Files := ⟨[], [(["app.ts"], .file "export type AppType = Item\n")]⟩

/-- Whether a source has an alias of the name `Item`. -/
def hasItemAlias (program : Source.Program) : Bool :=
  match (Module.ofProgram 0 ⟨"app.ts"⟩ program).lead? "AppType" with
  | some (.declared (.typeAlias [] (.reference "Item" [] 0))) => true
  | _ => false

theorem exists_program_alias : ∃ program, readProgram aliasFiles ⟨"app.ts"⟩ = .ok program ∧
    (Module.ofProgram 0 ⟨"app.ts"⟩ program).lead? "AppType" =
      some (.declared (.typeAlias [] (.reference "Item" [] 0))) := by
  have hcheck : (readProgram aliasFiles ⟨"app.ts"⟩).toOption.map hasItemAlias = some true := by
    decide +kernel
  obtain ⟨program, hread, halias⟩ := exists_program_of_map hcheck
  refine ⟨program, hread, ?_⟩
  rw [hasItemAlias] at halias
  split at halias
  · assumption
  · cases halias

theorem sound_of_reaches_alias : ∃ s s' : Session,
    (Session.start .empty).Reaches s ∧ s.Reaches s' ∧ s.modules.length = 1 ∧ s'.Sound ∧
      s'.Extends s := by
  obtain ⟨program, hread, hlead⟩ := exists_program_alias
  -- The file is added first, and then the alias is expanded.
  have hadd := addFile_of_readProgram (s := Session.start .empty) rfl hread
  generalize hs : { Session.start .empty with
    modules := (Session.start .empty).modules ++
      [Module.ofProgram (Session.start .empty).modules.length ⟨"app.ts"⟩ program]
    locations := (Session.start .empty).locations ++
      [(fileKey aliasFiles ⟨"app.ts"⟩, (Session.start .empty).modules.length)] } = s at hadd
  have hmodules : s.modules = [Module.ofProgram 0 ⟨"app.ts"⟩ program] := by
    rw [← hs]
    rfl
  have hx : s.modules[0]? = some (Module.ofProgram 0 ⟨"app.ts"⟩ program) := by
    rw [hmodules]
    rfl
  have hlookup : (lookup 0 "AppType").on aliasFiles s =
      some (some (0, .typeAlias [] (.reference "Item" [] 0)), s) := by
    refine (lookupWithin_of_module? hx _).trans ?_
    rw [hlead]
    rfl
  have hexpand : expand (.reference "AppType" [] 0) aliasFiles s =
      some (some (.reference "Item" [] 0), s) := expand_of_alias (.reference hlookup)
  have hlength : s.modules.length = 1 := by rw [hmodules]; rfl
  have hfirst : (Session.start .empty).Reaches s :=
    .call (c := .addFile ⟨"app.ts"⟩) .refl (fun _ hm => absurd hm List.not_mem_nil)
      (Analysis.on_bind hadd)
  have hsecond : s.Reaches s := by
    refine .call (c := .expand (.reference "AppType" [] 0)) .refl ?_ (Analysis.on_bind hexpand)
    rw [hlength]
    exact List.forall_mem_singleton.mpr Nat.one_pos
  obtain ⟨hsound, hext, -⟩ := sound_of_reaches hfirst hsecond
  exact ⟨s, s, hfirst, hsecond, hlength, hsound, hext⟩

end Session

end Routebook
