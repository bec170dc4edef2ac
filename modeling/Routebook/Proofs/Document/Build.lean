import Routebook.Document.Build
import Routebook.Proofs.Document.Schema

/-!
# What is built of an application

Every operation that is built has a summary and at least one response, **no response is described
by a type**, and no path is without an operation (`generated_pathsOfEntries`,
`generated_pathsOfRoutes`). This holds whatever the session makes of the types, because a summary
and a response are supplied where the types say nothing.
-/

namespace Routebook

open Disk (Files)

/-! ## Descriptions -/

/-- The text in which a written type can be recognised. -/
abbrev typeMark : List Char := "import(".toList

/-- What a reader of the finished document can rely on of an operation. -/
structure Operation.WellFormed (o : Operation) : Prop where
  summary : o.summary.isSome
  responses : o.responses ≠ []
  descriptions : ∀ r ∈ o.responses, ¬ typeMark <:+: r.2.description.toList

structure PathItem.WellFormed (item : PathItem) : Prop where
  occupied : ∃ m, (item.operation? m).isSome
  operations : ∀ m o, item.operation? m = some o → o.WellFormed

/-- Paths as they are built: without repetition and with well-formed operations. -/
def Paths.Generated (ps : Paths) : Prop := Table.Keyed (fun item => item.Keyed ∧ item.WellFormed) ps

theorem not_typeMark_statusDescription (status : String) :
    ¬ typeMark <:+: (statusDescription status).toList := by
  have hphrases : ∀ e ∈ reasonPhrases, ¬ typeMark <:+: e.2.toList := by decide +kernel
  rw [statusDescription]
  split
  · decide +kernel
  · cases hphrase : (statusNumber? status).bind fun n => List.lookup n reasonPhrases with
    | none => decide +kernel
    | some phrase =>
      obtain ⟨n, -, hn⟩ := Option.bind_eq_some_iff.mp hphrase
      obtain ⟨before, after, hlist, -⟩ := List.lookup_eq_some_iff.mp hn
      exact hphrases (n, phrase) (hlist ▸ List.mem_append_right _ List.mem_cons_self)

/-! ## Operations -/

/-- Responses without repetition that are described by what their status is called. -/
def DescribedByStatus (rs : Table Response) : Prop :=
  Table.Keyed (fun r => r.Keyed ∧ ¬ typeMark <:+: r.description.toList) rs

theorem describedByStatus_defaultResponses : DescribedByStatus defaultResponses := by
  refine ⟨by decide, fun e he => ?_⟩
  rw [List.mem_singleton.mp he]
  exact ⟨nofun, by decide +kernel⟩

/-- An operation as it is built: without repetition and well-formed. -/
def Operation.Generated (o : Operation) : Prop := o.Keyed ∧ o.WellFormed

/-- Documentation gives an operation a summary, and neither parameters nor a body. -/
theorem documentedOperation_eq (docs : RouteDocs) (group : String) (m : Method)
    (written path : String) : ∃ summary description tags deprecated,
      documentedOperation docs group m written path =
        ⟨some summary, description, tags, deprecated, [], none, []⟩ := by
  rw [documentedOperation]
  split <;> exact ⟨_, _, _, _, rfl⟩

/-! ## Putting operations in -/

theorem PathItem.generated_put {item : PathItem} {m : Method} {o : Operation}
    (hitem : ∀ n p, item.operation? n = some p → p.Generated) (ho : o.Generated) :
    (item.put m o).Keyed ∧ (item.put m o).WellFormed := by
  have hall : ∀ n p, (item.put m o).operation? n = some p → p.Generated := by
    intro n p hp
    rw [PathItem.operation?_put] at hp
    split at hp
    · obtain rfl := Option.some.inj hp
      exact ho
    · exact hitem n p hp
  refine ⟨fun n p hp => (hall n p hp).1, ⟨m, ?_⟩, fun n p hp => (hall n p hp).2⟩
  rw [PathItem.operation?_put, if_pos rfl]
  rfl

theorem Paths.generated_put {ps : Paths} (hps : ps.Generated) {path : String} {m : Method}
    {o : Operation} (ho : o.Generated) : (ps.put path m o).Generated := by
  refine hps.update ?_ fun item hitem => ?_
  · exact PathItem.generated_put (fun n p hp => absurd hp (by simp [PathItem.empty])) ho
  · exact PathItem.generated_put (fun n p hp => ⟨hitem.1 n p hp, hitem.2.operations n p hp⟩) ho

/-! ## Routes found by searching -/

theorem generated_pathsOfRoutes (docs : RouteDocs) (group : String) (routes : List FoundRoute) :
    (pathsOfRoutes docs group routes).Generated := by
  suffices h : ∀ ps : Paths, ps.Generated → (routes.foldl (fun ps r =>
      let path := Path.normalize r.path
      let o := documentedOperation docs group r.method r.path path
      ps.put path r.method { o with responses := defaultResponses }) ps).Generated from h [] .nil
  induction routes with
  | nil => exact fun _ h => h
  | cons r routes ih =>
    refine fun ps hps => ih _ (Paths.generated_put hps ?_)
    obtain ⟨summary, description, tags, deprecated, ho⟩ :=
      documentedOperation_eq docs group r.method r.path (Path.normalize r.path)
    rw [ho]
    have hrs := describedByStatus_defaultResponses
    refine ⟨⟨nofun, nofun, hrs.imp fun _ => And.left⟩, rfl, ?_, fun e he => (hrs.values e he).2⟩
    exact List.cons_ne_nil _ _

/-! ## Responses -/

/-- Groups of responses whose schemas are without repetition. -/
def ResponseGroups.Keyed (gs : ResponseGroups) : Prop :=
  Table.Keyed (Table.Keyed fun ss : List Schema => ∀ s ∈ ss, s.Keyed) gs

theorem ResponseGroups.keyed_addStatus {gs : ResponseGroups} (h : gs.Keyed) (status : String) :
    (gs.addStatus status).Keyed := Table.Keyed.update h .nil fun _ hc => hc

theorem ResponseGroups.keyed_addSchema {gs : ResponseGroups} (h : gs.Keyed)
    (status mediaType : String) {s : Schema} (hs : s.Keyed) :
    (gs.addSchema status mediaType s).Keyed := by
  have hcontent : ∀ c : Table (List Schema), Table.Keyed (fun ss => ∀ s ∈ ss, s.Keyed) c →
      Table.Keyed (fun ss => ∀ s ∈ ss, s.Keyed)
        (Table.update mediaType (fun ss => ss.getD [] ++ [s]) c) := by
    intro c hc
    refine hc.update ?_ fun ss hss => ?_
    · exact List.forall_mem_singleton.mpr hs
    · exact List.forall_mem_append.mpr ⟨hss, List.forall_mem_singleton.mpr hs⟩
  exact Table.Keyed.update h (hcontent [] .nil) hcontent

theorem Schema.keyed_choice {ss : List Schema} (h : ∀ s ∈ ss, s.Keyed) : (choice ss).Keyed := by
  match ss, h with
  | [], h | _ :: _ :: _, h => exact Schema.keyed_ofAlternatives h
  | [s], h => exact h s List.mem_cons_self

/-- Each group becomes a response that is described by its status. -/
theorem describedByStatus_map_responseOf {gs : ResponseGroups} (h : gs.Keyed) :
    DescribedByStatus (gs.map fun e => (e.1, responseOf e.1 e.2)) := by
  refine Table.Keyed.map h fun status content hcontent =>
    ⟨fun c hc => ?_, not_typeMark_statusDescription status⟩
  have hkeyed : Table.Keyed Schema.Keyed (content.map fun e => (e.1, choice e.2)) :=
    Table.Keyed.map hcontent fun _ _ => Schema.keyed_choice
  simp only [responseOf] at hc
  split at hc
  · exact absurd hc (by simp)
  · obtain rfl := Option.some.inj hc
    exact hkeyed

namespace Session

variable {fs : Files} {s s' : Session}

theorem keyed_addBranch {gs gs' : ResponseGroups} {b : Branch} (hgs : gs.Keyed)
    (h : (addBranch gs b).on fs s = some (gs', s')) : gs'.Keyed := by
  rw [addBranch] at h
  cases ho : b.output with
  | none =>
    simp only [ho] at h
    obtain ⟨rfl, rfl⟩ := Analysis.on_pure_eq_some.mp h
    exact ResponseGroups.keyed_addStatus hgs _
  | some output =>
    simp only [ho] at h
    obtain ⟨resolved, s₁, -, h⟩ := Analysis.on_bind_eq_some.mp h
    split at h
    · obtain ⟨rfl, rfl⟩ := Analysis.on_pure_eq_some.mp h
      exact ResponseGroups.keyed_addStatus hgs _
    · obtain ⟨schema, s₂, hschema, h⟩ := Analysis.on_bind_eq_some.mp h
      obtain ⟨rfl, rfl⟩ := Analysis.on_pure_eq_some.mp h
      exact ResponseGroups.keyed_addSchema (ResponseGroups.keyed_addStatus hgs _) _ _
        (keyed_of_schemaOf hschema)

theorem describedByStatus_responses {branches : List Branch} {rs : Table Response}
    (h : (responses branches).on fs s = some (rs, s')) : DescribedByStatus rs := by
  obtain ⟨groups, s₁, hgroups, h⟩ := Analysis.on_bind_eq_some.mp h
  obtain ⟨rfl, rfl⟩ := Analysis.on_pure_eq_some.mp h
  refine describedByStatus_map_responseOf (Analysis.on_foldlM_invariant
    (P := ResponseGroups.Keyed) (fun gs b _ s gs' s' hgs hb => keyed_addBranch hgs hb) .nil hgroups)

/-! ## Inputs -/

theorem keyed_of_parameters {b : Branch} {ps : List Parameter}
    (h : (parameters b).on fs s = some (ps, s')) : ∀ p ∈ ps, p.schema.Keyed := by
  obtain ⟨input, s₁, -, h⟩ := Analysis.on_bind_eq_some.mp h
  cases input with
  | none =>
    obtain ⟨rfl, rfl⟩ := Analysis.on_pure_eq_some.mp h
    exact fun _ hp => absurd hp List.not_mem_nil
  | some input =>
    obtain ⟨pss, s₂, hpss, h⟩ := Analysis.on_bind_eq_some.mp h
    obtain ⟨rfl, rfl⟩ := Analysis.on_pure_eq_some.mp h
    refine List.forall_mem_flatten.mpr (Analysis.on_mapM_forall
      (P := fun ps => ∀ p ∈ ps, p.schema.Keyed) (fun source _ s ps s' hps => ?_) hpss)
    obtain ⟨fields, s₁, -, hps⟩ := Analysis.on_bind_eq_some.mp hps
    cases fields with
    | none =>
      obtain ⟨rfl, rfl⟩ := Analysis.on_pure_eq_some.mp hps
      exact fun _ hp => absurd hp List.not_mem_nil
    | some fields =>
      refine Analysis.on_mapM_forall (P := fun p => p.schema.Keyed) (fun f _ s p s' hp => ?_) hps
      obtain ⟨schema, s₁, hschema, hp⟩ := Analysis.on_bind_eq_some.mp hp
      obtain ⟨rfl, rfl⟩ := Analysis.on_pure_eq_some.mp hp
      exact keyed_of_schemaOf hschema

theorem keyed_of_requestBody {b : Branch} {body : Option RequestBody}
    (h : (requestBody b).on fs s = some (body, s')) :
    ∀ r, body = some r → Content.Keyed r.content := by
  obtain ⟨input, s₁, -, h⟩ := Analysis.on_bind_eq_some.mp h
  cases input with
  | none =>
    obtain ⟨rfl, rfl⟩ := Analysis.on_pure_eq_some.mp h
    exact nofun
  | some input =>
    obtain ⟨content, s₂, hcontent, h⟩ := Analysis.on_bind_eq_some.mp h
    obtain ⟨rfl, rfl⟩ := Analysis.on_pure_eq_some.mp h
    have hsources := Analysis.on_filterMapM_sublist Prod.snd Prod.fst
      (P := fun e => e.2.Keyed) (fun source _ s e s' he => ?_) hcontent
    · intro r hr
      split at hr
      · exact absurd hr (by simp)
      · obtain rfl := Option.some.inj hr
        -- The media types are those of the sources, which are looked at once each.
        exact ⟨(by decide : (bodySources.map Prod.snd).Nodup).sublist hsources.2, hsources.1⟩
    · obtain ⟨name, mediaType⟩ := source
      cases hm : Member.find? input name with
      | none =>
        simp only [hm] at he
        exact absurd (Analysis.on_pure_eq_some.mp he) (by simp)
      | some m =>
        simp only [hm] at he
        obtain ⟨schema, s₁, hschema, he⟩ := Analysis.on_bind_eq_some.mp he
        obtain ⟨hentry, rfl⟩ := Analysis.on_pure_eq_some.mp he
        obtain rfl := Option.some.inj hentry
        exact ⟨keyed_of_schemaOf hschema, rfl⟩

/-! ## Routes of a type -/

/-- An operation that lacks nothing but its responses is generated once it has them. -/
theorem generated_of_responses {base o : Operation} {branches : List Branch}
    (hsummary : base.summary.isSome) (hparameters : ∀ p ∈ base.parameters, p.schema.Keyed)
    (hbody : ∀ r, base.requestBody = some r → Content.Keyed r.content)
    (h : (do
      let rs ← responses branches
      return { base with responses := if rs.isEmpty then defaultResponses else rs }
        : Analysis Operation).on fs s = some (o, s')) : o.Generated := by
  obtain ⟨rs, s₁, hrs, h⟩ := Analysis.on_bind_eq_some.mp h
  obtain ⟨rfl, rfl⟩ := Analysis.on_pure_eq_some.mp h
  -- A signature without branches has no responses of its own, and gets the default.
  have hresponses : DescribedByStatus (if rs.isEmpty then defaultResponses else rs) ∧
      (if rs.isEmpty then defaultResponses else rs) ≠ [] := by
    cases rs with
    | nil => exact ⟨describedByStatus_defaultResponses, List.cons_ne_nil _ _⟩
    | cons r rs => exact ⟨describedByStatus_responses hrs, List.cons_ne_nil _ _⟩
  obtain ⟨hdescribed, hne⟩ := hresponses
  exact ⟨⟨hparameters, hbody, hdescribed.imp fun _ => And.left⟩, hsummary, hne,
    fun r hr => (hdescribed.values r hr).2⟩

theorem generated_operation {docs : RouteDocs} {group written path : String} {g : Signature}
    {o : Operation} (h : (operation docs group written path g).on fs s = some (o, s')) :
    o.Generated := by
  obtain ⟨summary, description, tags, deprecated, hbase⟩ :=
    documentedOperation_eq docs group g.method written path
  rw [operation, hbase] at h
  cases hfirst : g.branches.head? with
  | none =>
    simp only [hfirst] at h
    obtain ⟨base, s₁, hb, h⟩ := Analysis.on_bind_eq_some.mp h
    obtain ⟨rfl, rfl⟩ := Analysis.on_pure_eq_some.mp hb
    exact generated_of_responses rfl (fun _ hp => absurd hp List.not_mem_nil)
      (fun _ hr => absurd hr (by simp)) h
  | some first =>
    simp only [hfirst] at h
    obtain ⟨ps, s₁, hps, h⟩ := Analysis.on_bind_eq_some.mp h
    obtain ⟨body, s₂, hbody, h⟩ := Analysis.on_bind_eq_some.mp h
    obtain ⟨base, s₃, hb, h⟩ := Analysis.on_bind_eq_some.mp h
    obtain ⟨rfl, rfl⟩ := Analysis.on_pure_eq_some.mp hb
    exact generated_of_responses rfl (keyed_of_parameters hps) (keyed_of_requestBody hbody) h

theorem generated_addRoute {docs : RouteDocs} {group mount : String} {ps ps' : Paths}
    {route : Member (TypeExpr ModuleId)} (hps : ps.Generated)
    (h : (addRoute docs group mount ps route).on fs s = some (ps', s')) : ps'.Generated := by
  obtain ⟨found, s₁, -, h⟩ := Analysis.on_bind_eq_some.mp h
  refine Analysis.on_foldlM_invariant (P := Paths.Generated) (fun ps g _ s ps' s' hps hg => ?_)
    hps h
  obtain ⟨o, s₁, ho, hg⟩ := Analysis.on_bind_eq_some.mp hg
  obtain ⟨rfl, rfl⟩ := Analysis.on_pure_eq_some.mp hg
  exact Paths.generated_put hps (generated_operation ho)

/-- **Whatever the types of an application's routes are, its paths are without repetition and its
operations are well-formed.** -/
theorem generated_pathsOfEntries {docs : RouteDocs} {group : String} {es : List RouteEntry}
    {ps : Paths} (h : (pathsOfEntries docs group es).on fs s = some (ps, s')) : ps.Generated := by
  refine Analysis.on_foldlM_invariant (P := Paths.Generated) (fun ps e _ s ps' s' hps he => ?_)
    .nil h
  exact Analysis.on_foldlM_invariant (P := Paths.Generated)
    (fun ps r _ s ps' s' hps hr => generated_addRoute hps hr) hps he

end Session

end Routebook
