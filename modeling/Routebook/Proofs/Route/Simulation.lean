import Routebook.Proofs.Session.Simulation
import Routebook.Route.Entry
import Routebook.Route.Signature

/-!
# Routes in corresponding sessions

Walking corresponding types finds the same routes at the same paths, each with corresponding types
(`simulates_entries`), and what a route answers is found in the same branches
(`simulates_branchOf`). **A type that is no application's is refused with the same error**, because
errors show types by their text.
-/

namespace Routebook

open Disk (Files)

/-! ## What corresponding routes are -/

/-- Outcomes that are the same error or related values. -/
inductive Except.Corresponds {ε α β : Type} (R : α → β → Prop) : Except ε α → Except ε β → Prop
  | ok {a b} : R a b → Corresponds R (.ok a) (.ok b)
  | error (e : ε) : Corresponds R (.error e) (.error e)

inductive RouteNode.Corresponds (P : ScopeRelation ModuleId ModuleId) : RouteNode → RouteNode → Prop
  | table {ms ns} : List.Forall₂ (Member.Corresponds (TypeExpr.Corresponds P)) ms ns →
    Corresponds P (.table ms) (.table ns)
  | joined {ts us} : List.Forall₂ (TypeExpr.Corresponds P) ts us →
    Corresponds P (.joined ts) (.joined us)
  | mounted {t u t' u'} : t.Corresponds P u → t'.Corresponds P u' →
    Corresponds P (.mounted t t') (.mounted u u')
  | blank : Corresponds P .blank .blank
  | other {t u} : t.Corresponds P u → Corresponds P (.other t) (.other u)

structure RouteEntry.Corresponds (P : ScopeRelation ModuleId ModuleId) (x y : RouteEntry) :
    Prop where
  mount : y.mount = x.mount
  routes : List.Forall₂ (Member.Corresponds (TypeExpr.Corresponds P)) x.routes y.routes

structure Branch.Corresponds (P : ScopeRelation ModuleId ModuleId) (x y : Branch) : Prop where
  input : Option.Rel (TypeExpr.Corresponds P) x.input y.input
  output : Option.Rel (TypeExpr.Corresponds P) x.output y.output
  format : y.format = x.format
  status : y.status = x.status

structure Signature.Corresponds (P : ScopeRelation ModuleId ModuleId) (x y : Signature) : Prop where
  method : y.method = x.method
  branches : List.Forall₂ (Branch.Corresponds P) x.branches y.branches

theorem Member.corresponds_find? {R : TypeExpr ModuleId → TypeExpr ModuleId → Prop}
    {ms ns : List (Member (TypeExpr ModuleId))} (h : List.Forall₂ (Member.Corresponds R) ms ns)
    (name : String) :
    Option.Rel (Member.Corresponds R) (Member.find? ms name) (Member.find? ns name) := by
  induction h with
  | nil => exact .none
  | @cons x y ms ns hxy _ ih =>
    rw [Member.find?, Member.find?, List.find?_cons, List.find?_cons, hxy.name]
    split
    · exact .some hxy
    · exact ih

namespace Correspondence

open Session

variable {fs : Files} {C : Correspondence fs} {w : World}

/-! ## Later sessions -/

variable (C) in
def Entries (w : World) : List RouteEntry → List RouteEntry → Prop :=
  List.Forall₂ (RouteEntry.Corresponds (C.ids w))

theorem kept_entries : Kept C.Entries := by
  refine Kept.list (Q := fun w => RouteEntry.Corresponds (C.ids w)) fun w w₁ x y hw h => ?_
  exact ⟨h.mount, kept_members hw h.routes⟩

theorem kept_branch : Kept fun w => Branch.Corresponds (C.ids w) := fun _ _ _ _ hw h =>
  ⟨kept_types.option hw h.input, kept_types.option hw h.output, h.format, h.status⟩

/-! ## Route tables -/

/-- The framework's own types one after another: a mounted table, which needs two arguments, and the
blank one. -/
theorem frameworkNode?_eq (s : Session) (t : TypeExpr ModuleId) : s.frameworkNode? t =
    if s.canonicalName? t = some "MergeSchemaPath" then
      match t.args with
      | table :: path :: _ => some (.mounted table path)
      | _ => none
    else if s.canonicalName? t = some "BlankSchema" then some .blank
    else none := by
  rw [frameworkNode?]
  split
  · next hname hargs => rw [if_pos hname, hargs]
  · next hname => rw [if_neg (by simp [hname]), if_pos hname]
  · next hblank hmounted =>
    rw [if_neg hblank]
    split
    · next hname =>
      split
      · next hargs => exact absurd hargs (hmounted _ _ _ hname)
      · rfl
    · rfl

theorem corresponds_frameworkNode? (hw : C.sessions w) {t u : TypeExpr ModuleId}
    (h : C.Types w t u) :
    Option.Rel (RouteNode.Corresponds (C.ids w)) (w.1.frameworkNode? t) (w.2.frameworkNode? u) := by
  rw [frameworkNode?_eq, frameworkNode?_eq, canonicalName?_eq hw h]
  split
  · have hargs := h.args
    generalize t.args = ts at hargs
    generalize u.args = us at hargs
    cases hargs with
    | nil => exact .none
    | cons ht hrest =>
      cases hrest with
      | nil => exact .none
      | cons ht' _ => exact .some (.mounted ht ht')
  split
  · exact .some .blank
  · exact .none

theorem simulates_routeNode {t u : TypeExpr ModuleId} (h : C.Types w t u) :
    C.Simulates w (fun w => RouteNode.Corresponds (C.ids w)) (routeNode t) (routeNode u) := by
  rw [routeNode, routeNode]
  refine .of_related fun hw => .get ?_
  have hnode := corresponds_frameworkNode? hw.sessions h
  generalize w.1.frameworkNode? t = x at hnode
  generalize w.2.frameworkNode? u = y at hnode
  cases hnode with
  | some hxy => exact .pure hxy
  | none =>
    refine (simulates_resolve h).bind fun w₁ hw₁ shape shape' hshape => .get ?_
    have hnode := corresponds_frameworkNode? hw₁.related.sessions hshape
    generalize w₁.1.frameworkNode? shape = x at hnode
    generalize w₁.2.frameworkNode? shape' = y at hnode
    cases hnode with
    | some hxy => exact .pure hxy
    | none =>
      cases hshape with
      | object hms => exact .pure (.table (TypeExpr.correspondsMembers_iff.mp hms))
      | union hts => exact .pure (.joined (TypeExpr.correspondsList_iff.mp hts))
      | intersection hts => exact .pure (.joined (TypeExpr.correspondsList_iff.mp hts))
      | keyword k => exact .pure (.other (.keyword k))
      | literal l => exact .pure (.other (.literal l))
      | array ht => exact .pure (.other (.array ht))
      | tuple hts => exact .pure (.other (.tuple hts))
      | reference name hts hid => exact .pure (.other (.reference name hts hid))
      | imported specifier qualifier hts hid =>
        exact .pure (.other (.imported specifier qualifier hts hid))
      | query name hid => exact .pure (.other (.query name hid))
      | other source => exact .pure (.other (.other source))

/-! ## Entries -/

theorem simulates_walk (mount : String) {x y : RouteNode}
    (h : x.Corresponds (C.ids w) y) :
    C.Simulates w C.Entries (walk mount x) (walk mount y) := by
  intro r s hr
  refine walk.partial_correctness (fun mount x fs s r => ∀ (C : Correspondence fs) y s',
    x.Corresponds (C.ids (s, s')) y → C.Matched (s, s') C.Entries r (walk mount y))
    ?_ mount x fs w.1 (r, s) hr C y w.2 h
  intro walk₀ ih mount x fs s ⟨r, s₁⟩ h C y s' hxy
  have hwalk : ∀ mount w x y, RouteNode.Corresponds (C.ids w) x y →
      C.Simulates w C.Entries (walk₀ mount x) (walk mount y) :=
    fun mount w x y hxy r s h => ih mount x fs w.1 (r, s) h C y w.2 hxy
  rw [show (walk mount y : Analysis _) = _ from funext₂ (walk.eq_def mount y)]
  refine (?_ : C.Simulates (s, s') C.Entries _ _) r s₁ h
  cases hxy with
  | table hms => exact .pure (.cons ⟨rfl, hms⟩ .nil)
  | joined hts =>
    have hparts := Simulates.mapM (C := C) kept_entries (hts.imp fun t u htu w₁ hw₁ =>
      (simulates_routeNode (kept_types hw₁.extends_ htu)).bind fun w₂ _ x y hxy =>
        hwalk mount w₂ x y hxy)
    exact hparts.bind fun w₁ _ es es' hes => .pure (List.rel_flatten hes)
  | mounted htable hpath =>
    refine (simulates_resolve hpath).bind fun w₁ hw₁ path path' hpath => ?_
    rw [hpath.string?]
    cases path.string? with
    | none => exact .pure .nil
    | some p =>
      have hnode := simulates_routeNode (kept_types hw₁.extends_ htable)
      exact hnode.bind fun w₂ _ x y hxy => hwalk _ w₂ x y hxy
  | blank => exact .pure .nil
  | other ht => exact .pure .nil

theorem simulates_entriesOf {t u : TypeExpr ModuleId} (h : C.Types w t u) :
    C.Simulates w (fun w => Except.Corresponds (C.Entries w)) (entriesOf t) (entriesOf u) := by
  rw [entriesOf, entriesOf]
  refine (simulates_routeNode h).bind fun w₁ hw₁ x y hxy => ?_
  have hwalk := simulates_walk "" hxy
  cases hxy with
  | other ht =>
    dsimp only
    rw [ht.kind, ht.text]
    exact .pure (.error _)
  | _ => exact hwalk.bind fun w₂ _ es es' hes => .pure (.ok hes)

/-- The route table among the arguments of an application's type, which has a text for errors. -/
def tableAmong (text : String) (args : List (TypeExpr ModuleId)) :
    Analysis (Except Error (Option (TypeExpr ModuleId))) := do
  match args with
  | _ :: table :: _ =>
    match ← routeNode table with
    | .blank | .table [] => return .ok none
    | _ => return .ok (some table)
  | args => return .error (.tooFewArguments text args.length)

theorem simulates_tableAmong (text : String) {ts us : List (TypeExpr ModuleId)}
    (h : List.Forall₂ (C.Types w) ts us) :
    C.Simulates w (fun w => Except.Corresponds (Option.Rel (C.Types w))) (tableAmong text ts)
      (tableAmong text us) := by
  rw [tableAmong.eq_def, tableAmong.eq_def]
  cases h with
  | nil => exact .pure (.error _)
  | cons _ hrest =>
    cases hrest with
    | nil => exact .pure (.error _)
    | cons htable _ =>
      refine (simulates_routeNode htable).bind fun w₂ hw₂ x y hxy => ?_
      have htable := kept_types hw₂.extends_ htable
      cases hxy with
      | blank => exact .pure (.ok .none)
      | table hms =>
        cases hms with
        | nil => exact .pure (.ok .none)
        | cons _ _ => exact .pure (.ok (.some htable))
      | _ => exact .pure (.ok (.some htable))

theorem simulates_routeTable {t u : TypeExpr ModuleId} (h : C.Types w t u) :
    C.Simulates w (fun w => Except.Corresponds (Option.Rel (C.Types w))) (routeTable t)
      (routeTable u) := by
  rw [routeTable, routeTable]
  refine (simulates_resolve h).bind fun w₁ hw₁ app app' happ => ?_
  have hkind := happ.kind
  have htext := happ.text
  have hargs := simulates_tableAmong app.text happ.args
  cases happ with
  | query name hid => exact .pure (.ok .none)
  | reference name hts hid =>
    dsimp only
    rw [htext]
    exact hargs
  | imported specifier qualifier hts hid =>
    dsimp only
    rw [htext]
    exact hargs
  | _ =>
    dsimp only
    rw [hkind, htext]
    exact .pure (.error _)

/-- **Corresponding types have the same routes, or are refused for the same reason.** -/
theorem simulates_entries {t u : TypeExpr ModuleId} (h : C.Types w t u) :
    C.Simulates w (fun w => Except.Corresponds (Option.Rel (C.Entries w))) (entries t)
      (entries u) := by
  rw [entries, entries]
  refine (simulates_routeTable h).bind fun w₁ _ table table' htable => ?_
  cases htable with
  | error e => exact .pure (.error e)
  | ok htable =>
    cases htable with
    | none => exact .pure (.ok .none)
    | some htable =>
      refine (simulates_entriesOf htable).bind fun w₂ _ es es' hes => ?_
      cases hes with
      | error e => exact .pure (.error e)
      | ok hes => exact .pure (.ok (.some hes))

/-! ## What a route answers -/

theorem simulates_objectMembers {t u : TypeExpr ModuleId} (h : C.Types w t u) :
    C.Simulates w C.Members (objectMembers t) (objectMembers u) := by
  intro r s hr
  refine objectMembers.partial_correctness (fun t fs s r => ∀ (C : Correspondence fs) u s',
    C.Types (s, s') t u → C.Matched (s, s') C.Members r (objectMembers u))
    ?_ t fs w.1 (r, s) hr C u w.2 h
  intro objectMembers₀ ih t fs s ⟨r, s₁⟩ h C u s' htu
  have hinner : ∀ w t u, C.Types w t u →
      C.Simulates w C.Members (objectMembers₀ t) (objectMembers u) :=
    fun w t u htu r s h => ih t fs w.1 (r, s) h C u w.2 htu
  rw [show (objectMembers u : Analysis _) = _ from funext₂ (objectMembers.eq_def u)]
  refine (?_ : C.Simulates (s, s') C.Members _ _) r s₁ h
  refine (simulates_resolve htu).bind fun w₁ _ shape shape' hshape => ?_
  cases hshape with
  | object hms => exact .pure (TypeExpr.correspondsMembers_iff.mp hms)
  | intersection hts =>
    have hparts := Simulates.mapM (C := C) kept_members
      ((TypeExpr.correspondsList_iff.mp hts).imp fun t u htu w₂ hw₂ =>
        hinner w₂ t u (kept_types hw₂.extends_ htu))
    exact hparts.bind fun w₂ _ mss mss' hmss => .pure (List.rel_flatten hmss)
  | _ => exact .pure .nil

theorem simulates_branchObjects {t u : TypeExpr ModuleId} (h : C.Types w t u) :
    C.Simulates w (fun w => List.Forall₂ (C.Members w)) (branchObjects t) (branchObjects u) := by
  intro r s hr
  refine branchObjects.partial_correctness (fun t fs s r => ∀ (C : Correspondence fs) u s',
    C.Types (s, s') t u →
    C.Matched (s, s') (fun w => List.Forall₂ (C.Members w)) r (branchObjects u))
    ?_ t fs w.1 (r, s) hr C u w.2 h
  intro branchObjects₀ ih t fs s ⟨r, s₁⟩ h C u s' htu
  have hinner : ∀ w t u, C.Types w t u → C.Simulates w (fun w => List.Forall₂ (C.Members w))
      (branchObjects₀ t) (branchObjects u) :=
    fun w t u htu r s h => ih t fs w.1 (r, s) h C u w.2 htu
  rw [show (branchObjects u : Analysis _) = _ from funext₂ (branchObjects.eq_def u)]
  refine (?_ : C.Simulates (s, s') (fun w => List.Forall₂ (C.Members w)) _ _) r s₁ h
  refine (simulates_resolve htu).bind fun w₁ hw₁ shape shape' hshape => ?_
  cases hshape with
  | union hts =>
    have hparts := Simulates.mapM (C := C) kept_members.list
      ((TypeExpr.correspondsList_iff.mp hts).imp fun t u htu w₂ hw₂ =>
        hinner w₂ t u (kept_types hw₂.extends_ htu))
    exact hparts.bind fun w₂ _ mss mss' hmss => .pure (List.rel_flatten hmss)
  | object hms => exact .pure (.cons (TypeExpr.correspondsMembers_iff.mp hms) .nil)
  | intersection hts =>
    have hmembers := simulates_objectMembers (kept_types hw₁.extends_ htu)
    exact hmembers.bind fun w₂ _ ms ms' hms => .pure (.cons hms .nil)
  | _ => exact .pure .nil

theorem simulates_resolvedMember {ms ns : List (Member (TypeExpr ModuleId))}
    (h : C.Members w ms ns) (name : String) :
    C.Simulates w (fun w => Option.Rel (C.Types w)) (resolvedMember ms name)
      (resolvedMember ns name) := by
  rw [resolvedMember, resolvedMember]
  have hmember := Member.corresponds_find? h name
  generalize Member.find? ms name = x at hmember
  generalize Member.find? ns name = y at hmember
  cases hmember with
  | none => exact .pure .none
  | some hxy => exact (simulates_resolve hxy.type).bind fun w₁ _ t u htu => .pure (.some htu)

theorem simulates_branchOf {ms ns : List (Member (TypeExpr ModuleId))} (h : C.Members w ms ns) :
    C.Simulates w (fun w => Branch.Corresponds (C.ids w)) (branchOf ms) (branchOf ns) := by
  have htype : ∀ w, C.Members w ms ns → ∀ name, Option.Rel (C.Types w)
      ((Member.find? ms name).map (·.type)) ((Member.find? ns name).map (·.type)) := by
    intro w h name
    have hmember := Member.corresponds_find? h name
    generalize Member.find? ms name = x at hmember
    generalize Member.find? ns name = y at hmember
    cases hmember with
    | none => exact .none
    | some hxy => exact .some hxy.type
  -- What is asked of a type here is the same for corresponding types.
  have hsame : ∀ {α : Type} {w : World} {f : TypeExpr ModuleId → Option α}
      {t u : Option (TypeExpr ModuleId)}, (∀ t u, C.Types w t u → f u = f t) →
      Option.Rel (C.Types w) t u → u.bind f = t.bind f := by
    intro α w f t u hf htu
    cases htu with
    | none => rfl
    | some htu => exact hf _ _ htu
  rw [branchOf, branchOf]
  refine (simulates_resolvedMember h "outputFormat").bind fun w₁ hw₁ format format' hformat => ?_
  have h₁ := kept_members hw₁.extends_ h
  refine (simulates_resolvedMember h₁ "status").bind fun w₂ hw₂ status status' hstatus => ?_
  have h₂ := kept_members hw₂.extends_ h₁
  exact .pure ⟨htype w₂ h₂ "input", htype w₂ h₂ "output",
    hsame (fun _ _ h => h.string?) hformat, hsame (fun _ _ h => h.status?) hstatus⟩

theorem corresponds_addBranches {P : ScopeRelation ModuleId ModuleId} (m : Method)
    {bs bs' : List Branch} {gs gs' : List Signature}
    (hbs : List.Forall₂ (Branch.Corresponds P) bs bs')
    (h : List.Forall₂ (Signature.Corresponds P) gs gs') :
    List.Forall₂ (Signature.Corresponds P) (addBranches m bs gs) (addBranches m bs' gs') := by
  induction h with
  | nil => exact .cons ⟨rfl, hbs⟩ .nil
  | @cons g g' gs gs' hg hgs ih =>
    rw [addBranches, addBranches, hg.method]
    split
    · exact .cons ⟨rfl, List.rel_append hg.branches hbs⟩ hgs
    · exact .cons hg ih

theorem kept_signature : Kept fun w => Signature.Corresponds (C.ids w) :=
  fun _ _ _ _ hw h => ⟨h.method, kept_branch.list hw h.branches⟩

theorem simulates_signatures {t u : TypeExpr ModuleId} (h : C.Types w t u) :
    C.Simulates w (fun w => List.Forall₂ (Signature.Corresponds (C.ids w))) (signatures t)
      (signatures u) := by
  rw [signatures, signatures]
  refine (simulates_objectMembers h).bind fun w₁ _ ms ns hms => ?_
  refine .foldlM (hms.imp fun x y hxy w₂ hw₂ gs gs' hgs => ?_) .nil
  rw [hxy.name]
  split
  · exact .pure hgs
  · have htype := kept_types hw₂.extends_ hxy.type
    refine (simulates_branchObjects htype).bind fun w₃ hw₃ objects objects' hobjects => ?_
    have hbranches := Simulates.mapM (C := C) kept_branch
      (hobjects.imp fun ms ns hms w₄ hw₄ => simulates_branchOf (kept_members hw₄.extends_ hms))
    refine hbranches.bind fun w₄ hw₄ bs bs' hbs => .pure ?_
    exact corresponds_addBranches _ hbs (kept_signature.list (hw₃.trans hw₄).extends_ hgs)

end Correspondence

end Routebook
