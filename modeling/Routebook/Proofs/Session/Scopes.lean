import Routebook.Proofs.Route.Simulation

/-!
# The modules that are mentioned

`scopes` lists the module numbers in a type, and in what is made of types. What corresponds to
itself, by a correspondence that only relates numbers of some kind to themselves, mentions only
numbers of that kind (`Corresponds.scopes`), and the other way round (`corresponds_self`). So **a
simulation of a session by itself says which numbers can come out of an analysis.**
-/

namespace Routebook

mutual
/-- The scopes in a type. -/
def TypeExpr.scopes {σ : Type} : TypeExpr σ → List σ
  | .array t => t.scopes
  | .tuple ts | .union ts | .intersection ts => scopesOfList ts
  | .object ms => scopesOfMembers ms
  | .reference _ ts a | .imported _ _ ts a => a :: scopesOfList ts
  | .query _ a => [a]
  | .keyword _ | .literal _ | .other _ => []
def TypeExpr.scopesOfList {σ : Type} : List (TypeExpr σ) → List σ
  | [] => []
  | t :: ts => t.scopes ++ scopesOfList ts
def TypeExpr.scopesOfMembers {σ : Type} : List (Member (TypeExpr σ)) → List σ
  | [] => []
  | ⟨_, _, t⟩ :: ms => t.scopes ++ scopesOfMembers ms
end

def TypeParameter.scopes (ps : List (TypeParameter ModuleId)) : List ModuleId :=
  ps.flatMap fun p => (p.default.map (·.scopes)).getD []

def Declaration.scopes : Declaration → List ModuleId
  | .typeAlias ps body => TypeParameter.scopes ps ++ body.scopes
  | .interface ps parents members =>
    TypeParameter.scopes ps ++ TypeExpr.scopesOfList parents ++ TypeExpr.scopesOfMembers members
  | .variableOf declaredType _ => (declaredType.map (·.scopes)).getD []
  | .classType | .enumeration _ => []

/-- The module numbers inside the declarations of a module. -/
def Module.scopes (x : Module) : List ModuleId := x.declarations.flatMap (·.2.scopes)

def RouteEntry.scopes (e : RouteEntry) : List ModuleId := TypeExpr.scopesOfMembers e.routes

def Branch.scopes (b : Branch) : List ModuleId :=
  (b.input.map (·.scopes)).getD [] ++ (b.output.map (·.scopes)).getD []

def Signature.scopes (g : Signature) : List ModuleId := g.branches.flatMap (·.scopes)

/-! ## Scopes of what corresponds -/

section OfCorresponds

variable {σ τ : Type} {P : ScopeRelation σ τ} {q : σ → Prop}

mutual
/-- A type that corresponds to anything mentions only what the relation relates. -/
theorem TypeExpr.Corresponds.scopes (hq : ∀ a b o, P a b o → q a) {t : TypeExpr σ}
    {u : TypeExpr τ} : t.Corresponds P u → ∀ a ∈ t.scopes, q a
  | .keyword _ | .literal _ | .other _ => nofun
  | .array ht => ht.scopes hq
  | .tuple hts | .union hts | .intersection hts => hts.scopes hq
  | .object hms => hms.scopes hq
  | .reference _ hts hab | .imported _ _ hts hab =>
    List.forall_mem_cons.mpr ⟨hq _ _ _ hab, hts.scopes hq⟩
  | .query _ hab => List.forall_mem_singleton.mpr (hq _ _ _ hab)
theorem TypeExpr.CorrespondsList.scopes (hq : ∀ a b o, P a b o → q a) {ts : List (TypeExpr σ)}
    {us : List (TypeExpr τ)} : CorrespondsList P ts us → ∀ a ∈ scopesOfList ts, q a
  | .nil => nofun
  | .cons ht hts => List.forall_mem_append.mpr ⟨ht.scopes hq, hts.scopes hq⟩
theorem TypeExpr.CorrespondsMembers.scopes (hq : ∀ a b o, P a b o → q a)
    {ms : List (Member (TypeExpr σ))} {ns : List (Member (TypeExpr τ))} :
    CorrespondsMembers P ms ns → ∀ a ∈ scopesOfMembers ms, q a
  | .nil => nofun
  | .cons _ _ ht hms => List.forall_mem_append.mpr ⟨ht.scopes hq, hms.scopes hq⟩
end

end OfCorresponds

section OfCorresponds

variable {P : ScopeRelation ModuleId ModuleId} {q : ModuleId → Prop}

/-- Where there is no type, nothing is mentioned. -/
theorem forall_mem_scopes_of_rel (hq : ∀ a b o, P a b o → q a)
    {t u : Option (TypeExpr ModuleId)} (h : Option.Rel (TypeExpr.Corresponds P) t u) :
    ∀ a ∈ (t.map (·.scopes)).getD [], q a := by
  cases h with
  | none => exact nofun
  | some h => exact h.scopes hq

theorem TypeParameter.forall_mem_scopes (hq : ∀ a b o, P a b o → q a)
    {ps qs : List (TypeParameter ModuleId)}
    (h : List.Forall₂ (TypeParameter.Corresponds P) ps qs) :
    ∀ a ∈ TypeParameter.scopes ps, q a := by
  induction h with
  | nil => exact nofun
  | cons hp _ ih =>
    exact List.forall_mem_append.mpr ⟨forall_mem_scopes_of_rel hq hp.default, ih⟩

/-- A declaration mentions what its parameters, its types and its members do. -/
theorem Declaration.Corresponds.scopes (hq : ∀ a b o, P a b o → q a) {d e : Declaration}
    (h : d.Corresponds P e) : ∀ a ∈ d.scopes, q a := by
  cases h with
  | typeAlias hps ht =>
    exact List.forall_mem_append.mpr ⟨TypeParameter.forall_mem_scopes hq hps, ht.scopes hq⟩
  | interface hps hts hms =>
    have hts := (TypeExpr.correspondsList_iff.mpr hts).scopes hq
    have hms := (TypeExpr.correspondsMembers_iff.mpr hms).scopes hq
    have hhead := List.forall_mem_append.mpr ⟨TypeParameter.forall_mem_scopes hq hps, hts⟩
    exact List.forall_mem_append.mpr ⟨hhead, hms⟩
  | classType => exact nofun
  | enumeration values => exact nofun
  | variableOf constructed ht => exact forall_mem_scopes_of_rel hq ht

/-- **A module that corresponds to anything mentions only what the relation relates.** -/
theorem Module.Corresponds.scopes (hq : ∀ a b o, P a b o → q a) {x y : Module}
    (h : x.Corresponds P y) : ∀ a ∈ x.scopes, q a := by
  have hall : ∀ {ds es : Table Declaration}, ds.Corresponds (Declaration.Corresponds P) es →
      ∀ a ∈ ds.flatMap (·.2.scopes), q a := by
    intro ds es h
    induction h with
    | nil => exact nofun
    | cons hde _ ih => exact List.forall_mem_append.mpr ⟨hde.2.scopes hq, ih⟩
  exact hall h.declarations

/-- Entries mention what the members of their tables do. -/
theorem RouteEntry.forall_mem_scopes (hq : ∀ a b o, P a b o → q a) {es es' : List RouteEntry}
    (h : List.Forall₂ (RouteEntry.Corresponds P) es es') : ∀ a ∈ es.flatMap (·.scopes), q a := by
  induction h with
  | nil => exact nofun
  | cons he _ ih =>
    have hroutes := (TypeExpr.correspondsMembers_iff.mpr he.routes).scopes hq
    exact List.forall_mem_append.mpr ⟨hroutes, ih⟩

theorem Branch.Corresponds.scopes (hq : ∀ a b o, P a b o → q a) {x y : Branch}
    (h : x.Corresponds P y) : ∀ a ∈ x.scopes, q a :=
  List.forall_mem_append.mpr
    ⟨forall_mem_scopes_of_rel hq h.input, forall_mem_scopes_of_rel hq h.output⟩

/-- Signatures mention what goes in and comes out of their branches. -/
theorem Signature.forall_mem_scopes (hq : ∀ a b o, P a b o → q a) {gs gs' : List Signature}
    (h : List.Forall₂ (Signature.Corresponds P) gs gs') : ∀ a ∈ gs.flatMap (·.scopes), q a := by
  have hbranches : ∀ {bs bs' : List Branch}, List.Forall₂ (Branch.Corresponds P) bs bs' →
      ∀ a ∈ bs.flatMap (·.scopes), q a := by
    intro bs bs' h
    induction h with
    | nil => exact nofun
    | cons hb _ ih => exact List.forall_mem_append.mpr ⟨hb.scopes hq, ih⟩
  induction h with
  | nil => exact nofun
  | cons hg _ ih => exact List.forall_mem_append.mpr ⟨hbranches hg.branches, ih⟩

end OfCorresponds

/-! ## What corresponds to itself -/

section Self

variable {σ : Type} {P : ScopeRelation σ σ}

mutual
/-- A type corresponds to itself if all that it mentions is related to itself. -/
theorem TypeExpr.corresponds_self :
    ∀ {t : TypeExpr σ}, (∀ a ∈ t.scopes, ∀ o, P a a o) → t.Corresponds P t
  | .keyword k, _ => .keyword k
  | .literal l, _ => .literal l
  | .array _, h => .array (corresponds_self h)
  | .tuple _, h => .tuple (correspondsList_self h)
  | .object _, h => .object (correspondsMembers_self h)
  | .union _, h => .union (correspondsList_self h)
  | .intersection _, h => .intersection (correspondsList_self h)
  | .reference name _ _, h =>
    .reference name (correspondsList_self (List.forall_mem_cons.mp h).2)
      ((List.forall_mem_cons.mp h).1 none)
  | .imported specifier qualifier _ _, h =>
    .imported specifier qualifier (correspondsList_self (List.forall_mem_cons.mp h).2)
      ((List.forall_mem_cons.mp h).1 (some specifier))
  | .query name _, h => .query name (List.forall_mem_singleton.mp h none)
  | .other source, _ => .other source
theorem TypeExpr.correspondsList_self :
    ∀ {ts : List (TypeExpr σ)}, (∀ a ∈ scopesOfList ts, ∀ o, P a a o) → CorrespondsList P ts ts
  | [], _ => .nil
  | _ :: _, h =>
    .cons (corresponds_self (List.forall_mem_append.mp h).1)
      (correspondsList_self (List.forall_mem_append.mp h).2)
theorem TypeExpr.correspondsMembers_self : ∀ {ms : List (Member (TypeExpr σ))},
    (∀ a ∈ scopesOfMembers ms, ∀ o, P a a o) → CorrespondsMembers P ms ms
  | [], _ => .nil
  | ⟨name, optional, _⟩ :: _, h =>
    .cons name optional (corresponds_self (List.forall_mem_append.mp h).1)
      (correspondsMembers_self (List.forall_mem_append.mp h).2)
end

end Self

end Routebook
