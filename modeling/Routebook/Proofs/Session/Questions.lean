import Routebook.Proofs.Session.Scopes

/-!
# What modules are asked

A session never looks at a module as a whole. It asks a module where a name leads, or what its
imports call a name (`Question`), and it asks because the name is used somewhere (`Use`): in a type,
in what another name led to. So **what comes of a type is settled by the answers to a set of
questions** that begins with the uses of the type and is closed under the uses in every answer
(`Asked`). Modules are told apart by the keys of their files here, because a module that is yet to
be loaded has no number.
-/

namespace Routebook

open Disk (Files Path)

/-! ## Uses -/

/-- A use of a name in a module: by itself, in a file that a specifier means, or as what a variable
is constructed from. -/
inductive Use where
  | name (name : String)
  | imported (specifier name : String)
  | constructed (callee : String)

section TypeExpr

variable {σ : Type}

mutual
/-- The names that a type uses, with their scopes. -/
def TypeExpr.uses : TypeExpr σ → List (σ × Use)
  | .array t => t.uses
  | .tuple ts | .union ts | .intersection ts | .imported _ none ts _ => usesOfList ts
  | .object ms => usesOfMembers ms
  | .reference n ts a => (a, .name n) :: usesOfList ts
  | .imported specifier (some q) ts a => (a, .imported specifier q) :: usesOfList ts
  | .query n a => [(a, .name n)]
  | .keyword _ | .literal _ | .other _ => []
def TypeExpr.usesOfList : List (TypeExpr σ) → List (σ × Use)
  | [] => []
  | t :: ts => t.uses ++ usesOfList ts
def TypeExpr.usesOfMembers : List (Member (TypeExpr σ)) → List (σ × Use)
  | [] => []
  | ⟨_, _, t⟩ :: ms => t.uses ++ usesOfMembers ms
end

mutual
theorem TypeExpr.fst_mem_scopes {u : σ × Use} :
    ∀ {t : TypeExpr σ}, u ∈ t.uses → u.1 ∈ t.scopes
  | .array t, h => fst_mem_scopes (t := t) h
  | .tuple ts, h | .union ts, h | .intersection ts, h =>
    fst_mem_scopesOfList (show u ∈ usesOfList ts from h)
  | .object ms, h => fst_mem_scopesOfMembers (show u ∈ usesOfMembers ms from h)
  | .imported _ none _ _, h => List.mem_cons_of_mem _ (fst_mem_scopesOfList h)
  | .reference _ _ _, h | .imported _ (some _) _ _, h =>
    match List.mem_cons.mp h with
    | .inl h => h ▸ List.mem_cons_self
    | .inr h => List.mem_cons_of_mem _ (fst_mem_scopesOfList h)
  | .query _ _, h => List.mem_singleton.mp h ▸ List.mem_cons_self
theorem TypeExpr.fst_mem_scopesOfList {u : σ × Use} :
    ∀ {ts : List (TypeExpr σ)}, u ∈ usesOfList ts → u.1 ∈ scopesOfList ts
  | _ :: _, h =>
    List.mem_append.mpr ((List.mem_append.mp h).imp fst_mem_scopes fst_mem_scopesOfList)
theorem TypeExpr.fst_mem_scopesOfMembers {u : σ × Use} :
    ∀ {ms : List (Member (TypeExpr σ))}, u ∈ usesOfMembers ms → u.1 ∈ scopesOfMembers ms
  | ⟨_, _, _⟩ :: _, h =>
    List.mem_append.mpr ((List.mem_append.mp h).imp fst_mem_scopes fst_mem_scopesOfMembers)
end

theorem TypeExpr.mem_usesOfList {u : σ × Use} {ts : List (TypeExpr σ)} :
    u ∈ usesOfList ts ↔ ∃ t ∈ ts, u ∈ t.uses := by
  induction ts with
  | nil => simp [usesOfList]
  | cons t ts ih => simp [usesOfList, ih]

theorem TypeExpr.mem_usesOfMembers {u : σ × Use} {ms : List (Member (TypeExpr σ))} :
    u ∈ usesOfMembers ms ↔ ∃ x ∈ ms, u ∈ x.type.uses := by
  induction ms with
  | nil => simp [usesOfMembers]
  | cons x ms ih => simp [usesOfMembers, ih]

section Substitution

variable {b : TypeExpr.Bindings σ} {K : σ × Use → Prop}

mutual
/-- What is substituted into a type brings its own uses and no others. -/
theorem TypeExpr.uses_substitute (hb : ∀ n t, b n = some t → ∀ u ∈ t.uses, K u) :
    ∀ {t : TypeExpr σ}, (∀ u ∈ t.uses, K u) → ∀ u ∈ (t.substitute b).uses, K u
  | .keyword _, h | .literal _, h | .query .., h | .other _, h => h
  | .array t, h => uses_substitute hb (t := t) h
  | .tuple ts, h | .union ts, h | .intersection ts, h | .imported _ none ts _, h =>
    uses_substituteList hb (show ∀ u ∈ usesOfList ts, K u from h)
  | .object ms, h => uses_substituteMembers hb (show ∀ u ∈ usesOfMembers ms, K u from h)
  | .imported _ (some _) _ _, h =>
    List.forall_mem_cons.mpr ((List.forall_mem_cons.mp h).imp_right (uses_substituteList hb))
  | .reference _ (t :: ts) _, h =>
    List.forall_mem_cons.mpr ((List.forall_mem_cons.mp h).imp_right fun hargs =>
      uses_substituteList hb (show ∀ u ∈ usesOfList (t :: ts), K u from hargs))
  | .reference n [] a, h => by
    rw [substitute]
    cases hn : b n with
    | none => exact h
    | some t => exact hb n t hn
theorem TypeExpr.uses_substituteList (hb : ∀ n t, b n = some t → ∀ u ∈ t.uses, K u) :
    ∀ {ts : List (TypeExpr σ)}, (∀ u ∈ usesOfList ts, K u) →
      ∀ u ∈ usesOfList (substituteList b ts), K u
  | [], h => h
  | _ :: _, h => List.forall_mem_append.mpr
    ((List.forall_mem_append.mp h).imp (uses_substitute hb) (uses_substituteList hb))
theorem TypeExpr.uses_substituteMembers (hb : ∀ n t, b n = some t → ∀ u ∈ t.uses, K u) :
    ∀ {ms : List (Member (TypeExpr σ))}, (∀ u ∈ usesOfMembers ms, K u) →
      ∀ u ∈ usesOfMembers (substituteMembers b ms), K u
  | [], h => h
  | ⟨_, _, _⟩ :: _, h => List.forall_mem_append.mpr
    ((List.forall_mem_append.mp h).imp (uses_substitute hb) (uses_substituteMembers hb))
end

end Substitution

end TypeExpr

/-! ## Uses of declarations -/

def TypeParameter.uses (ps : List (TypeParameter ModuleId)) : List (ModuleId × Use) :=
  ps.flatMap fun p => (p.default.map (·.uses)).getD []

/-- The uses in a declaration of a module. A constructed variable may turn out to be an application,
whose type has names as well. -/
def Declaration.uses (m : ModuleId) : Declaration → List (ModuleId × Use)
  | .typeAlias ps body => TypeParameter.uses ps ++ body.uses
  | .interface ps parents members =>
    TypeParameter.uses ps ++ TypeExpr.usesOfList parents ++ TypeExpr.usesOfMembers members
  | .variableOf (some t) _ => t.uses
  | .variableOf none (some callee) =>
    (m, .constructed callee) :: (Session.placeholderApp m).uses
  | .variableOf none none | .classType | .enumeration _ => []

def Session.Lead.uses (m : ModuleId) : Session.Lead → List (ModuleId × Use)
  | .declared d => d.uses m
  | .renamed name => [(m, .name name)]
  | .imported specifier name => [(m, .imported specifier name)]

/-- What the parameters of a declaration stand for has the uses of the arguments and defaults. -/
theorem Session.uses_bind {K : ModuleId × Use → Prop} {ps : List (TypeParameter ModuleId)}
    {args : List (TypeExpr ModuleId)} (hps : ∀ u ∈ TypeParameter.uses ps, K u)
    (hargs : ∀ u ∈ TypeExpr.usesOfList args, K u) {n : String} {t : TypeExpr ModuleId}
    (h : Session.bind ps args n = some t) : ∀ u ∈ t.uses, K u := by
  induction ps generalizing args with
  | nil => exact absurd h (by simp [Session.bind])
  | cons p ps ih =>
    obtain ⟨name, default⟩ := p
    obtain ⟨hdefault, hps⟩ := List.forall_mem_append.mp hps
    rw [Session.bind, Option.or_eq_some_iff] at h
    rcases h with h | ⟨-, h⟩
    · refine ih hps (fun u hu => hargs u ?_) h
      cases args with
      | nil => exact hu
      | cons a as => exact List.mem_append_right _ hu
    · obtain ⟨-, rfl⟩ : n = name ∧ args.head?.getD (default.getD (.keyword .unknown)) = t := by
        simpa using h
      cases args with
      | cons a as => exact (List.forall_mem_append.mp hargs).1
      | nil =>
        cases default with
        | none => exact List.forall_mem_nil K
        | some t => exact hdefault

theorem Session.mem_or_mem_of_mem_foldl_addOwnMember {x : Member (TypeExpr ModuleId)}
    {own ms : List (Member (TypeExpr ModuleId))} (h : x ∈ own.foldl Session.addOwnMember ms) :
    x ∈ own ∨ x ∈ ms := by
  induction own generalizing ms with
  | nil => exact .inr h
  | cons o own ih =>
    rcases ih h with h | h
    · exact .inl (List.mem_cons_of_mem _ h)
    · rcases List.mem_append.mp h with h | h
      · exact .inr (List.mem_filter.mp h).1
      · exact .inl (List.mem_singleton.mp h ▸ List.mem_cons_self)

theorem Session.exists_object_of_mem_inherited {x : Member (TypeExpr ModuleId)}
    {shapes : List (TypeExpr ModuleId)} (h : x ∈ Session.inherited shapes) :
    ∃ ms, .object ms ∈ shapes ∧ x ∈ ms := by
  obtain ⟨t, ht, hx⟩ := List.mem_flatMap.mp h
  cases t with
  | object ms => exact ⟨ms, ht, hx⟩
  | _ => exact absurd hx List.not_mem_nil

theorem Session.uses_foldl_addOwnMember {K : ModuleId × Use → Prop}
    {own ms : List (Member (TypeExpr ModuleId))} (hown : ∀ u ∈ TypeExpr.usesOfMembers own, K u)
    (hms : ∀ u ∈ TypeExpr.usesOfMembers ms, K u) :
    ∀ u ∈ TypeExpr.usesOfMembers (own.foldl Session.addOwnMember ms), K u := by
  intro u hu
  obtain ⟨x, hx, hu⟩ := TypeExpr.mem_usesOfMembers.mp hu
  rcases Session.mem_or_mem_of_mem_foldl_addOwnMember hx with hx | hx
  · exact hown u (TypeExpr.mem_usesOfMembers.mpr ⟨x, hx, hu⟩)
  · exact hms u (TypeExpr.mem_usesOfMembers.mpr ⟨x, hx, hu⟩)

theorem Session.uses_inherited {K : ModuleId × Use → Prop} {shapes : List (TypeExpr ModuleId)}
    (h : ∀ t ∈ shapes, ∀ u ∈ t.uses, K u) :
    ∀ u ∈ TypeExpr.usesOfMembers (Session.inherited shapes), K u := by
  intro u hu
  obtain ⟨x, hx, hu⟩ := TypeExpr.mem_usesOfMembers.mp hu
  obtain ⟨ms, hms, hx⟩ := Session.exists_object_of_mem_inherited hx
  exact h _ hms u (TypeExpr.mem_usesOfMembers.mpr ⟨x, hx, hu⟩)

theorem Session.uses_literals (values : List Literal) :
    (TypeExpr.union (values.map .literal) : TypeExpr ModuleId).uses = [] := by
  rw [TypeExpr.uses]
  induction values with
  | nil => rfl
  | cons l values ih => exact ih

theorem TypeParameter.fst_mem_scopes {ps : List (TypeParameter ModuleId)} {u : ModuleId × Use}
    (h : u ∈ TypeParameter.uses ps) : u.1 ∈ TypeParameter.scopes ps := by
  obtain ⟨p, hp, hu⟩ := List.mem_flatMap.mp h
  refine List.mem_flatMap.mpr ⟨p, hp, ?_⟩
  cases hdefault : p.default with
  | none => simp [hdefault] at hu
  | some t =>
    rw [hdefault] at hu
    exact TypeExpr.fst_mem_scopes hu

/-- A module's uses are in the scopes of its declarations and in its own. -/
theorem Declaration.fst_mem_uses {m : ModuleId} {d : Declaration} {u : ModuleId × Use}
    (h : u ∈ d.uses m) : u.1 = m ∨ u.1 ∈ d.scopes := by
  cases d with
  | typeAlias ps body =>
    exact .inr (List.mem_append.mpr
      ((List.mem_append.mp h).imp TypeParameter.fst_mem_scopes TypeExpr.fst_mem_scopes))
  | interface ps parents members =>
    refine .inr (List.mem_append.mpr
      ((List.mem_append.mp h).imp (fun h => ?_) TypeExpr.fst_mem_scopesOfMembers))
    exact List.mem_append.mpr
      ((List.mem_append.mp h).imp TypeParameter.fst_mem_scopes TypeExpr.fst_mem_scopesOfList)
  | variableOf t constructed =>
    cases t with
    | some t => exact .inr (TypeExpr.fst_mem_scopes (t := t) h)
    | none =>
      cases constructed with
      | none => exact absurd h List.not_mem_nil
      | some callee =>
        refine .inl ?_
        rcases List.mem_cons.mp h with rfl | h
        · rfl
        · have hscopes := TypeExpr.fst_mem_scopes h
          simpa [Session.placeholderApp, TypeExpr.scopes, TypeExpr.scopesOfList] using hscopes
  | classType => exact absurd h List.not_mem_nil
  | enumeration values => exact absurd h List.not_mem_nil

/-- In a module in the scope of its own number every use is in that scope. -/
theorem Module.fst_of_mem_uses {m : ModuleId} {x : Module}
    (hx : x.Corresponds (fun a b _ => a = m ∧ b = m) x) {name : String} {lead : Session.Lead}
    (hlead : x.lead? name = some lead) {u : ModuleId × Use} (hu : u ∈ lead.uses m) : u.1 = m := by
  cases lead with
  | renamed other => exact congrArg Prod.fst (List.mem_singleton.mp hu)
  | imported specifier rest => exact congrArg Prod.fst (List.mem_singleton.mp hu)
  | declared d =>
    have hself := hx.lead? name
    rw [hlead] at hself
    cases hself with
    | some hself =>
      cases hself with
      | declared hd =>
        rcases Declaration.fst_mem_uses hu with h | h
        · exact h
        · exact hd.scopes (fun a b _ h => h.1) u.1 h

/-! ## Questions -/

/-- What a module can be asked: where a name leads, and what its imports call a name. -/
inductive Question where
  | lead (name : String)
  | importedAs (name : String)

/-- Questions to modules, which are told apart by the keys of their files. -/
abbrev Questions := List String → Question → Prop

def Module.importedName? (x : Module) (name : String) : Option String :=
  (x.imports.get? name).bind (·.name)

/-- The file that a specifier means in a file. -/
def specified? (fs : Files) (aliases : PathAliases) (path : Path) (specifier : String) :
    Option Path :=
  ((specifierBases aliases path specifier).flatMap candidates).find? fs.isFile

/-- The questions that a use in a file comes to. -/
inductive Use.Asks (fs : Files) (aliases : PathAliases) (key : List String) (path : Path) :
    Use → Questions where
  | name (name : String) : Asks fs aliases key path (.name name) key (.lead name)
  | imported {specifier name : String} {p : Path} :
    specified? fs aliases path specifier = some p →
    Asks fs aliases key path (.imported specifier name) (Session.fileKey fs p) (.lead name)
  | constructed (callee : String) :
    Asks fs aliases key path (.constructed callee) key (.importedAs callee)

namespace Session

/-- Which module a session has for a file, or would have under some number after loading it. -/
inductive IsAt (fs : Files) (s : Session) : List String → ModuleId → Module → Prop where
  | loaded {key m x} : (key, m) ∈ s.locations → s.modules[m]? = some x → IsAt fs s key m x
  | loadable {p program} (m : ModuleId) : s.locations.lookup (fileKey fs p) = none →
    readProgram fs p = .ok program → IsAt fs s (fileKey fs p) m (.ofProgram m p program)

/-- What is asked for the sake of some uses in the modules of a session: the questions they come to,
and those that the uses in the answers come to. -/
inductive Asked (fs : Files) (s : Session) (us : List (ModuleId × Use)) : Questions where
  | used {m use key x key' q} : (m, use) ∈ us → (key, m) ∈ s.locations → s.modules[m]? = some x →
    use.Asks fs s.aliases key x.path key' q → Asked fs s us key' q
  | answered {key name m x lead m' use key' q} : Asked fs s us key (.lead name) →
    IsAt fs s key m x → x.lead? name = some lead → (m', use) ∈ lead.uses m →
    use.Asks fs s.aliases key x.path key' q → Asked fs s us key' q

end Session
end Routebook
