import Routebook.Proofs.Session.Correspondence

/-!
# Following and expanding names in corresponding sessions

In corresponding sessions a name leads to corresponding declarations (`simulates_lookup`), and a
type is expanded and resolved to corresponding types (`simulates_expand`, `simulates_resolve`). The
guard against interfaces that inherit from themselves stops both sessions at the same interface,
because its entries are names in corresponding modules.
-/

namespace Routebook

open Disk (Files)

namespace Correspondence

open Session

variable {fs : Files} {C : Correspondence fs} {w : World} {m n : ModuleId}

/-! ## Following names -/

variable (C) in
/-- Declarations that correspond, in corresponding modules. -/
def Found (w : World) (a b : ModuleId × Declaration) : Prop :=
  C.ids w a.1 b.1 none ∧ a.2.Corresponds (C.ids w) b.2

theorem simulates_lookupWithin (h : C.ids w m n none) (k : Nat) (name : String) :
    C.Simulates w (fun w => Option.Rel (C.Found w)) (lookupWithin k m name)
      (lookupWithin k n name) := by
  induction k generalizing w m n name with
  | zero => exact .pure .none
  | succ k ih =>
    rw [lookupWithin, lookupWithin]
    refine .of_related fun hw => .get ?_
    obtain ⟨x, y, hx, hy, hxy, hspecifiers⟩ := C.modules hw.sessions h
    rw [hx, hy]
    dsimp only
    -- Both modules send the name the same way.
    have hlead := hxy.lead? name
    have hmentioned : ∀ specifier rest, x.lead? name = some (.imported specifier rest) →
        specifier ∈ x.specifiers := fun _ _ => Module.mem_specifiers_of_lead?
    generalize x.lead? name = lead at hlead hmentioned
    generalize y.lead? name = lead' at hlead
    cases hlead with
    | none => exact .pure .none
    | some hlead =>
      cases hlead with
      | declared hde => exact .pure (.some ⟨h, hde⟩)
      | renamed other => exact ih h other
      | imported specifier rest =>
        refine (Simulates.load (hspecifiers _ (hmentioned specifier rest rfl))).bind ?_
        intro w₁ hw₁ target target' htarget
        cases htarget with
        | none => exact .pure .none
        | some htarget => exact ih htarget rest

/-- **A name leads to corresponding declarations in corresponding modules.** -/
theorem simulates_lookup (h : C.ids w m n none) (name : String) :
    C.Simulates w (fun w => Option.Rel (C.Found w)) (lookup m name) (lookup n name) :=
  simulates_lookupWithin h _ name

/-- What the framework calls a type is the same in both sessions. -/
theorem canonicalName?_eq (hw : C.sessions w) {t u : TypeExpr ModuleId} (h : C.Types w t u) :
    w.2.canonicalName? u = w.1.canonicalName? t := by
  cases h with
  | reference name hts hid =>
    obtain ⟨x, y, hx, hy, hxy, -⟩ := C.modules hw hid
    simp only [canonicalName?, hx, hy, Option.bind_eq_bind, Option.bind_some, hxy.imports]
  | imported specifier qualifier hts hid => cases qualifier <;> rfl
  | _ => rfl

/-- A module exports an application's type under the same number in both sessions, or in neither. -/
theorem corresponds_appType (hw : C.sessions w) {o : Option String} (h : C.ids w m n o)
    (name : Option String) :
    Option.Rel (C.Types w) (w.1.appType m name).toOption (w.2.appType n name).toOption := by
  obtain ⟨x, y, hx, hy, hxy, -⟩ := C.modules hw h
  rw [appType, appType, hx, hy]
  dsimp only
  rw [hxy.exportedAliases, hxy.renames]
  split
  · exact .none
  · next name _ =>
    have hd := hxy.declarations.get? ((x.renames.get? name).getD name)
    generalize x.declarations.get? ((x.renames.get? name).getD name) = d? at hd
    generalize y.declarations.get? ((x.renames.get? name).getD name) = e? at hd
    cases hd with
    | none => exact .none
    | some hde =>
      cases hde with
      | typeAlias hps ht => exact .some ht
      | _ => exact .none

/-! ## Expanding names -/

/-- Parameters stand for corresponding types: the argument, the default, or what is not known. -/
theorem correspondingBindings_bind {P : ScopeRelation ModuleId ModuleId}
    {ps qs : List (TypeParameter ModuleId)} {ts us : List (TypeExpr ModuleId)}
    (hps : List.Forall₂ (TypeParameter.Corresponds P) ps qs)
    (hts : List.Forall₂ (TypeExpr.Corresponds P) ts us) :
    TypeExpr.CorrespondingBindings P (Session.bind ps ts) (Session.bind qs us) := by
  induction hps generalizing ts us with
  | nil => exact fun _ => .none
  | @cons p q ps qs hpq _ ih =>
    obtain ⟨name, default⟩ := p
    obtain ⟨name', default'⟩ := q
    obtain ⟨rfl, hdefault⟩ := hpq
    intro x
    have hargument : TypeExpr.Corresponds P (ts.head?.getD (default.getD (.keyword .unknown)))
        (us.head?.getD (default'.getD (.keyword .unknown))) := by
      cases hts with
      | cons ht _ => exact ht
      | nil =>
        cases hdefault with
        | some ht => exact ht
        | none => exact .keyword _
    have htail : List.Forall₂ (TypeExpr.Corresponds P) ts.tail us.tail := by
      cases hts with
      | nil => exact .nil
      | cons _ hts => exact hts
    rw [Session.bind, Session.bind]
    dsimp only
    have hrest := ih htail x
    generalize Session.bind ps ts.tail x = t? at hrest
    generalize Session.bind qs us.tail x = u? at hrest
    cases hrest with
    | some htu => exact .some htu
    | none =>
      by_cases hx : x = name'
      · rw [if_pos hx, if_pos hx]
        exact .some hargument
      · rw [if_neg hx, if_neg hx]
        exact .none

/-- An application that was constructed and left alone has the placeholder's type in both sessions.
-/
theorem simulates_expandVariable {d e : Declaration} (h : C.ids w m n none)
    (hde : d.Corresponds (C.ids w) e) :
    C.Simulates w (fun w => Option.Rel (C.Types w)) (expandVariable m d) (expandVariable n e) := by
  cases hde with
  | variableOf constructed ht =>
    cases ht with
    | some ht => exact .pure (.some ht)
    | none =>
      cases constructed with
      | none => exact .pure .none
      | some callee =>
        refine .of_related fun hw => .get ?_
        have hcallee : C.Types w (.reference callee [] m) (.reference callee [] n) :=
          .reference callee .nil h
        rw [canonicalName?_eq hw.sessions hcallee]
        split
        · refine .pure (.some (.reference _ (.cons ?_ (.cons ?_ (.cons ?_ .nil))) h))
          · exact .reference _ .nil h
          · exact .reference _ .nil h
          · exact .literal _
        · exact .pure .none
  | _ => exact .pure .none

theorem corresponds_addOwnMember {R : TypeExpr ModuleId → TypeExpr ModuleId → Prop}
    {ms ns : List (Member (TypeExpr ModuleId))} {x y : Member (TypeExpr ModuleId)}
    (h : List.Forall₂ (Member.Corresponds R) ms ns) (hxy : x.Corresponds R y) :
    List.Forall₂ (Member.Corresponds R) (addOwnMember ms x) (addOwnMember ns y) := by
  refine List.rel_append ?_ (.cons hxy .nil)
  refine List.rel_filter (fun a b hab => ?_) h
  simp only [hab.name, hxy.name]

theorem corresponds_foldl_addOwnMember {R : TypeExpr ModuleId → TypeExpr ModuleId → Prop}
    {ms ns own own' : List (Member (TypeExpr ModuleId))}
    (hown : List.Forall₂ (Member.Corresponds R) own own')
    (h : List.Forall₂ (Member.Corresponds R) ms ns) : List.Forall₂ (Member.Corresponds R)
      (own.foldl addOwnMember ms) (own'.foldl addOwnMember ns) := by
  induction hown generalizing ms ns with
  | nil => exact h
  | cons hxy _ ih => exact ih (corresponds_addOwnMember h hxy)

/-- Parents hand down corresponding members if their shapes correspond. -/
theorem corresponds_inherited {P : ScopeRelation ModuleId ModuleId}
    {ts us : List (TypeExpr ModuleId)} (h : List.Forall₂ (TypeExpr.Corresponds P) ts us) :
    List.Forall₂ (Member.Corresponds (TypeExpr.Corresponds P)) (inherited ts) (inherited us) := by
  refine List.rel_flatMap h fun t u htu => ?_
  have hmembers := htu.members?
  generalize t.members? = ms at hmembers
  generalize u.members? = ns at hmembers
  cases hmembers with
  | none => exact .nil
  | some hms => exact hms

/-- Parents are resolved inside the interface, to corresponding shapes. -/
theorem simulates_shapes {resolve₀ resolve₁ : TypeExpr ModuleId → Analysis (TypeExpr ModuleId)}
    {b c : TypeExpr.Bindings ModuleId} {ts us : List (TypeExpr ModuleId)}
    {name name' : ModuleId × String}
    (hresolve : ∀ w t u, C.Types w t u → C.Simulates w C.Types (resolve₀ t) (resolve₁ u))
    (hts : List.Forall₂ (C.Types w) ts us)
    (hbc : TypeExpr.CorrespondingBindings (C.ids w) b c) :
    C.Simulates (w.1.enter name, w.2.enter name') (fun w => List.Forall₂ (C.Types w))
      ((ts.map (·.substitute b)).mapM resolve₀) ((us.map (·.substitute c)).mapM resolve₁) := by
  have hinto : World.Extends (w.1.enter name, w.2.enter name') w :=
    ⟨extends_enter _ _, extends_enter _ _⟩
  apply Simulates.mapM kept_types
  rw [List.forall₂_map_left_iff, List.forall₂_map_right_iff]
  refine hts.imp fun t u htu w₁ hw₁ => hresolve w₁ _ _ ?_
  exact kept_types (hw₁.extends_.trans hinto) (htu.substitute hbc)

/-- An interface's members with those that corresponding shapes hand down. -/
theorem corresponds_interfaceShape {P : ScopeRelation ModuleId ModuleId}
    {b c : TypeExpr.Bindings ModuleId} {ms ns : List (Member (TypeExpr ModuleId))}
    {ts us : List (TypeExpr ModuleId)} (hbc : TypeExpr.CorrespondingBindings P b c)
    (hms : List.Forall₂ (Member.Corresponds (TypeExpr.Corresponds P)) ms ns)
    (hts : List.Forall₂ (TypeExpr.Corresponds P) ts us) :
    (interfaceShape b ms ts).Corresponds P (interfaceShape c ns us) := by
  have hall := corresponds_foldl_addOwnMember hms (corresponds_inherited hts)
  exact (TypeExpr.Corresponds.object (TypeExpr.correspondsMembers_iff.mpr hall)).substitute hbc

theorem kept_correspondingBindings {w₁ : World} {b c : TypeExpr.Bindings ModuleId}
    (hw : w₁.Extends w) (h : TypeExpr.CorrespondingBindings (C.ids w) b c) :
    TypeExpr.CorrespondingBindings (C.ids w₁) b c := fun name => kept_types.option hw (h name)

/-! ## Rounds -/

section Rounds

variable {args args' : List (TypeExpr ModuleId)} {d e : Declaration} {t u : TypeExpr ModuleId}
  {declared declared' : DeclarationReader} {resolved resolved' inner inner' : Resolver}
  {step step' : Expander}

variable (C) in
/-- Whether two readings of declarations are exchangeable: a declaration with arguments comes to
corresponding types wherever module, arguments and declaration correspond. -/
def ReadsAlike (declared declared' : DeclarationReader) : Prop :=
  ∀ w m n name args args' d e, C.ids w m n none → List.Forall₂ (C.Types w) args args' →
    d.Corresponds (C.ids w) e → C.Simulates w (fun w => Option.Rel (C.Types w))
      (declared m name args d) (declared' n name args' e)

variable (C) in
/-- Whether two ways of resolving types are exchangeable. -/
def ResolvesAlike (resolved resolved' : Resolver) : Prop :=
  ∀ k w t u, C.Types w t u → C.Simulates w C.Types (resolved k t) (resolved' k u)

/-- What becomes of a name is decided by the declaration that it leads to. -/
theorem simulates_foundBy
    {next next' : ModuleId → Declaration → Analysis (Option (TypeExpr ModuleId))}
    (h : C.ids w m n none) (name : String)
    (hnext : ∀ w₁, C.Later w w₁ → ∀ found found', C.Found w₁ found found' →
      C.Simulates w₁ (fun w => Option.Rel (C.Types w)) (next found.1 found.2)
        (next' found'.1 found'.2)) :
    C.Simulates w (fun w => Option.Rel (C.Types w)) (foundBy next m name)
      (foundBy next' n name) := by
  refine (simulates_lookup h name).bind fun w₁ hw₁ found found' hfound => ?_
  cases hfound with
  | none => exact .pure .none
  | some hfound => exact hnext w₁ hw₁ _ _ hfound

theorem simulates_expandBy (hdeclared : C.ReadsAlike declared declared') (h : C.Types w t u) :
    C.Simulates w (fun w => Option.Rel (C.Types w)) (expandBy declared t)
      (expandBy declared' u) := by
  cases h with
  | reference name hts hid =>
    refine simulates_foundBy hid name fun w₁ hw₁ found found' hfound => ?_
    have hts := kept_types.list hw₁.extends_ (TypeExpr.correspondsList_iff.mp hts)
    exact hdeclared w₁ _ _ name _ _ _ _ hfound.1 hts hfound.2
  | imported specifier qualifier hts hid =>
    cases qualifier with
    | none => exact .pure .none
    | some name =>
      refine (Simulates.load hid).bind fun w₁ hw₁ file file' hfile => ?_
      cases hfile with
      | none => exact .pure .none
      | some hfile =>
        refine simulates_foundBy hfile name fun w₂ hw₂ found found' hfound => ?_
        have hts := kept_types.list (hw₁.trans hw₂).extends_ (TypeExpr.correspondsList_iff.mp hts)
        exact hdeclared w₂ _ _ name _ _ _ _ hfound.1 hts hfound.2
  | query name hid =>
    exact simulates_foundBy hid name fun w₁ _ found found' hfound =>
      simulates_expandVariable hfound.1 hfound.2
  | _ => exact .pure .none

/-- The guard stops both sessions at the same interface, and so its parents are resolved in both or
in neither. -/
theorem simulates_declarationBy (hresolved : C.ResolvesAlike resolved resolved')
    (hid : C.ids w m n none) (name : String) (hargs : List.Forall₂ (C.Types w) args args')
    (hde : d.Corresponds (C.ids w) e) :
    C.Simulates w (fun w => Option.Rel (C.Types w)) (declarationBy resolved m name args d)
      (declarationBy resolved' n name args' e) := by
  cases hde with
  | typeAlias hps hbody =>
    exact .pure (.some (hbody.substitute (correspondingBindings_bind hps hargs)))
  | interface hps hparents hmembers =>
    have hbindings := correspondingBindings_bind hps hargs
    refine .of_related fun hw => .get ?_
    have hname : C.Names w (m, name) (n, name) := ⟨⟨none, hid⟩, rfl⟩
    rw [contains_names hw.sessions hw.expanding hname]
    split
    · exact .pure .none
    · exact .within hname kept_types.list
        (simulates_shapes (hresolved resolveLimit) hparents hbindings)
        fun w₁ hw₁ shapes shapes' hs => .pure (.some (corresponds_interfaceShape
          (kept_correspondingBindings hw₁.extends_ hbindings)
          (kept_members hw₁.extends_ hmembers) hs))
  | enumeration values =>
    refine .pure (.some (.union (TypeExpr.correspondsList_iff.mpr ?_)))
    rw [List.forall₂_map_left_iff, List.forall₂_map_right_iff, List.forall₂_same]
    exact fun l _ => .literal l
  | _ => exact .pure .none

theorem simulates_resolveBy
    (hstep : ∀ w t u, C.Types w t u →
      C.Simulates w (fun w => Option.Rel (C.Types w)) (step t) (step' u))
    (hinner : C.ResolvesAlike inner inner') (k : Nat) (h : C.Types w t u) :
    C.Simulates w C.Types (resolveBy step inner k t) (resolveBy step' inner' k u) := by
  cases k with
  | zero => exact .pure h
  | succ k =>
    refine (hstep w t u h).bind fun w₁ hw₁ next next' hnext => ?_
    cases hnext with
    | none => exact .pure (kept_types hw₁.extends_ h)
    | some hnext => exact hinner k w₁ _ _ hnext

end Rounds

/-- Expanding a type, expanding a declaration and resolving are matched, as far as they come to an
end. -/
theorem matched_expansion :
    (∀ t fs s r, expand t fs s = some r → ∀ (C : Correspondence fs) u s', C.Types (s, s') t u →
        C.Matched (s, s') (fun w => Option.Rel (C.Types w)) r (expand u)) ∧
      (∀ m name ts d fs s r, expandDeclaration m name ts d fs s = some r →
        ∀ (C : Correspondence fs) n us e s', C.ids (s, s') m n none →
          List.Forall₂ (C.Types (s, s')) ts us → d.Corresponds (C.ids (s, s')) e →
          C.Matched (s, s') (fun w => Option.Rel (C.Types w)) r (expandDeclaration n name us e)) ∧
      ∀ k t fs s r, resolveWithin k t fs s = some r → ∀ (C : Correspondence fs) u s',
        C.Types (s, s') t u → C.Matched (s, s') C.Types r (resolveWithin k u) := by
  refine expansion_induction ?_ ?_ ?_
  · intro declared ih t fs s r h C u s' htu
    have hdeclared : C.ReadsAlike declared expandDeclaration :=
      fun w m n name args args' d e hid hargs hde r s h =>
        ih m name args d fs w.1 (r, s) h C n args' e w.2 hid hargs hde
    rw [expand_eq u]
    exact simulates_expandBy hdeclared htu r.1 r.2 h
  · intro resolved ih m name args d fs s r h C n args' e s' hid hargs hde
    have hresolved : C.ResolvesAlike resolved resolveWithin :=
      fun k w t u htu r s h => ih k t fs w.1 (r, s) h C u w.2 htu
    rw [expandDeclaration_eq n name args' e]
    exact simulates_declarationBy hresolved hid name hargs hde r.1 r.2 h
  · intro step inner ihstep ih k t fs s r h C u s' htu
    have hinner : C.ResolvesAlike inner resolveWithin :=
      fun k w t u htu r s h => ih k t fs w.1 (r, s) h C u w.2 htu
    rw [resolveWithin_eq k u]
    exact simulates_resolveBy (fun w t u htu r s h => ihstep t fs w.1 (r, s) h C u w.2 htu) hinner k
      htu r.1 r.2 h

theorem simulates_expand {t u : TypeExpr ModuleId} (h : C.Types w t u) :
    C.Simulates w (fun w => Option.Rel (C.Types w)) (expand t) (expand u) :=
  fun r s hr => matched_expansion.1 t fs w.1 (r, s) hr C u w.2 h

/-- **A type is resolved to corresponding types in corresponding sessions.** -/
theorem simulates_resolve {t u : TypeExpr ModuleId} (h : C.Types w t u) :
    C.Simulates w C.Types (resolve t) (resolve u) :=
  fun r s hr => matched_expansion.2.2 resolveLimit t fs w.1 (r, s) hr C u w.2 h

end Correspondence

end Routebook
