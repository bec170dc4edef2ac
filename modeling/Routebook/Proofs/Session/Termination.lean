import Routebook.Proofs.Session.Ends

/-!
# Every name is expanded in the end

Types are resolved for a limited number of steps, but inside each step of an interface its parents
are resolved anew, with types that substitution makes as large as it likes, and modules are loaded
on the way. **Still expanding and resolving come to an end, whatever the declarations are**
(`ends_resolveWithin`, `ends_expand`), because three things run out one inside the other: the files
that can still be loaded, the names under which interfaces can still be entered, and the steps of
`resolve`. The names are finite because substitution makes types larger but brings no name that is
not used somewhere already.
-/

namespace Routebook

open Disk (Files)

/-- The name by which a use calls what it leads to. -/
def Use.called : Use → String
  | .name n | .imported _ n | .constructed n => n

def TypeExpr.called (t : TypeExpr ModuleId) : List String := t.uses.map fun u => u.2.called

/-! ## Stacks without repetition -/

section Stacks

variable {α : Type} {a : α} {stack opened : List α} {among among' : Finset α}

/-- Once something is on a stack, there is less left to be pushed. -/
theorem card_sdiff_cons_lt [DecidableEq α] (ha : a ∈ among) (hnew : a ∉ stack) :
    (among \ (a :: stack).toFinset).card < (among \ stack.toFinset).card := by
  rw [List.toFinset_cons, Finset.sdiff_insert]
  exact Finset.card_erase_lt_of_mem
    (Finset.mem_sdiff.mpr ⟨ha, fun h => hnew (List.mem_toFinset.mp h)⟩)

/-- What has been pushed on a stack is among some things, each is there once, and none was there
before. -/
structure Pushed (stack : List α) (among : Finset α) (opened : List α) : Prop where
  nodup : opened.Nodup
  fresh : ∀ a ∈ opened, a ∉ stack
  mem : ∀ a ∈ opened, a ∈ among

namespace Pushed

theorem nil (stack : List α) (among : Finset α) : Pushed stack among [] where
  nodup := List.nodup_nil
  fresh _ h := absurd h List.not_mem_nil
  mem _ h := absurd h List.not_mem_nil

theorem mono (h : Pushed stack among opened) (hsubset : among ⊆ among') :
    Pushed stack among' opened where
  nodup := h.nodup
  fresh := h.fresh
  mem a ha := hsubset (h.mem a ha)

theorem push (h : Pushed stack among opened) (ha : a ∈ among)
    (hnew : a ∉ opened ++ stack) : Pushed stack among (a :: opened) := by
  rw [List.mem_append, not_or] at hnew
  exact {
    nodup := List.nodup_cons.mpr ⟨hnew.1, h.nodup⟩
    fresh := List.forall_mem_cons.mpr ⟨hnew.2, h.fresh⟩
    mem := List.forall_mem_cons.mpr ⟨ha, h.mem⟩ }

theorem nodup_append (h : Pushed stack among opened) (hstack : stack.Nodup) :
    (opened ++ stack).Nodup :=
  List.nodup_append.mpr ⟨h.nodup, hstack, fun _ ha _ hb hab => h.fresh _ ha (hab ▸ hb)⟩

theorem length_le (h : Pushed stack among opened) : opened.length ≤ among.card := by
  classical
  rw [← List.toFinset_card_of_nodup h.nodup]
  exact Finset.card_le_card fun a ha => h.mem a (List.mem_toFinset.mp ha)

end Pushed

end Stacks

namespace Session

open Analysis (Ends ends_pure ends_bind_of_on ends_mapM)

variable {fs : Files} {s s' s₁ s₂ : Session} {m : ModuleId} {n : String}
  {t u : TypeExpr ModuleId} {names : List String}

/-! ## The names that are used -/

section Collect

variable {α : Type} {f : ModuleId → String → Declaration → List α} {a : α} {d : Declaration}

/-- What there is in the declarations of a session, all together. -/
def collect (f : ModuleId → String → Declaration → List α) (s : Session) : List α :=
  s.modules.zipIdx.flatMap fun x => x.1.declarations.flatMap fun e => f x.2 e.1 e.2

theorem mem_collect (hd : s.Declares m n d) (ha : a ∈ f m n d) : a ∈ s.collect f := by
  obtain ⟨x, hx, hd⟩ := hd
  exact List.mem_flatMap.mpr ⟨(x, m), List.mem_zipIdx_iff_getElem?.mpr hx,
    List.mem_flatMap.mpr ⟨(n, d), hd, ha⟩⟩

theorem Extends.collect_subset (h : s'.Extends s) : s.collect f ⊆ s'.collect f := by
  intro a ha
  obtain ⟨x, hx, ha⟩ := List.mem_flatMap.mp ha
  have hx' := h.module? (List.mem_zipIdx_iff_getElem?.mp hx)
  exact List.mem_flatMap.mpr ⟨x, List.mem_zipIdx_iff_getElem?.mpr hx', ha⟩

end Collect

/-- The names that are used in the declarations of a session. -/
def called (s : Session) : List String := s.collect fun m _ d => (d.uses m).map fun u => u.2.called

/-- The interfaces of a session, each with the module that declares it. -/
def interfaces (s : Session) : List (ModuleId × String) :=
  s.collect fun m n d =>
    match d with
    | .interface .. => [(m, n)]
    | _ => []

theorem mem_called {d : Declaration} {use : ModuleId × Use} (h : s.Declares m n d)
    (huse : use ∈ d.uses m) : use.2.called ∈ s.called := mem_collect h (List.mem_map_of_mem huse)

theorem mem_interfaces {ps : List (TypeParameter ModuleId)} {parents : List (TypeExpr ModuleId)}
    {members : List (Member (TypeExpr ModuleId))}
    (h : s.Declares m n (.interface ps parents members)) : (m, n) ∈ s.interfaces :=
  mem_collect h List.mem_cons_self

theorem Extends.called_subset (h : s'.Extends s) : s.called ⊆ s'.called := h.collect_subset

theorem Extends.interfaces_subset (h : s'.Extends s) : s.interfaces ⊆ s'.interfaces :=
  h.collect_subset

/-- What is true of the types that a type is expanded to and resolved to, if it is true of the type:
declarations say only what it is true of, if it is true of their arguments. -/
structure Preserved (K : Session → TypeExpr ModuleId → Prop) : Prop where
  later : ∀ {s s' t}, s'.Extends s → K s t → K s' t
  args : ∀ {s t}, K s t → ∀ a ∈ t.args, K s a
  typeAlias : ∀ {s m n ps body args}, s.Declares m n (.typeAlias ps body) → (∀ a ∈ args, K s a) →
    K s (body.substitute (bind ps args))
  parent : ∀ {s m n ps parents members args p}, s.Declares m n (.interface ps parents members) →
    (∀ a ∈ args, K s a) → p ∈ parents → K s (p.substitute (bind ps args))
  interface : ∀ {s m n ps parents members args shapes},
    s.Declares m n (.interface ps parents members) → (∀ a ∈ args, K s a) → (∀ t ∈ shapes, K s t) →
      K s ((TypeExpr.object (members.foldl addOwnMember (inherited shapes))).substitute
        (bind ps args))
  enumeration : ∀ {s m n values}, s.Declares m n (.enumeration values) →
    K s (.union (values.map .literal))
  typed : ∀ {s m n t constructed}, s.Declares m n (.variableOf (some t) constructed) → K s t
  constructed : ∀ {s m n callee}, s.Declares m n (.variableOf none (some callee)) →
    K s (placeholderApp m)

theorem Preserved.and {K K' : Session → TypeExpr ModuleId → Prop} (h : Preserved K)
    (h' : Preserved K') : Preserved fun s t => K s t ∧ K' s t where
  later hext ht := ⟨h.later hext ht.1, h'.later hext ht.2⟩
  args ht a ha := ⟨h.args ht.1 a ha, h'.args ht.2 a ha⟩
  typeAlias hd hargs := ⟨h.typeAlias hd fun a ha => (hargs a ha).1,
    h'.typeAlias hd fun a ha => (hargs a ha).2⟩
  parent hd hargs hp := ⟨h.parent hd (fun a ha => (hargs a ha).1) hp,
    h'.parent hd (fun a ha => (hargs a ha).2) hp⟩
  interface hd hargs hshapes :=
    ⟨h.interface hd (fun a ha => (hargs a ha).1) fun t ht => (hshapes t ht).1,
      h'.interface hd (fun a ha => (hargs a ha).2) fun t ht => (hshapes t ht).2⟩
  enumeration hd := ⟨h.enumeration hd, h'.enumeration hd⟩
  typed hd := ⟨h.typed hd, h'.typed hd⟩
  constructed hd := ⟨h.constructed hd, h'.constructed hd⟩

/-- A type uses only names that are used in the declarations of a session, and some others. -/
def CallsAmong (names : List String) (s : Session) (t : TypeExpr ModuleId) : Prop :=
  ∀ u ∈ t.uses, u.2.called ∈ s.called ++ names

theorem callsAmong_called (s : Session) (t : TypeExpr ModuleId) : s.CallsAmong t.called t :=
  fun _ hu => List.mem_append_right _ (List.mem_map_of_mem hu)

theorem CallsAmong.bind {ps : List (TypeParameter ModuleId)} {args : List (TypeExpr ModuleId)}
    (hps : ∀ u ∈ TypeParameter.uses ps, u.2.called ∈ s.called ++ names)
    (hargs : ∀ a ∈ args, s.CallsAmong names a) :
    ∀ n t, Session.bind ps args n = some t → s.CallsAmong names t := by
  intro n t h
  refine uses_bind (K := fun u => u.2.called ∈ s.called ++ names) hps (fun u hu => ?_) h
  obtain ⟨a, ha, hu⟩ := TypeExpr.mem_usesOfList.mp hu
  exact hargs a ha u hu

theorem called_of_declares (hd : s.Declares m n d) :
    ∀ u ∈ d.uses m, u.2.called ∈ s.called ++ names :=
  fun _ hu => List.mem_append_left _ (mem_called hd hu)

/-- **No name is made up on the way.** -/
theorem preserved_callsAmong (names : List String) : Preserved (CallsAmong names) where
  later hext h u hu := List.mem_append.mpr
    ((List.mem_append.mp (h u hu)).imp_left fun hu => hext.called_subset hu)
  args := by
    intro s t h a ha u hu
    refine h u ?_
    cases t with
    | reference n as m => exact List.mem_cons_of_mem _ (TypeExpr.mem_usesOfList.mpr ⟨a, ha, hu⟩)
    | imported specifier q as m =>
      have hargs : u ∈ TypeExpr.usesOfList as := TypeExpr.mem_usesOfList.mpr ⟨a, ha, hu⟩
      cases q with
      | none => exact hargs
      | some q => exact List.mem_cons_of_mem _ hargs
    | _ => exact absurd ha List.not_mem_nil
  typeAlias := by
    intro s m n ps body args hd hargs
    obtain ⟨hps, hbody⟩ := List.forall_mem_append.mp (called_of_declares hd)
    exact TypeExpr.uses_substitute (CallsAmong.bind hps hargs) hbody
  parent := by
    intro s m n ps parents members args p hd hargs hp
    obtain ⟨hheads, -⟩ := List.forall_mem_append.mp (called_of_declares hd)
    obtain ⟨hps, hparents⟩ := List.forall_mem_append.mp hheads
    exact TypeExpr.uses_substitute (CallsAmong.bind hps hargs) fun u hu =>
      hparents u (TypeExpr.mem_usesOfList.mpr ⟨p, hp, hu⟩)
  interface := by
    intro s m n ps parents members args shapes hd hargs hshapes
    obtain ⟨hheads, hmembers⟩ := List.forall_mem_append.mp (called_of_declares hd)
    obtain ⟨hps, -⟩ := List.forall_mem_append.mp hheads
    refine TypeExpr.uses_substitute (t := .object _) (CallsAmong.bind hps hargs) ?_
    exact uses_foldl_addOwnMember hmembers (uses_inherited hshapes)
  enumeration := by
    intro s m n values _ u hu
    rw [uses_literals] at hu
    exact absurd hu List.not_mem_nil
  typed hd _ hu := List.mem_append_left _ (mem_called hd hu)
  constructed hd u hu := List.mem_append_left _ (mem_called hd (List.mem_cons_of_mem _ hu))

/-! ## What is left to enter -/

/-- The entries that an interface can have among those that are being expanded: a module that
declares an interface, and a name that is used. -/
def enterable (names : List String) (s : Session) : Finset (ModuleId × String) :=
  (s.interfaces.map Prod.fst).toFinset ×ˢ (s.called ++ names).toFinset

theorem mem_enterable {declared : String} {ps : List (TypeParameter ModuleId)}
    {parents : List (TypeExpr ModuleId)} {members : List (Member (TypeExpr ModuleId))}
    (hd : s.Declares m declared (.interface ps parents members)) (hn : n ∈ s.called ++ names) :
    (m, n) ∈ s.enterable names :=
  Finset.mem_product.mpr
    ⟨List.mem_toFinset.mpr (List.mem_map.mpr ⟨(m, declared), mem_interfaces hd, rfl⟩),
      List.mem_toFinset.mpr hn⟩

theorem Extends.enterable_subset (h : s'.Extends s) : s.enterable names ⊆ s'.enterable names := by
  refine Finset.product_subset_product (fun m hm => ?_) fun n hn => ?_
  · obtain ⟨key, hkey, rfl⟩ := List.mem_map.mp (List.mem_toFinset.mp hm)
    exact List.mem_toFinset.mpr (List.mem_map_of_mem (h.interfaces_subset hkey))
  · exact List.mem_toFinset.mpr (List.mem_append.mpr
      ((List.mem_append.mp (List.mem_toFinset.mp hn)).imp_left fun hn => h.called_subset hn))

theorem enterable_congr (h : s'.modules = s.modules) : s'.enterable names = s.enterable names := by
  simp only [enterable, interfaces, called, collect, h]

/-- How many entries are not there yet. -/
def room (names : List String) (s : Session) : Nat :=
  (s.enterable names \ s.expanding.toFinset).card

/-- In a session there is less left to be done than in another: fewer files can be loaded, or fewer
interfaces entered. -/
def Ahead (fs : Files) (names : List String) (s' s : Session) : Prop :=
  (unloaded fs s').card < (unloaded fs s).card ∨
    (unloaded fs s').card ≤ (unloaded fs s).card ∧ s'.room names < s.room names

theorem Later.unloaded_or_room (names : List String) (h : Later fs s s') :
    (unloaded fs s').card < (unloaded fs s).card ∨
      (unloaded fs s').card ≤ (unloaded fs s).card ∧ s'.room names = s.room names := by
  rcases h.modules_eq_or_lt with hmodules | hlt
  · refine .inr ⟨Finset.card_le_card h.extends_.unloaded_subset, ?_⟩
    rw [room, room, enterable_congr hmodules, h.expanding]
  · exact .inl hlt

theorem Later.ahead_of_ahead (h : Later fs s s₁) (h' : Ahead fs names s' s₁) :
    Ahead fs names s' s := by
  rcases h.unloaded_or_room names with hlt | ⟨hle, hroom⟩ <;>
    rcases h' with hlt' | ⟨hle', hroom'⟩
  · exact .inl (hlt'.trans hlt)
  · exact .inl (hle'.trans_lt hlt)
  · exact .inl (hlt'.trans_le hle)
  · exact .inr ⟨hle'.trans hle, hroom ▸ hroom'⟩

theorem room_enter_lt {key : ModuleId × String} (hkey : key ∈ s.enterable names)
    (hfree : s.expanding.contains key = false) : (s.enter key).room names < s.room names :=
  card_sdiff_cons_lt hkey (by simpa using hfree)

/-- Inside an interface there is less left to be done, whatever is loaded there. -/
theorem ahead_of_later_enter {key : ModuleId × String} (hkey : key ∈ s.enterable names)
    (hfree : s.expanding.contains key = false) (h : Later fs (s.enter key) s') :
    Ahead fs names s' s := by
  have hunloaded : unloaded fs (s.enter key) = unloaded fs s := rfl
  rcases h.unloaded_or_room names with hlt | ⟨hle, hroom⟩
  · exact .inl (hunloaded ▸ hlt)
  · exact .inr ⟨hunloaded ▸ hle, hroom.trans_lt (room_enter_lt hkey hfree)⟩

/-- One of three numbers gets smaller, and none of those before it larger. -/
theorem lex_of_lt {a a' b b' c c' : Nat} (h : a' < a ∨ a' ≤ a ∧ (b' < b ∨ b' = b ∧ c' < c)) :
    Prod.Lex (· < ·) (Prod.Lex (· < ·) (· < ·)) (a', b', c') (a, b, c) := by
  rcases h with hlt | ⟨hle, h⟩
  · exact .left _ _ hlt
  · rcases hle.lt_or_eq with hlt | rfl
    · exact .left _ _ hlt
    · rcases h with hlt | ⟨rfl, hlt⟩
      · exact .right _ (.left _ _ hlt)
      · exact .right _ (.right _ hlt)

/-! ## Expanding -/

section Expanding

variable {K : Session → TypeExpr ModuleId → Prop} {args : List (TypeExpr ModuleId)}
  {d : Declaration}

/-- What an expansion comes to in the end. -/
def Expands (fs : Files) (K : Session → TypeExpr ModuleId → Prop) (s : Session)
    (next : Option (TypeExpr ModuleId)) (s' : Session) : Prop :=
  Later fs s s' ∧ ∀ u, next = some u → K s' u

/-- What a resolution comes to in the end. -/
def Resolves (fs : Files) (K : Session → TypeExpr ModuleId → Prop) (s : Session)
    (t : TypeExpr ModuleId) (s' : Session) : Prop :=
  Later fs s s' ∧ K s' t

theorem Later.leave {key : ModuleId × String} (h : Later fs (s.enter key) s') :
    Later fs s s'.leave where
  extends_ := (extends_leave s').trans (h.extends_.trans (extends_enter s key))
  expanding := congrArg List.tail h.expanding
  paid := h.paid

theorem expandDeclaration_interface_of_contains {ps : List (TypeParameter ModuleId)}
    {parents : List (TypeExpr ModuleId)} {members : List (Member (TypeExpr ModuleId))}
    (h : s.expanding.contains (m, n) = true) :
    expandDeclaration m n args (.interface ps parents members) fs s = some (none, s) := by
  rw [expandDeclaration.eq_def]
  refine (Analysis.on_bind (a := s) rfl).trans ?_
  rw [if_pos h]
  rfl

/-- Types are resolved one after another in the end, if each of them is. -/
theorem ends_mapM_resolve (hK : Preserved K) {ts : List (TypeExpr ModuleId)}
    (hts : ∀ t ∈ ts, K s t)
    (hrec : ∀ t s', Later fs s s' → K s' t → (resolve t).Ends fs s' (Resolves fs K s')) :
    (ts.mapM resolve).Ends fs s fun us s' => Later fs s s' ∧ ∀ u ∈ us, K s' u := by
  refine (ends_mapM (I := Later fs s) (Q := fun u s' => K s' u) (fun _ _ _ => hK.later)
    (fun t ht s' hs' => ?_) (.refl s)).imp fun us s' h => h.2
  refine (hrec t s' hs' (hK.later hs'.extends_ (hts t ht))).imp fun u s'' hu => ?_
  exact ⟨hu.1.extends_, hs'.trans hu.1, hu.2⟩

/-- A declaration is expanded in the end, if types are resolved inside the interface. -/
theorem ends_expandDeclaration (hK : Preserved K) {declared : String} (hd : s.Declares m declared d)
    (hn : n ∈ s.called ++ names) (hargs : ∀ a ∈ args, K s a)
    (hrec : ∀ p s', Ahead fs names s' s → K s' p → (resolve p).Ends fs s' (Resolves fs K s')) :
    Ends (expandDeclaration m n args d) fs s (Expands fs K s) := by
  cases d with
  | typeAlias ps body =>
    refine ⟨_, _, expandDeclaration_typeAlias ps body, .refl s, fun u hu => ?_⟩
    exact Option.some.inj hu ▸ hK.typeAlias hd hargs
  | enumeration values =>
    refine ⟨_, _, expandDeclaration_enumeration values, .refl s, fun u hu => ?_⟩
    exact Option.some.inj hu ▸ hK.enumeration hd
  | interface ps parents members =>
    cases hfree : s.expanding.contains (m, n) with
    | true => exact ⟨_, _, expandDeclaration_interface_of_contains hfree, .refl s, by simp⟩
    | false =>
      have hkey : (m, n) ∈ s.enterable names := mem_enterable hd hn
      obtain ⟨shapes, s', hshapes, hs', hK'⟩ :
          ((parents.map (·.substitute (bind ps args))).mapM resolve).Ends fs (s.enter (m, n))
            fun shapes s' => Later fs (s.enter (m, n)) s' ∧ ∀ t ∈ shapes, K s' t := by
        refine ends_mapM_resolve hK (fun p hp => ?_) fun p s' hs' hp =>
          hrec p s' (ahead_of_later_enter hkey hfree hs') hp
        obtain ⟨parent, hparent, rfl⟩ := List.mem_map.mp hp
        exact hK.later (extends_enter s (m, n)) (hK.parent hd hargs hparent)
      refine ⟨_, _, expandDeclaration_interface_eq_some.mpr ⟨hfree, shapes, s', hshapes, rfl, rfl⟩,
        hs'.leave, fun u hu => ?_⟩
      have hext := hs'.leave.extends_
      exact Option.some.inj hu ▸ hK.interface (hd.of_extends hext)
        (fun a ha => hK.later hext (hargs a ha))
        (fun t ht => hK.later (extends_leave s') (hK' t ht))
  | classType | variableOf _ _ =>
    refine Ends.of_on_eq ?_ (expandDeclaration.eq_def ..)
    exact ends_pure ⟨.refl s, by simp⟩

theorem ends_expandVariable (hK : Preserved K) (hd : s.Declares m n d) :
    (expandVariable m d).Ends fs s (Expands fs K s) := by
  cases d with
  | variableOf type constructed =>
    cases type with
    | some t =>
      exact ends_pure ⟨.refl s, fun u hu => Option.some.inj hu ▸ hK.typed hd⟩
    | none =>
      cases constructed with
      | none => exact ends_pure ⟨.refl s, by simp⟩
      | some callee =>
        have hget : Ends (get : Analysis Session) fs s fun now s' => now = s ∧ s' = s :=
          ⟨s, s, rfl, rfl, rfl⟩
        refine hget.bind fun now s' ⟨hnow, hs'⟩ => ?_
        subst hs'
        split
        · exact ends_pure ⟨.refl _, fun u hu => Option.some.inj hu ▸ hK.constructed hd⟩
        · exact ends_pure ⟨.refl _, by simp⟩
  | _ => exact ends_pure ⟨.refl s, by simp⟩

/-- What a type leads to is declared somewhere, and is called by a name that the type uses. -/
theorem later_of_namesDeclaration {target : ModuleId}
    (h : NamesDeclaration fs s t target n args d s₁) :
    Later fs s s₁ ∧ (∃ declared, s₁.Declares target declared d) ∧ args = t.args ∧ n ∈ t.called := by
  cases h with
  | reference hlookup =>
    obtain ⟨hlater, hfound⟩ := (ends_lookupWithin _ _ n).of_on hlookup
    exact ⟨hlater, hfound _ rfl, rfl, List.mem_cons_self⟩
  | imported hload hlookup =>
    have hloaded := (ends_loadSpecifier _ _).of_on hload
    obtain ⟨hlater, hfound⟩ := (ends_lookupWithin _ _ n).of_on hlookup
    exact ⟨hloaded.trans hlater, hfound _ rfl, rfl, List.mem_cons_self⟩

theorem CallsAmong.mem_of_mem_called (h : s.CallsAmong names t) (hn : n ∈ t.called) :
    n ∈ s.called ++ names := by
  obtain ⟨use, huse, rfl⟩ := List.mem_map.mp hn
  exact h use huse

/-- What a type leads to is expanded in the end, if types are resolved inside the interfaces. -/
theorem ends_expandDeclaration_of_namesDeclaration (hK : Preserved K)
    (hnames : ∀ s t, K s t → s.CallsAmong names t) (ht : K s t) {target : ModuleId}
    (h : NamesDeclaration fs s t target n args d s₁)
    (hrec : ∀ p s', Ahead fs names s' s → K s' p → (resolve p).Ends fs s' (Resolves fs K s')) :
    Ends (expandDeclaration target n args d) fs s₁ (Expands fs K s₁) := by
  obtain ⟨hs₁, ⟨declared, hd⟩, rfl, hn⟩ := later_of_namesDeclaration h
  have ht₁ := hK.later hs₁.extends_ ht
  exact ends_expandDeclaration hK hd ((hnames s₁ t ht₁).mem_of_mem_called hn) (hK.args ht₁)
    fun p s' hs' => hrec p s' (hs₁.ahead_of_ahead hs')

/-- Following a name ends, and so does what becomes of it if its declaration does. -/
theorem ends_foundBy {next : ModuleId → Declaration → Analysis (Option (TypeExpr ModuleId))}
    (hnext : ∀ target d s₁, (lookup m n).on fs s = some (some (target, d), s₁) →
      (next target d).Ends fs s₁ (Expands fs K s₁)) :
    (foundBy next m n).Ends fs s (Expands fs K s) := by
  have hlookup : (lookup m n).Ends fs s _ := ends_lookupWithin _ m n
  obtain ⟨found, s₁, hlookup, hs₁, -⟩ := hlookup
  refine ends_bind_of_on hlookup ?_
  cases found with
  | none => exact ends_pure ⟨hs₁, by simp⟩
  | some found =>
    exact (hnext found.1 found.2 s₁ hlookup).imp fun next s' h => ⟨hs₁.trans h.1, h.2⟩

/-- One step of a type ends, if types are resolved inside the interfaces. -/
theorem ends_expand_of (hK : Preserved K) (hnames : ∀ s t, K s t → s.CallsAmong names t)
    (ht : K s t)
    (hrec : ∀ p s', Ahead fs names s' s → K s' p → (resolve p).Ends fs s' (Resolves fs K s')) :
    Ends (expand t) fs s (Expands fs K s) := by
  rw [expand_eq t]
  cases t with
  | reference n args m =>
    exact ends_foundBy fun target d s₁ hlookup =>
      ends_expandDeclaration_of_namesDeclaration hK hnames ht (.reference hlookup) hrec
  | imported specifier qualifier args m =>
    cases qualifier with
    | none => exact ends_pure ⟨.refl s, by simp⟩
    | some q =>
      have hload : (loadSpecifier m specifier).Ends fs s _ := ends_loadSpecifier m specifier
      obtain ⟨file, s₀, hload, hs₀⟩ := hload
      refine ends_bind_of_on hload ?_
      cases file with
      | none => exact ends_pure ⟨hs₀, by simp⟩
      | some file =>
        refine (ends_foundBy fun target d s₁ hlookup => ?_).imp fun next s' h =>
          ⟨hs₀.trans h.1, h.2⟩
        exact ends_expandDeclaration_of_namesDeclaration hK hnames ht (.imported hload hlookup) hrec
  | query n m =>
    refine ends_foundBy fun target d s₁ hlookup => ?_
    obtain ⟨-, hfound⟩ := (ends_lookupWithin _ m n).of_on hlookup
    obtain ⟨declared, hd⟩ := hfound _ rfl
    exact ends_expandVariable hK hd
  | _ => exact ends_pure ⟨.refl s, by simp⟩

/-- The recursion is on the files that can still be loaded, then on the interfaces that can still be
entered, then on the steps. -/
theorem ends_resolveWithin_of (hK : Preserved K) (hnames : ∀ s t, K s t → s.CallsAmong names t)
    (k : Nat) (t : TypeExpr ModuleId) (s : Session) (ht : K s t) :
    Ends (resolveWithin k t) fs s (Resolves fs K s) := by
  rw [resolveWithin_eq k t]
  cases hk : k with
  | zero => exact ends_pure ⟨.refl s, ht⟩
  | succ j =>
    have hexpand : Ends (expand t) fs s (Expands fs K s) :=
      ends_expand_of hK hnames ht fun p s' hahead hp =>
        ends_resolveWithin_of hK hnames resolveLimit p s' hp
    refine hexpand.bind fun next s₁ hs => ?_
    obtain ⟨hs₁, hnext⟩ := hs
    cases next with
    | none => exact ends_pure ⟨hs₁, hK.later hs₁.extends_ ht⟩
    | some next =>
      exact (ends_resolveWithin_of hK hnames j next s₁ (hnext next rfl)).imp fun u s' h =>
        ⟨hs₁.trans h.1, h.2⟩
termination_by ((unloaded fs s).card, s.room names, k)
decreasing_by
  · exact lex_of_lt (hahead.imp_right fun ⟨hle, hroom⟩ => ⟨hle, .inl hroom⟩)
  · exact lex_of_lt ((hs₁.unloaded_or_room names).imp_right fun ⟨hle, hroom⟩ =>
      ⟨hle, .inr ⟨hroom, by omega⟩⟩)

/-- **Every type is resolved in the end,** and what is true of it is true of its shape. -/
theorem ends_resolveWithin (hK : Preserved K) (k : Nat) (ht : K s t) :
    Ends (resolveWithin k t) fs s (Resolves fs K s) :=
  (ends_resolveWithin_of (hK.and (preserved_callsAmong t.called)) (fun _ _ h => h.2) k t s
    ⟨ht, callsAmong_called s t⟩).imp fun _ _ h => ⟨h.1, h.2.1⟩

/-- **Every name is expanded in the end,** and what is true of it is true of what it stands for. -/
theorem ends_expand (hK : Preserved K) (ht : K s t) : Ends (expand t) fs s (Expands fs K s) := by
  have hK' := hK.and (preserved_callsAmong t.called)
  refine (ends_expand_of hK' (fun _ _ h => h.2) ⟨ht, callsAmong_called s t⟩ fun p s' _ hp =>
    ends_resolveWithin hK' resolveLimit hp).imp fun next s' h => ⟨h.1, fun u hu => ?_⟩
  exact (h.2 u hu).1

end Expanding

end Session
end Routebook
