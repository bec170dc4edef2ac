import Routebook.Proofs.Table
import Routebook.Proofs.TypeExpr.Correspondence

/-!
# Modules under different numbers

The number that a file gets when it is loaded makes no difference to what its module says: under
two numbers it is the same module, with the scopes of the one number in the place of the other's
(`corresponds_ofProgram`). Neither does the path it is loaded under, which is only remembered.

What corresponding modules send a name to corresponds (`Module.Corresponds.lead?`).
-/

namespace Routebook

open TypeExpr (Corresponds ImpliedAt)
open Source (Program Statement Declared Declarator)

/-! ## Corresponding tables -/

namespace Table

variable {α β : Type} {R : α → β → Prop} {t : Table α} {u : Table β}

/-- Tables of the same keys in the same order, with related values. -/
def Corresponds (R : α → β → Prop) (t : Table α) (u : Table β) : Prop :=
  List.Forall₂ (fun e d => d.1 = e.1 ∧ R e.2 d.2) t u

/-- A key has related values in both tables, or in neither. -/
theorem Corresponds.get? (h : t.Corresponds R u) (key : String) :
    Option.Rel R (t.get? key) (u.get? key) := by
  induction h with
  | nil => exact .none
  | @cons e d t u hed _ ih =>
    obtain ⟨k, a⟩ := e
    obtain ⟨k', b⟩ := d
    obtain ⟨rfl, hab⟩ := hed
    rw [get?_cons, get?_cons]
    by_cases hk : key = k'
    · simpa only [hk, if_true] using .some hab
    · simpa only [hk, if_false] using ih

/-- Related values put under one key keep tables related. -/
theorem Corresponds.insert (h : t.Corresponds R u) (key : String) {a : α} {b : β} (hab : R a b) :
    (t.insert key a).Corresponds R (u.insert key b) := by
  induction h with
  | nil => exact .cons ⟨rfl, hab⟩ .nil
  | @cons e d t u hed htu ih =>
    obtain ⟨k, a'⟩ := e
    obtain ⟨k', b'⟩ := d
    obtain ⟨rfl, hab'⟩ := hed
    rw [Table.insert, Table.insert]
    by_cases hk : k' = key
    · rw [if_pos hk, if_pos hk]
      exact .cons ⟨rfl, hab⟩ htu
    · rw [if_neg hk, if_neg hk]
      exact .cons ⟨rfl, hab'⟩ ih

end Table

/-! ## Corresponding declarations -/

section Declarations

variable {P Q : ScopeRelation ModuleId ModuleId}

structure TypeParameter.Corresponds (P : ScopeRelation ModuleId ModuleId)
    (p q : TypeParameter ModuleId) : Prop where
  name : q.name = p.name
  default : Option.Rel (TypeExpr.Corresponds P) p.default q.default

inductive Declaration.Corresponds (P : ScopeRelation ModuleId ModuleId) :
    Declaration → Declaration → Prop
  | typeAlias {ps qs t u} : List.Forall₂ (TypeParameter.Corresponds P) ps qs →
    t.Corresponds P u → Corresponds P (.typeAlias ps t) (.typeAlias qs u)
  | interface {ps qs ts us ms ns} : List.Forall₂ (TypeParameter.Corresponds P) ps qs →
    List.Forall₂ (TypeExpr.Corresponds P) ts us →
    List.Forall₂ (Member.Corresponds (TypeExpr.Corresponds P)) ms ns →
    Corresponds P (.interface ps ts ms) (.interface qs us ns)
  | classType : Corresponds P .classType .classType
  | enumeration (values : List Literal) : Corresponds P (.enumeration values) (.enumeration values)
  | variableOf (constructed : Option String) {t u} : Option.Rel (TypeExpr.Corresponds P) t u →
    Corresponds P (.variableOf t constructed) (.variableOf u constructed)

/-- Modules that say the same, each in the scopes of its own. -/
structure Module.Corresponds (P : ScopeRelation ModuleId ModuleId) (x y : Module) : Prop where
  declarations : Table.Corresponds (Declaration.Corresponds P) x.declarations y.declarations
  imports : y.imports = x.imports
  renames : y.renames = x.renames
  exportedAliases : y.exportedAliases = x.exportedAliases

theorem TypeParameter.forall₂_of_impliedAt {ps qs : List (TypeParameter ModuleId)}
    (h : List.Forall₂ (TypeParameter.Corresponds P) ps qs)
    (hPQ : ImpliedAt P Q (TypeParameter.specifiers ps)) :
    List.Forall₂ (TypeParameter.Corresponds Q) ps qs := by
  induction h with
  | nil => exact .nil
  | @cons p q ps qs hpq _ ih =>
    obtain ⟨name, default⟩ := p
    obtain ⟨name', default'⟩ := q
    obtain ⟨hname, hdefault⟩ := hpq
    refine .cons ⟨hname, ?_⟩ (ih hPQ.right)
    cases hdefault with
    | none => exact .none
    | some ht => exact .some (ht.of_impliedAt hPQ.left)

/-- Declarations are compared at the specifiers that they mention, and nowhere else. -/
theorem Declaration.Corresponds.of_impliedAt {d e : Declaration} (h : d.Corresponds P e)
    (hPQ : ImpliedAt P Q d.specifiers) : d.Corresponds Q e := by
  cases h with
  | typeAlias hps ht =>
    exact .typeAlias (TypeParameter.forall₂_of_impliedAt hps hPQ.left) (ht.of_impliedAt hPQ.right)
  | interface hps hts hms =>
    have hts := (TypeExpr.correspondsList_iff.mpr hts).of_impliedAt hPQ.left.right
    have hms := (TypeExpr.correspondsMembers_iff.mpr hms).of_impliedAt hPQ.right
    exact .interface (TypeParameter.forall₂_of_impliedAt hps hPQ.left.left)
      (TypeExpr.correspondsList_iff.mp hts) (TypeExpr.correspondsMembers_iff.mp hms)
  | classType => exact .classType
  | enumeration values => exact .enumeration values
  | variableOf constructed ht =>
    refine .variableOf constructed ?_
    cases ht with
    | none => exact .none
    | some ht => exact .some (ht.of_impliedAt hPQ)

theorem Table.Corresponds.of_impliedAt {ds es : Table Declaration}
    (h : ds.Corresponds (Declaration.Corresponds P) es)
    (hPQ : ImpliedAt P Q (ds.flatMap (·.2.specifiers))) :
    ds.Corresponds (Declaration.Corresponds Q) es := by
  induction h with
  | nil => exact .nil
  | cons hde _ ih => exact .cons ⟨hde.1, hde.2.of_impliedAt hPQ.left⟩ (ih hPQ.right)

/-- A relation may be exchanged for one that says the same at the specifiers of the module. -/
theorem Module.Corresponds.of_impliedAt {x y : Module} (h : x.Corresponds P y)
    (hPQ : ImpliedAt P Q x.specifiers) : x.Corresponds Q y :=
  ⟨Table.Corresponds.of_impliedAt h.declarations hPQ.right, h.imports, h.renames,
    h.exportedAliases⟩

/-- Corresponding parameters mention the same files in their defaults. -/
theorem TypeParameter.specifiers_eq {ps qs : List (TypeParameter ModuleId)}
    (h : List.Forall₂ (TypeParameter.Corresponds P) ps qs) :
    TypeParameter.specifiers qs = TypeParameter.specifiers ps := by
  induction h with
  | nil => rfl
  | @cons p q ps qs hpq _ ih =>
    obtain ⟨name, default⟩ := p
    obtain ⟨name', default'⟩ := q
    have hdefault : Option.Rel (TypeExpr.Corresponds P) default default' := hpq.default
    rw [TypeParameter.specifiers, TypeParameter.specifiers] at ih ⊢
    rw [List.flatMap_cons, List.flatMap_cons, ih]
    cases hdefault with
    | none => rfl
    | some ht => rw [Option.map_some, Option.map_some, ht.specifiers]

theorem Declaration.Corresponds.specifiers {d e : Declaration} (h : d.Corresponds P e) :
    e.specifiers = d.specifiers := by
  cases h with
  | typeAlias hps ht =>
    rw [Declaration.specifiers, Declaration.specifiers, TypeParameter.specifiers_eq hps,
      ht.specifiers]
  | interface hps hts hms =>
    rw [Declaration.specifiers, Declaration.specifiers, TypeParameter.specifiers_eq hps,
      (TypeExpr.correspondsList_iff.mpr hts).specifiers,
      (TypeExpr.correspondsMembers_iff.mpr hms).specifiers]
  | classType => rfl
  | enumeration values => rfl
  | variableOf constructed ht =>
    cases ht with
    | none => rfl
    | some ht =>
      rw [Declaration.specifiers, Declaration.specifiers, Option.map_some, Option.map_some,
        ht.specifiers]

theorem Table.Corresponds.specifiers {ds es : Table Declaration}
    (h : ds.Corresponds (Declaration.Corresponds P) es) :
    es.flatMap (·.2.specifiers) = ds.flatMap (·.2.specifiers) := by
  induction h with
  | nil => rfl
  | cons hde _ ih => rw [List.flatMap_cons, List.flatMap_cons, hde.2.specifiers, ih]

/-- Corresponding modules mention the same files. -/
theorem Module.Corresponds.specifiers {x y : Module} (h : x.Corresponds P y) :
    y.specifiers = x.specifiers := by
  rw [Module.specifiers, Module.specifiers, h.imports, Table.Corresponds.specifiers h.declarations]

end Declarations

/-! ## Where names are sent -/

section Leads

open Session (Lead)

variable {P : ScopeRelation ModuleId ModuleId} {x y : Module}

/-- Two ways of sending a name on that are the same but for the numbers in a declaration. -/
inductive Session.Lead.Corresponds (P : ScopeRelation ModuleId ModuleId) : Lead → Lead → Prop
  | declared {d e} : d.Corresponds P e → Corresponds P (.declared d) (.declared e)
  | renamed (name : String) : Corresponds P (.renamed name) (.renamed name)
  | imported (specifier name : String) :
    Corresponds P (.imported specifier name) (.imported specifier name)

/-- **Corresponding modules send every name the same way.** -/
theorem Module.Corresponds.lead? (h : x.Corresponds P y) (name : String) :
    Option.Rel (Lead.Corresponds P) (x.lead? name) (y.lead? name) := by
  rw [Module.lead?, Module.lead?, h.imports, h.renames]
  cases splitAt? '.' name.toList with
  | some parts =>
    dsimp only
    split
    · exact .some (.imported _ _)
    · exact .none
  | none =>
    dsimp only
    have hd := h.declarations.get? name
    generalize x.declarations.get? name = d? at hd
    generalize y.declarations.get? name = e? at hd
    cases hd with
    | some hde => exact .some (.declared hde)
    | none =>
      dsimp only
      split
      · exact .some (.renamed _)
      · split
        · exact .some (.imported _ _)
        · exact .none

/-- A name is sent to other files only under a specifier that the module mentions. -/
theorem Module.mem_specifiers_of_lead? {name specifier rest : String}
    (h : x.lead? name = some (.imported specifier rest)) : specifier ∈ x.specifiers := by
  have himport : ∀ key i, Table.get? x.imports key = some i → i.specifier ∈ x.specifiers :=
    fun key i hi => List.mem_append_left _
      (List.mem_map.mpr ⟨(key, i), Table.mem_of_get? hi, rfl⟩)
  rw [Module.lead?] at h
  split at h
  · split at h
    · next hi =>
      obtain ⟨rfl, -⟩ := Lead.imported.inj (Option.some.inj h)
      exact himport _ _ hi
    · exact absurd h (by simp)
  · split at h
    · exact absurd h (by simp)
    · split at h
      · exact absurd h (by simp)
      · split at h
        · next hi =>
          obtain ⟨rfl, -⟩ := Lead.imported.inj (Option.some.inj h)
          exact himport _ _ hi
        · exact absurd h (by simp)

end Leads

/-! ## Reading a file under two numbers -/

section Reading

variable {P : ScopeRelation ModuleId ModuleId} {m n : ModuleId} {x y : Module}

/-- A type as it is written has the same form in every module. -/
theorem TypeExpr.corresponds_inModule (h : ∀ o, P m n o) (t : TypeExpr Unit) :
    (t.inModule m).Corresponds P (t.inModule n) := corresponds_map (fun _ o => h o) t

theorem Member.corresponds_inModule (h : ∀ o, P m n o) (ms : List (Member (TypeExpr Unit))) :
    List.Forall₂ (Member.Corresponds (TypeExpr.Corresponds P)) (ms.map (·.inModule m))
      (ms.map (·.inModule n)) := by
  rw [List.forall₂_map_left_iff, List.forall₂_map_right_iff, List.forall₂_same]
  exact fun x _ => ⟨rfl, rfl, TypeExpr.corresponds_inModule h x.type⟩

theorem TypeParameter.corresponds_inModule (h : ∀ o, P m n o) (ps : List (TypeParameter Unit)) :
    List.Forall₂ (TypeParameter.Corresponds P) (ps.map (·.inModule m))
      (ps.map (·.inModule n)) := by
  rw [List.forall₂_map_left_iff, List.forall₂_map_right_iff, List.forall₂_same]
  rintro ⟨name, default⟩ -
  refine ⟨rfl, ?_⟩
  cases default with
  | none => exact .none
  | some t => exact .some (TypeExpr.corresponds_inModule h t)

namespace Module

theorem Corresponds.declare (h : x.Corresponds P y) (name : String) {d e : Declaration}
    (hde : d.Corresponds P e) : (x.declare name d).Corresponds P (y.declare name e) :=
  ⟨h.declarations.insert name hde, h.imports, h.renames, h.exportedAliases⟩

theorem Corresponds.exportAlias (h : x.Corresponds P y) (name : String) :
    Module.Corresponds P { x with exportedAliases := x.exportedAliases ++ [name] }
      { y with exportedAliases := y.exportedAliases ++ [name] } := by
  refine ⟨h.declarations, h.imports, h.renames, ?_⟩
  rw [h.exportedAliases]

/-- A pattern declares no variable, and a name declares one of a corresponding type. -/
theorem Corresponds.declareVariable (hmn : ∀ o, P m n o) (h : x.Corresponds P y)
    (d : Declarator) : (declareVariable m x d).Corresponds P (declareVariable n y d) := by
  rw [Module.declareVariable, Module.declareVariable]
  cases d.name with
  | none => exact h
  | some name =>
    refine h.declare name (.variableOf _ ?_)
    cases d.declaredType with
    | none => exact .none
    | some t => exact .some (TypeExpr.corresponds_inModule hmn t)

/-- An interface that is declared again adds to the one before, in both modules or in neither. -/
theorem Corresponds.declareInterface (h : x.Corresponds P y) (name : String)
    {ps qs : List (TypeParameter ModuleId)} {ts us : List (TypeExpr ModuleId)}
    {ms ns : List (Member (TypeExpr ModuleId))}
    (hps : List.Forall₂ (TypeParameter.Corresponds P) ps qs)
    (hts : List.Forall₂ (TypeExpr.Corresponds P) ts us)
    (hms : List.Forall₂ (Member.Corresponds (TypeExpr.Corresponds P)) ms ns) :
    (x.declareInterface name ps ts ms).Corresponds P (y.declareInterface name qs us ns) := by
  have hnew := h.declare name (.interface hps hts hms)
  rw [Module.declareInterface, Module.declareInterface]
  have hold := h.declarations.get? name
  generalize x.declarations.get? name = d? at hold
  generalize y.declarations.get? name = e? at hold
  cases hold with
  | none => exact hnew
  | some hde =>
    cases hde with
    | interface hps' hts' hms' =>
      exact h.declare name (.interface hps' (List.rel_append hts' hts) (List.rel_append hms' hms))
    | _ => exact hnew

theorem Corresponds.addDeclared (hmn : ∀ o, P m n o) (exported : Bool) (h : x.Corresponds P y)
    (d : Declared) : (x.addDeclared m exported d).Corresponds P (y.addDeclared n exported d) := by
  match d with
  | .typeAlias name ps body =>
    have hbody := Declaration.Corresponds.typeAlias (TypeParameter.corresponds_inModule hmn ps)
      (TypeExpr.corresponds_inModule hmn body)
    cases exported with
    | false => exact h.declare name hbody
    | true => exact (h.exportAlias name).declare name hbody
  | .interface name ps parents ms =>
    refine h.declareInterface name (TypeParameter.corresponds_inModule hmn ps) ?_
      (Member.corresponds_inModule hmn ms)
    rw [List.forall₂_map_left_iff, List.forall₂_map_right_iff, List.forall₂_same]
    exact fun t _ => TypeExpr.corresponds_inModule hmn t
  | .classType name => exact h.declare name .classType
  | .enumeration name values => exact h.declare name (.enumeration _)
  | .variables ds =>
    rw [Module.addDeclared, Module.addDeclared]
    induction ds generalizing x y with
    | nil => exact h
    | cons d ds ih => exact ih (h.declareVariable hmn d)

/-- Which names are aliases does not depend on the number, so the same ones are exported. -/
theorem Corresponds.isAlias (h : x.Corresponds P y) (name : String) :
    y.isAlias name = x.isAlias name := by
  rw [Module.isAlias, Module.isAlias]
  have hold := h.declarations.get? name
  generalize x.declarations.get? name = d? at hold
  generalize y.declarations.get? name = e? at hold
  cases hold with
  | none => rfl
  | some hde => cases hde <;> rfl

theorem Corresponds.addExport (specifier : Option String) (h : x.Corresponds P y)
    (names : String × String) :
    (x.addExport specifier names).Corresponds P (y.addExport specifier names) := by
  obtain ⟨localName, exported⟩ := names
  -- Where the name comes from is settled first, and then whether it is exported as an alias.
  have halias : ∀ x y : Module, x.Corresponds P y → Module.Corresponds P
      (if x.isAlias localName then { x with exportedAliases := x.exportedAliases ++ [exported] }
        else x)
      (if y.isAlias localName then { y with exportedAliases := y.exportedAliases ++ [exported] }
        else y) := by
    intro x y h
    rw [h.isAlias]
    split
    · exact h.exportAlias exported
    · exact h
  unfold Module.addExport
  cases specifier with
  | some file =>
    apply halias
    refine ⟨h.declarations, ?_, h.renames, h.exportedAliases⟩
    rw [h.imports]
  | none =>
    apply halias
    dsimp only
    split
    · exact h
    · refine ⟨h.declarations, h.imports, ?_, h.exportedAliases⟩
      rw [h.renames]

/-- What a statement adds, it adds to corresponding modules alike. -/
theorem Corresponds.addStatement (hmn : ∀ o, P m n o) (h : x.Corresponds P y) (s : Statement) :
    (addStatement m x s).Corresponds P (addStatement n y s) := by
  rw [Module.addStatement, Module.addStatement]
  cases s.meaning with
  | declares exported d => exact h.addDeclared hmn exported d
  | imports file names =>
    refine ⟨h.declarations, ?_, h.renames, h.exportedAliases⟩
    simp only [h.imports]
  | exports file names =>
    dsimp only
    induction names generalizing x y with
    | nil => exact h
    | cons name names ih => exact ih (h.addExport file name)
  | nothing => exact h

/-- **A file under two numbers, at two paths, is the same module.** -/
theorem corresponds_ofProgram (hmn : ∀ o, P m n o) (p q : Disk.Path) (program : Program) :
    (ofProgram m p program).Corresponds P (ofProgram n q program) := by
  have hall : ∀ (ss : List Statement) (x y : Module), x.Corresponds P y →
      (ss.foldl (Module.addStatement m) x).Corresponds P
        (ss.foldl (Module.addStatement n) y) := by
    intro ss
    induction ss with
    | nil => exact fun _ _ h => h
    | cons s ss ih => exact fun x y h => ih _ _ (h.addStatement hmn s)
  exact hall program.statements _ _ ⟨.nil, rfl, rfl, rfl⟩

/-- What a file mentions depends neither on its number nor on its path. -/
theorem specifiers_ofProgram (program : Program) (m : ModuleId) (p : Disk.Path) (n : ModuleId)
    (q : Disk.Path) : (ofProgram m p program).specifiers = (ofProgram n q program).specifiers :=
  (corresponds_ofProgram (P := fun _ _ _ => True) (fun _ => trivial) q p program).specifiers

/-! ### The path of a module -/

theorem path_declareVariable (m : ModuleId) (x : Module) (d : Declarator) :
    (declareVariable m x d).path = x.path := by
  rw [Module.declareVariable]
  split <;> rfl

theorem path_addDeclared (m : ModuleId) (exported : Bool) (x : Module) (d : Declared) :
    (x.addDeclared m exported d).path = x.path := by
  match d with
  | .typeAlias name ps body => cases exported <;> rfl
  | .interface name ps parents ms =>
    rw [Module.addDeclared, Module.declareInterface]
    split <;> rfl
  | .classType name => rfl
  | .enumeration name values => rfl
  | .variables ds =>
    rw [Module.addDeclared]
    induction ds generalizing x with
    | nil => rfl
    | cons d ds ih => exact (ih _).trans (path_declareVariable m x d)

theorem path_addExport (specifier : Option String) (x : Module) (names : String × String) :
    (x.addExport specifier names).path = x.path := by
  unfold Module.addExport
  cases specifier with
  | some file =>
    dsimp only
    split <;> rfl
  | none =>
    dsimp only
    split <;> split <;> rfl

/-- No statement says where the file is. -/
theorem path_addStatement (m : ModuleId) (x : Module) (s : Statement) :
    (addStatement m x s).path = x.path := by
  rw [Module.addStatement]
  cases s.meaning with
  | declares exported d => exact path_addDeclared m exported x d
  | imports file names => rfl
  | exports file names =>
    dsimp only
    induction names generalizing x with
    | nil => rfl
    | cons name names ih => exact (ih _).trans (path_addExport file x name)
  | nothing => rfl

/-- A module remembers the path it was loaded under. -/
theorem path_ofProgram (m : ModuleId) (p : Disk.Path) (program : Program) :
    (ofProgram m p program).path = p := by
  have hall : ∀ (ss : List Statement) (x : Module),
      (ss.foldl (Module.addStatement m) x).path = x.path := by
    intro ss
    induction ss with
    | nil => exact fun _ => rfl
    | cons s ss ih => exact fun x => (ih _).trans (path_addStatement m x s)
  exact hall program.statements _

end Module

end Reading

end Routebook
