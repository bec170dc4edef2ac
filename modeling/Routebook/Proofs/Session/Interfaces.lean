import Mathlib
import Routebook.Proofs.Session.Alike
import Routebook.Proofs.Session.Composition

/-!
# The members of an interface

An interface has its own members, those of all its declarations, and what its parents hand down,
who have it from parents of their own. Of its own members of one name the last one counts, and it
takes the place of what was inherited. Two parents that hand down the same name are both believed,
though, and a parent that is an intersection hands down nothing. **So a name that an interface
declares stands for one member, and any other for as many as there are ways in which it is handed
down** (`expand_of_heritage`), through any number of generations. There is one way for each name as
long as no parent is an intersection and no two parents share a name that is not the interface's
own.
-/

namespace Routebook

open Source
open Disk (Files)

/-! ## Interfaces of one name -/

namespace Source

/-- What one declaration of an interface says. -/
structure InterfacePart where
  params : List (TypeParameter Unit)
  parents : List (TypeExpr Unit)
  members : List (Member (TypeExpr Unit))

def Declared.declares (name : String) : Declared → Bool
  | .typeAlias n .. | .interface n .. | .classType n | .enumeration n _ => n == name
  | .variables ds => ds.any (·.name == some name)

def Statement.declares (name : String) (s : Statement) : Bool :=
  match s.meaning with
  | .declares _ d => d.declares name
  | _ => false

def Statement.interfacePart? (name : String) (s : Statement) : Option InterfacePart :=
  match s.meaning with
  | .declares _ (.interface n ps parents ms) => if n = name then some ⟨ps, parents, ms⟩ else none
  | _ => none

/-- Whether a file declares a name by nothing but interfaces. -/
def Program.OnlyInterface (name : String) (ss : List Statement) : Prop :=
  ∀ s ∈ ss, s.declares name = true → (s.interfacePart? name).isSome = true

instance (name : String) (ss : List Statement) : Decidable (Program.OnlyInterface name ss) :=
  inferInstanceAs (Decidable (∀ s ∈ ss, s.declares name = true → _))

end Source

/-- Interfaces of one name as one, with the parameters of the first. -/
def joinedInterface (m : ModuleId) : List InterfacePart → Option Declaration
  | [] => none
  | p :: ps => some <| .interface (p.params.map (·.inModule m))
      ((p :: ps).flatMap fun p => p.parents.map (·.inModule m))
      ((p :: ps).flatMap fun p => p.members.map (·.inModule m))

namespace Module

variable {m : ModuleId} {x : Module} {name : String}

theorem get?_declare_of_ne {other : String} (h : other ≠ name) (d : Declaration) :
    (x.declare other d).declarations.get? name = x.declarations.get? name := by
  rw [declare, Table.get?_insert, if_neg h.symm]

theorem get?_foldl_declareVariable {ds : List Declarator}
    (h : ds.any (·.name == some name) = false) :
    (ds.foldl (declareVariable m) x).declarations.get? name = x.declarations.get? name := by
  induction ds generalizing x with
  | nil => rfl
  | cons d ds ih =>
    rw [List.any_cons, Bool.or_eq_false_iff] at h
    rw [List.foldl_cons, ih h.2, declareVariable]
    cases hname : d.name with
    | none => rfl
    | some n => exact get?_declare_of_ne (by simpa [hname] using h.1) _

/-- What a statement does not declare stays as it is. -/
theorem get?_addStatement {s : Statement} (h : s.declares name = false) :
    (x.addStatement m s).declarations.get? name = x.declarations.get? name := by
  obtain ⟨meaning, parts⟩ := s
  cases meaning with
  | declares exported d =>
    match d with
    | .typeAlias n ps body =>
      cases exported <;> exact get?_declare_of_ne (ne_of_beq_false h) _
    | .interface n ps parents ms =>
      obtain ⟨_, _, _, hx⟩ := declareInterface_eq_declare x n (ps.map (·.inModule m))
        (parents.map (·.inModule m)) (ms.map (·.inModule m))
      show (x.declareInterface n _ _ _).declarations.get? name = _
      rw [hx]
      exact get?_declare_of_ne (ne_of_beq_false h) _
    | .classType n => exact get?_declare_of_ne (ne_of_beq_false h) _
    | .enumeration n values => exact get?_declare_of_ne (ne_of_beq_false h) _
    | .variables ds => exact get?_foldl_declareVariable h
  | imports file names => rfl
  | exports file names =>
    show (names.foldl (addExport file) x).declarations.get? name = _
    clear h
    induction names generalizing x with
    | nil => rfl
    | cons n names ih => rw [List.foldl_cons, ih, (addExport_eq x file n).1]
  | nothing => rfl

theorem addStatement_of_interfacePart? {s : Statement} {part : InterfacePart}
    (h : s.interfacePart? name = some part) :
    x.addStatement m s = x.declareInterface name (part.params.map (·.inModule m))
      (part.parents.map (·.inModule m)) (part.members.map (·.inModule m)) := by
  obtain ⟨meaning, parts⟩ := s
  rw [Statement.interfacePart?] at h
  split at h
  · next hmeaning =>
    split at h
    · next hn =>
      obtain rfl := Option.some.inj h
      obtain rfl := hn
      rw [addStatement, hmeaning]
      rfl
    · exact absurd h (by simp)
  · exact absurd h (by simp)

theorem get?_declareInterface {parts : List InterfacePart}
    (h : x.declarations.get? name = joinedInterface m parts) (part : InterfacePart) :
    (x.declareInterface name (part.params.map (·.inModule m)) (part.parents.map (·.inModule m))
      (part.members.map (·.inModule m))).declarations.get? name =
        joinedInterface m (parts ++ [part]) := by
  rw [declareInterface, h]
  cases parts with
  | nil | cons first parts =>
    show (x.declare name _).declarations.get? name = _
    rw [declare, Table.get?_insert, if_pos rfl]
    simp [joinedInterface]

/-- **Interfaces of one name are one interface with the parents and members of all.** -/
theorem get?_of_onlyInterface {ss : List Statement} (h : Program.OnlyInterface name ss)
    (path : Disk.Path) :
    (ss.foldl (addStatement m) (empty path)).declarations.get? name =
      joinedInterface m (ss.filterMap (·.interfacePart? name)) := by
  induction ss using List.reverseRecOn with
  | nil => rfl
  | append_singleton ss s ih =>
    have hss := ih fun s hs => h s (List.mem_append_left _ hs)
    rw [List.foldl_append, List.filterMap_append]
    generalize ss.foldl (addStatement m) (empty path) = x at hss
    generalize ss.filterMap (·.interfacePart? name) = parts at hss
    show (x.addStatement m s).declarations.get? name = _
    cases hs : s.interfacePart? name with
    | none =>
      have hother : s.declares name = false := by
        by_contra hdeclares
        have hpart := h s (List.mem_append_right _ (.head _)) (by simpa using hdeclares)
        rw [hs] at hpart
        exact absurd hpart (by simp)
      rw [get?_addStatement hother, hss, List.filterMap_cons_none hs, List.filterMap_nil,
        List.append_nil]
    | some part =>
      rw [List.filterMap_cons_some hs, List.filterMap_nil, addStatement_of_interfacePart? hs]
      exact get?_declareInterface hss part

end Module

/-- The last member of a name. -/
def Member.findLast? {τ : Type} (ms : List (Member τ)) (name : String) : Option (Member τ) :=
  ms.reverse.find? (·.name == name)

namespace Session

variable {fs : Files} {s s₁ s₂ : Session} {m target : ModuleId} {name : String}
  {t : TypeExpr ModuleId} {args : List (TypeExpr ModuleId)}

/-- A reference in a file that declares its name by interfaces names all of them as one. -/
theorem namesDeclaration_of_onlyInterface {path : Disk.Path} {p : Program}
    {d : Declaration} (hx : s.modules[m]? = some (.ofProgram m path p))
    (hname : splitAt? '.' name.toList = none) (honly : Program.OnlyInterface name p.statements)
    (hd : joinedInterface m (p.statements.filterMap (·.interfacePart? name)) = some d) :
    NamesDeclaration fs s (.reference name args m) m name args d s := by
  have hget : (Module.ofProgram m path p).declarations.get? name = some d :=
    (Module.get?_of_onlyInterface honly path).trans hd
  have hlead : (Module.ofProgram m path p).lead? name = some (.declared d) := by
    rw [Module.lead?, hname]
    simp only [hget]
  refine .reference ((lookupWithin_of_module? hx importLimit).trans ?_)
  rw [hlead]
  rfl

/-! ## Own members -/

theorem ownMembers_append_singleton (own : ObjectPart) (o : Member (TypeExpr ModuleId)) :
    ownMembers (own ++ [o]) = addOwnMember (ownMembers own) o := by
  rw [ownMembers, List.foldl_append]
  rfl

/-- A member gives way to a later one of its name, and to no other. -/
theorem filter_addOwnMember (ms : ObjectPart) (o : Member (TypeExpr ModuleId)) (n : String) :
    (addOwnMember ms o).filter (·.name == n) =
      if o.name = n then [o] else ms.filter (·.name == n) := by
  rw [addOwnMember, List.filter_append, List.filter_filter]
  by_cases ho : o.name = n
  · have hothers : ms.filter (fun x => x.name == n && x.name != o.name) = [] := by
      refine List.filter_eq_nil_iff.mpr fun x _ hx => ?_
      rw [Bool.and_eq_true, beq_iff_eq, bne_iff_ne] at hx
      exact hx.2 (hx.1.trans ho.symm)
    rw [hothers, if_pos ho, List.nil_append, List.filter_cons_of_pos (by simpa using ho)]
    rfl
  · have hothers : ms.filter (fun x => x.name == n && x.name != o.name) =
        ms.filter (·.name == n) := by
      refine List.filter_congr fun x _ => ?_
      by_cases hx : x.name = n
      · simpa [hx] using fun hn : n = o.name => ho hn.symm
      · simp [hx]
    rw [hothers, if_neg ho, List.filter_cons_of_neg (by simpa using ho), List.filter_nil,
      List.append_nil]

/-- **Of the own members of a name the last is kept, and no other.** -/
theorem filter_ownMembers (own : ObjectPart) (n : String) :
    (ownMembers own).filter (·.name == n) = (Member.findLast? own n).toList := by
  induction own using List.reverseRecOn with
  | nil => rfl
  | append_singleton own o ih =>
    rw [ownMembers_append_singleton, filter_addOwnMember, Member.findLast?, List.reverse_append,
      List.reverse_singleton, List.singleton_append, List.find?_cons]
    by_cases ho : o.name = n
    · rw [if_pos ho, beq_iff_eq.mpr ho]
      rfl
    · rw [if_neg ho, beq_false_of_ne ho, ih]
      rfl

theorem mem_names_iff {ms : ObjectPart} {n : String} :
    n ∈ ms.map (·.name) ↔ ms.filter (·.name == n) ≠ [] := by
  simp [List.filter_eq_nil_iff]

theorem findLast?_isSome {ms : ObjectPart} {n : String} :
    (Member.findLast? ms n).isSome = true ↔ n ∈ ms.map (·.name) := by
  simp [Member.findLast?, List.find?_isSome]

theorem mem_names_ownMembers {own : ObjectPart} {n : String} :
    n ∈ (ownMembers own).map (·.name) ↔ n ∈ own.map (·.name) := by
  rw [mem_names_iff, filter_ownMembers, ← findLast?_isSome]
  cases Member.findLast? own n <;> simp

theorem nodup_ownMembers (own : ObjectPart) : ((ownMembers own).map (·.name)).Nodup := by
  refine List.nodup_iff_count_le_one.mpr fun n => ?_
  rw [List.count_eq_countP, List.countP_map, List.countP_eq_length_filter]
  show ((ownMembers own).filter (·.name == n)).length ≤ 1
  rw [filter_ownMembers]
  exact Option.length_toList_le

/-! ## Own members and inherited ones -/

section Joined

variable {own handed : ObjectPart} {n : String}

theorem names_foldl_addOwnMember (own handed : ObjectPart) :
    (own.foldl addOwnMember handed).map (·.name) =
      (handed.map (·.name)).filter (· ∉ own.map (·.name)) ++ (ownMembers own).map (·.name) := by
  rw [foldl_addOwnMember, List.map_append, List.filter_map]
  congr 2
  refine List.filter_congr fun x _ => ?_
  rw [Bool.eq_iff_iff]
  simp

theorem filter_foldl_addOwnMember {o : Member (TypeExpr ModuleId)}
    (h : Member.findLast? own n = some o) :
    (own.foldl addOwnMember handed).filter (·.name == n) = [o] := by
  have hhanded : (handed.filter fun x => !own.any (·.name == x.name)).filter (·.name == n) =
      [] := by
    refine List.filter_eq_nil_iff.mpr fun x hx hn => ?_
    obtain ⟨o, ho, hon⟩ := List.mem_map.mp (findLast?_isSome.mp (by rw [h]; rfl))
    have hx := (List.mem_filter.mp hx).2
    rw [Bool.not_eq_true', List.any_eq_false] at hx
    exact hx o ho (by rw [hon, beq_iff_eq.mp hn, beq_self_eq_true])
  rw [foldl_addOwnMember, List.filter_append, hhanded, filter_ownMembers, h]
  rfl

/-- An own name comes once, whatever was handed down, and another as often as it was. -/
theorem count_names_foldl_addOwnMember :
    ((own.foldl addOwnMember handed).map (·.name)).count n =
      if n ∈ own.map (·.name) then 1 else (handed.map (·.name)).count n := by
  rw [names_foldl_addOwnMember, List.count_append]
  by_cases hn : n ∈ own.map (·.name)
  · have hhanded : n ∉ (handed.map (·.name)).filter (· ∉ own.map (·.name)) :=
      fun h => of_decide_eq_true (List.mem_filter.mp h).2 hn
    rw [if_pos hn, List.count_eq_zero_of_not_mem hhanded,
      List.count_eq_one_of_mem (nodup_ownMembers own) (mem_names_ownMembers.mpr hn)]
  · have hown : n ∉ (ownMembers own).map (·.name) := fun h => hn (mem_names_ownMembers.mp h)
    rw [if_neg hn, List.count_eq_zero_of_not_mem hown, List.count_filter (by simpa using hn)]
    rfl

end Joined

/-! ## Heritage -/

/-- Where the names of a type's members come from: from an object, from the parts of an
intersection, or from an interface and its parents. -/
inductive Heritage where
  | object (names : List String)
  | intersection (parts : List Heritage)
  | interface (own : List String) (parents : List Heritage)

mutual
/-- Whether a name is declared anywhere in a heritage. -/
def Heritage.Has (n : String) : Heritage → Prop
  | .object names => n ∈ names
  | .intersection parts => SomeHas n parts
  | .interface own parents => n ∈ own ∨ SomeHas n parents
def SomeHas (n : String) : List Heritage → Prop
  | [] => False
  | h :: hs => h.Has n ∨ SomeHas n hs
end

mutual
/-- In how many ways a name is handed down: once if it is the interface's own, and else as often as
by all parents together. An intersection hands nothing down. -/
def Heritage.times (n : String) : Heritage → Nat
  | .object names => names.count n
  | .intersection _ => 0
  | .interface own parents => if n ∈ own then 1 else timesAll n parents
def timesAll (n : String) : List Heritage → Nat
  | [] => 0
  | h :: hs => h.times n + timesAll n hs
end

mutual
/-- The heritage of a type that is resolved in a number of steps. An interface resolves its parents
inside itself, one after another. -/
inductive Stems (fs : Files) : Nat → Session → TypeExpr ModuleId → Heritage → Session → Prop where
  | object {k : Nat} {s : Session} {ms : ObjectPart} :
    Stems fs k s (.object ms) (.object (ms.map (·.name))) s
  | intersection {k : Nat} {s s' : Session} {ts : List (TypeExpr ModuleId)} {hs : List Heritage}
    (hparts : StemsAll fs s ts hs s') : Stems fs k s (.intersection ts) (.intersection hs) s
  | alias {k : Nat} {s s₁ s' : Session} {t body : TypeExpr ModuleId} {m : ModuleId} {name : String}
    {args : List (TypeExpr ModuleId)} {ps : List (TypeParameter ModuleId)} {h : Heritage}
    (hnames : NamesDeclaration fs s t m name args (.typeAlias ps body) s₁)
    (hbody : Stems fs k s₁ (body.substitute (bind ps args)) h s') : Stems fs (k + 1) s t h s'
  | query {k : Nat} {s s₁ s' : Session} {t : TypeExpr ModuleId} {m : ModuleId} {name : String}
    {h : Heritage} (hexpand : expand (.query name m) fs s = some (some t, s₁))
    (hvariable : Stems fs k s₁ t h s') : Stems fs (k + 1) s (.query name m) h s'
  | interface {k : Nat} {s s₁ s₂ : Session} {t : TypeExpr ModuleId} {m : ModuleId} {name : String}
    {args parents : List (TypeExpr ModuleId)} {ps : List (TypeParameter ModuleId)}
    {members : ObjectPart} {hs : List Heritage}
    (hnames : NamesDeclaration fs s t m name args (.interface ps parents members) s₁)
    (hguard : s₁.expanding.contains (m, name) = false)
    (hparents : StemsAll fs (s₁.enter (m, name)) (parents.map (·.substitute (bind ps args)))
      hs s₂) :
    Stems fs (k + 1) s t (.interface (members.map (·.name)) hs) s₂.leave
inductive StemsAll (fs : Files) :
    Session → List (TypeExpr ModuleId) → List Heritage → Session → Prop where
  | nil {s : Session} : StemsAll fs s [] [] s
  | cons {s s₁ s' : Session} {t : TypeExpr ModuleId} {ts : List (TypeExpr ModuleId)}
    {h : Heritage} {hs : List Heritage} (ht : Stems fs resolveLimit s t h s₁)
    (hts : StemsAll fs s₁ ts hs s') : StemsAll fs s (t :: ts) (h :: hs) s'
end

mutual
/-- No two parents of an interface have a name that is not the interface's own, and no parent is an
intersection. -/
def Heritage.Unambiguous : Heritage → Prop
  | .object names => names.Nodup
  | .intersection _ => False
  | .interface own parents => UnambiguousBut own parents
def UnambiguousBut (own : List String) : List Heritage → Prop
  | [] => True
  | h :: hs => h.Unambiguous ∧ UnambiguousBut own hs ∧ ∀ n, h.Has n → SomeHas n hs → n ∈ own
end

mutual
theorem Heritage.times_eq_zero {n : String} : ∀ {h : Heritage}, ¬ h.Has n → h.times n = 0
  | .object _, hn => List.count_eq_zero_of_not_mem hn
  | .intersection _, _ => rfl
  | .interface own parents, hn => by
    rw [Heritage.Has, not_or] at hn
    rw [Heritage.times, if_neg hn.1, timesAll_eq_zero hn.2]
theorem timesAll_eq_zero {n : String} : ∀ {hs : List Heritage}, ¬ SomeHas n hs → timesAll n hs = 0
  | [], _ => rfl
  | h :: hs, hn => by
    rw [SomeHas, not_or] at hn
    rw [timesAll, h.times_eq_zero hn.1, timesAll_eq_zero hn.2]
end

mutual
/-- In an unambiguous heritage there is one way for each name. -/
theorem Heritage.times_eq_one {n : String} :
    ∀ {h : Heritage}, h.Unambiguous → h.Has n → h.times n = 1
  | .object _, hnodup, hn => List.count_eq_one_of_mem hnodup hn
  | .interface own parents, hparents, hn => by
    rw [Heritage.times]
    by_cases hown : n ∈ own
    · rw [if_pos hown]
    · rw [if_neg hown]
      exact timesAll_eq_one hparents hown (hn.resolve_left hown)
theorem timesAll_eq_one {n : String} {own : List String} : ∀ {hs : List Heritage},
    UnambiguousBut own hs → n ∉ own → SomeHas n hs → timesAll n hs = 1
  | h :: hs, hhs, hown, hn => by
    rw [UnambiguousBut] at hhs
    obtain ⟨hh, hrest, hshared⟩ := hhs
    rw [timesAll]
    -- It is in the first of them or in the others, and not in both.
    rcases hn with hn | hn
    · rw [h.times_eq_one hh hn, timesAll_eq_zero fun hothers => hown (hshared n hn hothers)]
    · rw [timesAll_eq_one hrest hown hn, h.times_eq_zero fun hfirst => hown (hshared n hfirst hn)]
end

/-! ## The members of an interface -/

theorem names_substitute (b : TypeExpr.Bindings ModuleId) (ms : ObjectPart) :
    (ms.map (·.substitute b)).map (·.name) = ms.map (·.name) := by
  rw [List.map_map]
  rfl

mutual
/-- **A type resolves to an object that has every name as often as it is handed down.** -/
theorem resolveWithin_of_stems : ∀ {k : Nat} {s s' : Session} {t : TypeExpr ModuleId}
    {h : Heritage}, Stems fs k s t h s' → ∃ shape, resolveWithin k t fs s = some (shape, s') ∧
      ∀ n, ((shape.members?.getD []).map (·.name)).count n = h.times n
  | _, _, _, _, _, .object => ⟨_, resolveWithin_of_shape rfl _, fun _ => rfl⟩
  | _, _, _, _, _, .intersection _ => ⟨_, resolveWithin_of_shape rfl _, fun _ => rfl⟩
  | _, _, _, _, _, .alias hnames hbody => by
    obtain ⟨shape, hshape, htimes⟩ := resolveWithin_of_stems hbody
    refine ⟨shape, (resolveWithin_of_expand ?_ _).trans hshape, htimes⟩
    rw [expand_of_namesDeclaration hnames, expandDeclaration_typeAlias]
  | _, _, _, _, _, .query hexpand hvariable => by
    obtain ⟨shape, hshape, htimes⟩ := resolveWithin_of_stems hvariable
    exact ⟨shape, (resolveWithin_of_expand hexpand _).trans hshape, htimes⟩
  | _, _, _, _, _, .interface hnames hguard hparents => by
    obtain ⟨shapes, hshapes, htimes⟩ := mapM_resolve_of_stemsAll hparents
    refine ⟨_, (resolveWithin_of_expand (expand_of_shapes hnames hguard hshapes) _).trans
      (resolveWithin_of_shape rfl _), fun n => ?_⟩
    rw [TypeExpr.members?, Option.getD_some, names_substitute, count_names_foldl_addOwnMember,
      htimes, Heritage.times]
theorem mapM_resolve_of_stemsAll : ∀ {s s' : Session} {ts : List (TypeExpr ModuleId)}
    {hs : List Heritage}, StemsAll fs s ts hs s' → ∃ shapes,
      (ts.mapM resolve).on fs s = some (shapes, s') ∧
        ∀ n, ((inherited shapes).map (·.name)).count n = timesAll n hs
  | _, _, _, _, .nil => ⟨[], rfl, fun _ => rfl⟩
  | _, _, _, _, .cons ht hts => by
    obtain ⟨shape, hshape, htimes⟩ := resolveWithin_of_stems ht
    obtain ⟨shapes, hshapes, hrest⟩ := mapM_resolve_of_stemsAll hts
    refine ⟨_, Analysis.on_mapM_cons.mpr ⟨shape, _, shapes, hshape, hshapes, rfl⟩, fun n => ?_⟩
    rw [inherited, List.flatMap_cons, List.map_append, List.count_append, htimes, timesAll]
    rw [← hrest n]
    rfl
end

/-- **An interface has every name as often as it is handed down to it, and its own once.** A name it
declares has the type and optionality of its last declaration. There is no member without a name
that the interface or an ancestor declares. In an unambiguous heritage every such name has exactly
one member. -/
theorem expand_of_heritage {ps : List (TypeParameter ModuleId)} {parents : List (TypeExpr ModuleId)}
    {members : ObjectPart} {hs : List Heritage}
    (hnames : NamesDeclaration fs s t target name args (.interface ps parents members) s₁)
    (hguard : s₁.expanding.contains (target, name) = false)
    (hparents : StemsAll fs (s₁.enter (target, name)) (parents.map (·.substitute (bind ps args)))
      hs s₂) :
    let heritage := Heritage.interface (members.map (·.name)) hs
    ∃ ms, expand t fs s = some (some (.object ms), s₂.leave) ∧
      (∀ n own, Member.findLast? members n = some own →
        ms.filter (·.name == n) = [own.substitute (bind ps args)]) ∧
      (∀ n, (ms.map (·.name)).count n = heritage.times n) ∧
      (∀ x ∈ ms, heritage.Has x.name) ∧
      (heritage.Unambiguous → ∀ n, heritage.Has n → (ms.map (·.name)).count n = 1) := by
  intro heritage
  obtain ⟨shapes, hshapes, htimes⟩ := mapM_resolve_of_stemsAll hparents
  have hexpand := expand_of_shapes hnames hguard hshapes
  have hcount : ∀ n, (((members.foldl addOwnMember (inherited shapes)).map
      (·.substitute (bind ps args))).map (·.name)).count n = heritage.times n := by
    intro n
    rw [names_substitute, count_names_foldl_addOwnMember, htimes]
    rfl
  refine ⟨_, hexpand, fun n own hown => ?_, hcount, fun x hx => ?_,
    fun hheritage n hn => (hcount n).trans (heritage.times_eq_one hheritage hn)⟩
  · rw [List.filter_map]
    exact congrArg (List.map (·.substitute (bind ps args))) (filter_foldl_addOwnMember hown)
  · by_contra hnot
    have hzero := (hcount x.name).trans (heritage.times_eq_zero hnot)
    exact List.count_eq_zero.mp hzero (List.mem_map_of_mem hx)

/-! ### Two parents with one ancestor, and an intersection -/

section Family

/-- An interface whose members are all texts. -/
def textInterface (name : String) (parents : List String) (members : List (String × Bool)) :
    Statement :=
  ⟨.declares true (.interface name [] (parents.map fun p => .reference p [] ())
    (members.map fun x => ⟨x.1, x.2, .keyword .string⟩)), []⟩

/-- An interface in two declarations has three parents: two with one ancestor, and an
intersection. -/
def familyFile : Program :=
  ⟨[textInterface "Base" [] [("id", false)], textInterface "Left" ["Base"] [("left", false)],
    textInterface "Right" ["Base"] [("right", false)],
    textInterface "Item" ["Left", "Right"] [("own", false)],
    ⟨.declares true (.typeAlias "Extra" [] (.intersection
      [.reference "Left" [] (), .object [⟨"extra", false, .keyword .string⟩]])), []⟩,
    textInterface "Item" ["Extra"] [("own", true)]], false⟩

def familySession : Session := .ofFile ⟨"items.ts"⟩ familyFile

def leftHeritage : Heritage := .interface ["left"] [.interface ["id"] []]

def rightHeritage : Heritage := .interface ["right"] [.interface ["id"] []]

def extraHeritage : Heritage := .intersection [leftHeritage, .object ["extra"]]

/-- The session in which the parents of the interface are resolved. -/
def insideItem : Session := familySession.enter (0, "Item")

/-- An interface for which nothing has to be loaded leaves the session as it is. -/
theorem stems_of_loaded {k : Nat} {parents : List (TypeExpr ModuleId)} {members : ObjectPart}
    {own : List String} {hs : List Heritage}
    (hlookup : (lookup m name).on fs s = some (some (m, .interface [] parents members), s))
    (hown : members.map (·.name) = own) (hguard : s.expanding.contains (m, name) = false)
    (hparents : StemsAll fs (s.enter (m, name)) (parents.map (·.substitute (bind [] []))) hs
      (s.enter (m, name))) :
    Stems fs (k + 1) s (.reference name [] m) (.interface own hs) s :=
  hown ▸ .interface (.reference hlookup) hguard hparents

theorem stems_left : Stems ⟨[], []⟩ resolveLimit insideItem (.reference "Left" [] 0) leftHeritage
    insideItem :=
  stems_of_loaded rfl rfl rfl (.cons (stems_of_loaded rfl rfl rfl .nil) .nil)

theorem stems_right : Stems ⟨[], []⟩ resolveLimit insideItem (.reference "Right" [] 0)
    rightHeritage insideItem :=
  stems_of_loaded rfl rfl rfl (.cons (stems_of_loaded rfl rfl rfl .nil) .nil)

theorem stems_extra : Stems ⟨[], []⟩ resolveLimit insideItem (.reference "Extra" [] 0)
    extraHeritage insideItem :=
  .alias (.reference rfl) (.intersection (.cons stems_left (.cons .object .nil)))

/-- The second declaration counts for what the interface has itself. The ancestor's member comes
twice, and the member that only the intersection has is missing. -/
theorem expand_of_heritage_family : ∃ ms,
    expand (.reference "Item" [] 0) ⟨[], []⟩ familySession =
      some (some (.object ms), familySession) ∧
    ms.filter (·.name == "own") = textMembers [("own", true)] ∧
    (ms.map (·.name)).count "left" = 1 ∧ (ms.map (·.name)).count "id" = 2 ∧
    (Heritage.interface ["own", "own"] [leftHeritage, rightHeritage, extraHeritage]).Has "extra" ∧
    (ms.map (·.name)).count "extra" = 0 := by
  have hnames : NamesDeclaration ⟨[], []⟩ familySession (.reference "Item" [] 0) 0 "Item" []
      (.interface [] [.reference "Left" [] 0, .reference "Right" [] 0, .reference "Extra" [] 0]
        (textMembers [("own", false), ("own", true)])) familySession :=
    namesDeclaration_of_onlyInterface rfl (by decide) (by decide) rfl
  have hparents : StemsAll ⟨[], []⟩ insideItem
      [.reference "Left" [] 0, .reference "Right" [] 0, .reference "Extra" [] 0]
      [leftHeritage, rightHeritage, extraHeritage] insideItem :=
    .cons stems_left (.cons stems_right (.cons stems_extra .nil))
  obtain ⟨ms, hms, hown, hcount, -, -⟩ := expand_of_heritage hnames rfl hparents
  have hextra : (Heritage.interface ["own", "own"]
      [leftHeritage, rightHeritage, extraHeritage]).Has "extra" :=
    .inr (.inr (.inr (.inl (.inr (.inl (.head _))))))
  exact ⟨ms, hms, hown "own" _ rfl, (hcount "left").trans rfl, (hcount "id").trans rfl, hextra,
    (hcount "extra").trans rfl⟩

end Family

end Session

end Routebook
