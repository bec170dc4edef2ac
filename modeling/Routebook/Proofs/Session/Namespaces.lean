import Routebook.Proofs.Disk.Files
import Routebook.Proofs.Session.Alike
import Routebook.Proofs.Session.Declared

/-!
# Types and variables of one name

A file may declare a type and a variable of one name; a type then means the type and `typeof` means
the variable. A module has one table for both, in which a later declaration takes the place of an
earlier one. **So the type is found as if there were no variable of its name if it is declared behind
all such variables, and the variable as if there were no type if it is declared behind all such
types** (`expand_of_separated`): the other of the two is lost.
-/

namespace Routebook

open Disk (Files Path)

/-! ## Files without a variable, files without a type -/

namespace Source

variable {name : String}

def Declared.isTypeOf (name : String) : Declared → Bool
  | .typeAlias n .. | .interface n .. => n == name
  | _ => false

def Declared.hasVariable (name : String) : Declared → Bool
  | .variables ds => ds.any (·.name == some name)
  | _ => false

def Declared.withoutVariable (name : String) : Declared → Declared
  | .variables ds => .variables (ds.filter fun d => !(d.name == some name))
  | d => d

def Statement.isTypeOf (name : String) (s : Statement) : Bool :=
  match s.meaning with
  | .declares _ d => d.isTypeOf name
  | _ => false

def Statement.hasVariable (name : String) (s : Statement) : Bool :=
  match s.meaning with
  | .declares _ d => d.hasVariable name
  | _ => false

def Statement.withoutVariable (name : String) (s : Statement) : Statement :=
  match s.meaning with
  | .declares exported d => { s with meaning := .declares exported (d.withoutVariable name) }
  | _ => s

def Statement.withoutType (name : String) (s : Statement) : Statement :=
  if s.isTypeOf name then { s with meaning := .nothing } else s

def Program.withoutVariable (name : String) (p : Program) : Program :=
  { p with statements := p.statements.map (·.withoutVariable name) }

def Program.withoutType (name : String) (p : Program) : Program :=
  { p with statements := p.statements.map (·.withoutType name) }

/-- A type is declared under a name, behind all variables of that name. -/
structure Program.TypeLast (name : String) (p : Program) (before : List Statement) (s : Statement)
    (after : List Statement) : Prop where
  statements : p.statements = before ++ s :: after
  isType : s.isTypeOf name = true
  before : ∀ b ∈ before, b.isTypeOf name = false
  after : ∀ a ∈ after, a.hasVariable name = false

/-- A variable is declared under a name, behind all types of that name. -/
structure Program.VariableLast (name : String) (p : Program) (before : List Statement)
    (s : Statement) (after : List Statement) : Prop where
  statements : p.statements = before ++ s :: after
  hasVariable : s.hasVariable name = true
  after : ∀ a ∈ after, a.isTypeOf name = false

/-- A file, and the file without what a declaration of the same name takes the place of. -/
inductive Program.Separated (p : Program) : Program → Prop
  | withoutVariable {name before s after} : p.TypeLast name before s after →
    Separated p (p.withoutVariable name)
  | withoutType {name before s after} : p.VariableLast name before s after →
    Separated p (p.withoutType name)

theorem Declared.withoutVariable_eq_self {d : Declared} (h : d.hasVariable name = false) :
    d.withoutVariable name = d := by
  match d with
  | .variables ds =>
    rw [Declared.hasVariable, List.any_eq_false] at h
    rw [Declared.withoutVariable, List.filter_eq_self.mpr fun d hd => by simpa using h d hd]
  | .typeAlias .. | .interface .. | .classType _ | .enumeration .. => rfl

theorem Statement.withoutVariable_eq_self {s : Statement} (h : s.hasVariable name = false) :
    s.withoutVariable name = s := by
  obtain ⟨meaning, parts⟩ := s
  cases meaning with
  | declares exported d =>
    have hd : d.withoutVariable name = d := Declared.withoutVariable_eq_self h
    simp only [Statement.withoutVariable, hd]
  | _ => rfl

theorem Statement.withoutType_eq_self {s : Statement} (h : s.isTypeOf name = false) :
    s.withoutType name = s := by
  rw [Statement.withoutType, h]
  rfl

theorem Statement.isTypeOf_withoutVariable (name other : String) (s : Statement) :
    (s.withoutVariable name).isTypeOf other = s.isTypeOf other := by
  obtain ⟨meaning, parts⟩ := s
  cases meaning with
  | declares exported d => cases d <;> rfl
  | _ => rfl

/-- What declares a type declares no variable. -/
theorem Statement.hasVariable_of_isTypeOf {other : String} {s : Statement}
    (h : s.isTypeOf name = true) : s.hasVariable other = false := by
  obtain ⟨meaning, parts⟩ := s
  cases meaning with
  | declares exported d =>
    match d with
    | .variables ds => exact absurd h (by simp [Statement.isTypeOf, Declared.isTypeOf])
    | .typeAlias .. | .interface .. | .classType _ | .enumeration .. => rfl
  | _ => rfl

end Source

open Source (Program Statement Declared Declarator)

namespace Module

variable {x z : Module} {I R : String → Prop} {m : ModuleId} {name : String}

/-! ## Declarations that only one module takes in -/

/-- What is declared under a name makes a difference there. -/
theorem AlikeOff.declare_left (h : x.AlikeOff (· = name) I R z) (d : Declaration) :
    (x.declare name d).AlikeOff (· = name) I R z := by
  refine ⟨h.path, fun other hother => ?_, h.imports, h.renames⟩
  rw [Module.declare, Table.get?_insert, if_neg hother, h.declarations other hother]

/-- What is declared under the name where modules differ settles the difference. -/
theorem AlikeOff.declare_same (h : x.AlikeOff (· = name) I R z) (d : Declaration) :
    (x.declare name d).AlikeOff (fun _ => False) I R (z.declare name d) := by
  refine ⟨h.path, fun other _ => ?_, h.imports, h.renames⟩
  rw [Module.declare, Module.declare, Table.get?_insert, Table.get?_insert]
  by_cases hother : other = name
  · rw [if_pos hother, if_pos hother]
  · rw [if_neg hother, if_neg hother, h.declarations other hother]

/-- Variables with and without those of a name. -/
theorem AlikeOff.declareVariables_filter (h : x.AlikeOff (· = name) I R z) (ds : List Declarator) :
    (ds.foldl (Module.declareVariable m) x).AlikeOff (· = name) I R
      ((ds.filter fun d => !(d.name == some name)).foldl (Module.declareVariable m) z) := by
  induction ds generalizing x z with
  | nil => exact h
  | cons d ds ih =>
    rw [List.foldl_cons, List.filter_cons]
    by_cases hd : d.name = some name
    · rw [if_neg (by simp [hd])]
      refine ih ?_
      rw [Module.declareVariable, hd]
      exact h.declare_left _
    · rw [if_pos (by simp [hd])]
      exact ih (h.declareVariable d)

theorem AlikeOff.addStatement_withoutVariable (h : x.AlikeOff (· = name) I R z) (s : Statement) :
    (x.addStatement m s).AlikeOff (· = name) I R (z.addStatement m (s.withoutVariable name)) := by
  by_cases hs : s.hasVariable name = true
  · obtain ⟨meaning, parts⟩ := s
    cases meaning with
    | declares exported d =>
      match d with
      | .variables ds => exact h.declareVariables_filter ds
      | .typeAlias .. | .interface .. | .classType _ | .enumeration .. =>
        exact absurd hs (by simp [Statement.hasVariable, Declared.hasVariable])
    | _ => exact absurd hs (by simp [Statement.hasVariable])
  · rw [Statement.withoutVariable_eq_self (by simpa using hs)]
    exact h.addStatement s

theorem AlikeOff.addStatement_withoutType (h : x.AlikeOff (· = name) I R z) (s : Statement) :
    (x.addStatement m s).AlikeOff (· = name) I R (z.addStatement m (s.withoutType name)) := by
  by_cases hs : s.isTypeOf name = true
  · obtain ⟨meaning, parts⟩ := s
    rw [Statement.withoutType, if_pos hs]
    cases meaning with
    | declares exported d =>
      cases d with
      | typeAlias n ps body =>
        obtain rfl : n = name := by simpa [Statement.isTypeOf, Declared.isTypeOf] using hs
        cases exported with
        | false => exact h.declare_left _
        | true => exact (h.of_exportedAliases _ z.exportedAliases).declare_left _
      | interface n ps parents ms =>
        obtain rfl : n = name := by simpa [Statement.isTypeOf, Declared.isTypeOf] using hs
        obtain ⟨_, _, _, hx⟩ := declareInterface_eq_declare x n (ps.map (·.inModule m))
          (parents.map (·.inModule m)) (ms.map (·.inModule m))
        show AlikeOff _ I R (x.declareInterface n _ _ _) z
        rw [hx]
        exact h.declare_left _
      | _ => exact absurd hs (by simp [Statement.isTypeOf, Declared.isTypeOf])
    | _ => exact absurd hs (by simp [Statement.isTypeOf])
  · rw [Statement.withoutType_eq_self (by simpa using hs)]
    exact h.addStatement s

/-! ## Declarations that settle the difference -/

/-- Nothing is declared under a name that an interface would be joined to. -/
def NoInterface (name : String) (x : Module) : Prop :=
  ∀ ps parents ms, x.declarations.get? name ≠ some (.interface ps parents ms)

theorem NoInterface.declare (h : x.NoInterface name) {other : String} {d : Declaration}
    (hd : other = name → ∀ ps parents ms, d ≠ .interface ps parents ms) :
    (x.declare other d).NoInterface name := by
  intro ps parents ms
  rw [Module.declare, Table.get?_insert]
  by_cases hother : name = other
  · rw [if_pos hother]
    exact fun he => hd hother.symm ps parents ms (Option.some.inj he)
  · rw [if_neg hother]
    exact h ps parents ms

theorem NoInterface.foldl_declareVariable (h : x.NoInterface name) (ds : List Declarator) :
    (ds.foldl (Module.declareVariable m) x).NoInterface name := by
  induction ds generalizing x with
  | nil => exact h
  | cons d ds ih =>
    refine ih ?_
    rw [Module.declareVariable]
    cases d.name with
    | none => exact h
    | some n => exact h.declare fun _ _ _ _ => Declaration.noConfusion

theorem NoInterface.addStatement (h : x.NoInterface name) {s : Statement}
    (hs : s.isTypeOf name = false) : (x.addStatement m s).NoInterface name := by
  obtain ⟨meaning, parts⟩ := s
  cases meaning with
  | declares exported d =>
    match d with
    | .typeAlias n ps body => cases exported <;> exact NoInterface.declare h fun _ => nofun
    | .interface n ps parents ms =>
      obtain ⟨_, _, _, hx⟩ := declareInterface_eq_declare x n (ps.map (·.inModule m))
        (parents.map (·.inModule m)) (ms.map (·.inModule m))
      show (x.declareInterface n _ _ _).NoInterface name
      rw [hx]
      exact h.declare fun hn => absurd hs (by simp [Statement.isTypeOf, Declared.isTypeOf, hn])
    | .classType n => exact h.declare fun _ => nofun
    | .enumeration n values => exact h.declare fun _ => nofun
    | .variables ds => exact h.foldl_declareVariable ds
  | imports file names => exact h
  | exports file names =>
    show (names.foldl (Module.addExport file) x).NoInterface name
    clear hs
    induction names generalizing x with
    | nil => exact h
    | cons n names ih =>
      refine ih fun ps parents ms => ?_
      rw [(addExport_eq x file n).1]
      exact h ps parents ms
  | nothing => exact h

theorem NoInterface.foldl_addStatement (h : x.NoInterface name) {ss : List Statement}
    (hss : ∀ s ∈ ss, s.isTypeOf name = false) :
    (ss.foldl (Module.addStatement m) x).NoInterface name := by
  induction ss generalizing x with
  | nil => exact h
  | cons s ss ih =>
    obtain ⟨hs, hss⟩ := List.forall_mem_cons.mp hss
    exact ih (h.addStatement hs) hss

theorem declareInterface_of_noInterface (h : x.NoInterface name)
    (ps : List (TypeParameter ModuleId)) (parents : List (TypeExpr ModuleId))
    (ms : List (Member (TypeExpr ModuleId))) :
    x.declareInterface name ps parents ms = x.declare name (.interface ps parents ms) := by
  rw [declareInterface]
  split
  · next hinterface => exact absurd hinterface (h _ _ _)
  · rfl

/-- A type takes the place of what both modules have under its name, unless it is joined to it. -/
theorem AlikeOff.addStatement_isTypeOf (h : x.AlikeOff (· = name) I R z)
    (hx : x.NoInterface name) (hz : z.NoInterface name) {s : Statement}
    (hs : s.isTypeOf name = true) :
    (x.addStatement m s).AlikeOff (fun _ => False) I R (z.addStatement m s) := by
  obtain ⟨meaning, parts⟩ := s
  cases meaning with
  | declares exported d =>
    match d with
    | .typeAlias n ps body =>
      obtain rfl : n = name := by simpa [Statement.isTypeOf, Declared.isTypeOf] using hs
      cases exported with
      | false => exact h.declare_same _
      | true => exact (h.of_exportedAliases _ _).declare_same _
    | .interface n ps parents ms =>
      obtain rfl : n = name := by simpa [Statement.isTypeOf, Declared.isTypeOf] using hs
      show AlikeOff _ I R (x.declareInterface n _ _ _) (z.declareInterface n _ _ _)
      rw [declareInterface_of_noInterface hx, declareInterface_of_noInterface hz]
      exact h.declare_same _
    | .classType _ | .enumeration .. | .variables _ =>
      exact absurd hs (by simp [Statement.isTypeOf, Declared.isTypeOf])
  | _ => exact absurd hs (by simp [Statement.isTypeOf])

/-- A variable takes the place of whatever both modules have under its name. -/
theorem AlikeOff.addStatement_hasVariable (h : x.AlikeOff (· = name) I R z) {s : Statement}
    (hs : s.hasVariable name = true) :
    (x.addStatement m s).AlikeOff (fun _ => False) I R (z.addStatement m s) := by
  obtain ⟨meaning, parts⟩ := s
  cases meaning with
  | declares exported d =>
    match d with
    | .variables ds =>
      replace hs : ds.any (·.name == some name) = true := hs
      show AlikeOff _ I R (ds.foldl (Module.declareVariable m) x)
        (ds.foldl (Module.declareVariable m) z)
      induction ds generalizing x z with
      | nil => exact absurd hs (by simp)
      | cons d ds ih =>
        by_cases hd : d.name = some name
        · have hsame : (Module.declareVariable m x d).AlikeOff (fun _ => False) I R
              (Module.declareVariable m z d) := by
            rw [Module.declareVariable, Module.declareVariable, hd]
            exact h.declare_same _
          exact hsame.addDeclared exported (.variables ds)
        · exact ih (h.declareVariable d) (by simpa [hd] using hs)
    | .typeAlias .. | .interface .. | .classType _ | .enumeration .. =>
      exact absurd hs (by simp [Statement.hasVariable, Declared.hasVariable])
  | _ => exact absurd hs (by simp [Statement.hasVariable])

/-! ## Files in which the last declaration counts -/

theorem AlikeOff.foldl_map {D : String → Prop} {f : Statement → Statement}
    (hf : ∀ (x z : Module) (s : Statement), x.AlikeOff D I R z →
      (x.addStatement m s).AlikeOff D I R (z.addStatement m (f s)))
    (h : x.AlikeOff D I R z) (ss : List Statement) :
    (ss.foldl (Module.addStatement m) x).AlikeOff D I R
      ((ss.map f).foldl (Module.addStatement m) z) := by
  induction ss generalizing x z with
  | nil => exact h
  | cons s ss ih => exact ih (hf x z s h)

theorem noInterface_empty (path : Path) : (empty path).NoInterface name := fun _ _ _ => nofun

theorem alikeOff_of_typeLast (m : ModuleId) (path : Path) {p : Program}
    {before after : List Statement} {s : Statement} (h : p.TypeLast name before s after) :
    (ofProgram m path p).AlikeOff (fun _ => False) I R
      (ofProgram m path (p.withoutVariable name)) := by
  have hkept : s.withoutVariable name = s :=
    Statement.withoutVariable_eq_self (Statement.hasVariable_of_isTypeOf h.isType)
  have hrest : after.map (·.withoutVariable name) = after :=
    (List.map_congr_left fun a ha => Statement.withoutVariable_eq_self (h.after a ha)).trans
      (List.map_id after)
  have hbefore : ∀ b ∈ before.map (·.withoutVariable name), b.isTypeOf name = false := by
    rw [List.forall_mem_map]
    exact fun b hb => (Statement.isTypeOf_withoutVariable name name b).trans (h.before b hb)
  rw [ofProgram, ofProgram, Program.withoutVariable, h.statements, List.map_append, List.map_cons,
    hkept, hrest, List.foldl_append, List.foldl_append, List.foldl_cons, List.foldl_cons]
  refine AlikeOff.foldl_addStatement (AlikeOff.addStatement_isTypeOf ?_ ?_ ?_ h.isType) after
  · exact AlikeOff.foldl_map (fun _ _ s h => h.addStatement_withoutVariable s) (.refl _) before
  · exact (noInterface_empty path).foldl_addStatement h.before
  · exact (noInterface_empty path).foldl_addStatement hbefore

theorem alikeOff_of_variableLast (m : ModuleId) (path : Path) {p : Program}
    {before after : List Statement} {s : Statement} (h : p.VariableLast name before s after) :
    (ofProgram m path p).AlikeOff (fun _ => False) I R
      (ofProgram m path (p.withoutType name)) := by
  have hkept : s.withoutType name = s := by
    refine Statement.withoutType_eq_self ?_
    cases hs : s.isTypeOf name with
    | false => rfl
    | true =>
      exact absurd ((Statement.hasVariable_of_isTypeOf hs).symm.trans h.hasVariable) (by simp)
  have hrest : after.map (·.withoutType name) = after :=
    (List.map_congr_left fun a ha => Statement.withoutType_eq_self (h.after a ha)).trans
      (List.map_id after)
  rw [ofProgram, ofProgram, Program.withoutType, h.statements, List.map_append, List.map_cons,
    hkept, hrest, List.foldl_append, List.foldl_append, List.foldl_cons, List.foldl_cons]
  refine AlikeOff.foldl_addStatement (AlikeOff.addStatement_hasVariable ?_ h.hasVariable) after
  exact AlikeOff.foldl_map (fun _ _ s h => h.addStatement_withoutType s) (.refl _) before

/-- **Of a type and a variable of one name the last is found as if the other were not there.** -/
theorem alikeOff_of_separated (m : ModuleId) (path : Path) {p q : Program} (h : p.Separated q) :
    (ofProgram m path p).AlikeOff (fun _ => False) I R (ofProgram m path q) := by
  cases h with
  | withoutVariable h => exact alikeOff_of_typeLast m path h
  | withoutType h => exact alikeOff_of_variableLast m path h

end Module

/-! ## Sessions of such files -/

namespace Session

variable {fs fs' : Files} {s s' : Session} {m : ModuleId} {key : List String} {x y : Module}
  {t : TypeExpr ModuleId}

/-- A module as it is, or a module of a file and one of the file without what is lost in it. -/
inductive SeparatedModule (m : ModuleId) (x : Module) : Module → Prop
  | same : SeparatedModule m x x
  | separated {path p q} : p.Separated q → x = .ofProgram m path p →
    SeparatedModule m x (.ofProgram m path q)

/-- Sessions and files that are the same, but that the second have some files without what is lost in
them, loaded or not. -/
structure SeparatedFrom (fs fs' : Files) (s s' : Session) : Prop where
  isFile : fs'.isFile = fs.isFile
  fileKey : fileKey fs' = fileKey fs
  aliases : s'.aliases = s.aliases
  locations : s'.locations = s.locations
  expanding : s'.expanding = s.expanding
  length : s'.modules.length = s.modules.length
  modules : ∀ (m : ModuleId) (x y : Module), s.modules[m]? = some x → s'.modules[m]? = some y →
    SeparatedModule m x y
  unread : ∀ p, s.locations.lookup (Session.fileKey fs p) = none →
    Option.Rel (fun a b => b = a ∨ a.Separated b) (readProgram fs p).toOption
      (readProgram fs' p).toOption

theorem agrees_of_separated (hx : x.Corresponds (fun a b _ => a = m ∧ b = m) x)
    (h : SeparatedModule m x y) : x.Agrees fs s.aliases (fun _ _ => True) key m y := by
  have halike : x.AlikeOff (fun _ => False) (fun _ => False) (fun _ => False) y := by
    cases h with
    | same => exact .refl x
    | separated hpq hx =>
      rw [hx]
      exact Module.alikeOff_of_separated _ _ hpq
  have hnever : ∀ q, ¬ x.Consults (fun _ => False) (fun _ => False) (fun _ => False) q := by
    rintro q (⟨-, h⟩ | ⟨-, h⟩ | ⟨-, -, h⟩ | ⟨-, -, -, h⟩ | h)
    all_goals exact h
  exact ⟨halike.path.symm, fun _ _ => (halike.lead? (hnever _)).symm,
    fun _ _ => (halike.importedName? (hnever _)).symm,
    fun _ _ _ hlead _ hu => ⟨Module.fst_of_mem_uses hx hlead hu, fun _ _ _ => trivial⟩⟩

theorem SeparatedFrom.agreement (hs : s.Numbered) (h : SeparatedFrom fs fs' s s') :
    Agreement fs fs' (fun _ _ => True) (s, s') where
  isFile := h.isFile
  fileKey := h.fileKey
  aliases := h.aliases
  locations := h.locations
  expanding := h.expanding
  length := h.length
  modules key m hm := by
    have hlt := hs.lt_of_location hm
    have hx := List.getElem?_eq_getElem hlt
    have hy := List.getElem?_eq_getElem (h.length ▸ hlt)
    exact ⟨_, _, hx, hy, agrees_of_separated (hs.modules m _ hx) (h.modules m _ _ hx hy)⟩
  loadable p hp := by
    have hrel := h.unread p hp
    generalize (readProgram fs p).toOption = a at hrel
    generalize (readProgram fs' p).toOption = b at hrel
    cases hrel with
    | none => exact .none
    | @some a b hab =>
      refine .some fun m => ?_
      refine agrees_of_separated (Module.corresponds_ofProgram (fun _ => ⟨rfl, rfl⟩) p p a) ?_
      rcases hab with rfl | hab
      · exact .same
      · exact .separated hab rfl

/-- **A type is expanded and resolved to the same if variables are absent behind which types of
their names are declared, and if types are absent behind which variables of their names are.** -/
theorem expand_of_separated (hs : s.Numbered) (h : SeparatedFrom fs fs' s s')
    (ht : ∀ a ∈ t.scopes, a < s.modules.length) :
    (expand t fs' s').map Prod.fst = (expand t fs s).map Prod.fst ∧
      ((resolve t).on fs' s').map Prod.fst = ((resolve t).on fs s).map Prod.fst := by
  have hagreement := h.agreement hs
  have hwithin : Agreement.Within fs (fun _ _ => True) s t.uses :=
    within_of_asks hs ht fun _ _ _ _ _ _ _ _ _ => trivial
  exact ⟨hagreement.expand_eq hwithin, hagreement.resolve_eq hwithin⟩

/-! ### A type behind a variable, and a variable behind a type -/

section Users

/-- `const User: number;` -/
def userVariable : Statement :=
  ⟨.declares true (.variables [⟨some "User", some (.keyword .number), none⟩]), []⟩

/-- `type User = string;` -/
def userType : Statement := ⟨.declares true (.typeAlias "User" [] (.keyword .string)), []⟩

def usersSession (ss : List Statement) : Session := .ofFile ⟨"users.ts"⟩ ⟨ss, false⟩

theorem separatedFrom_users {ss ss' : List Statement}
    (h : (⟨ss, false⟩ : Program).Separated ⟨ss', false⟩) :
    SeparatedFrom ⟨[], []⟩ ⟨[], []⟩ (usersSession ss) (usersSession ss') where
  isFile := rfl
  fileKey := rfl
  aliases := rfl
  locations := rfl
  expanding := rfl
  length := rfl
  modules m x y hx hy := by
    cases m with
    | zero =>
      obtain rfl := Option.some.inj hx
      obtain rfl := Option.some.inj hy
      exact .separated h rfl
    | succ m => exact absurd hx (by simp [usersSession, ofFile])
  unread p _ := by
    rw [readProgram, Files.read?_of_no_entries]
    exact .none

theorem typeLast_users : (⟨[userVariable, userType], false⟩ : Program).TypeLast "User"
    [userVariable] userType [] := ⟨rfl, rfl, by decide, by decide⟩

theorem variableLast_users : (⟨[userType, userVariable], false⟩ : Program).VariableLast "User"
    [userType] userVariable [] := ⟨rfl, rfl, by decide⟩

/-- Behind the variable the name means the type, and behind the type `typeof` means the variable. -/
theorem expand_of_separated_users :
    (expand (.reference "User" [] 0) ⟨[], []⟩ (usersSession [userVariable, userType])).map Prod.fst =
        some (some (.keyword .string)) ∧
      (expand (.query "User" 0) ⟨[], []⟩ (usersSession [userType, userVariable])).map Prod.fst =
        some (some (.keyword .number)) := by
  have htype := expand_of_separated (t := .reference "User" [] 0) (numbered_ofFile _ _)
    (separatedFrom_users (.withoutVariable typeLast_users)) (by decide)
  have hvariable := expand_of_separated (t := .query "User" 0) (numbered_ofFile _ _)
    (separatedFrom_users (.withoutType variableLast_users)) (by decide)
  refine ⟨htype.1.symm.trans ?_, hvariable.1.symm.trans ?_⟩
  · rw [expand_of_namesDeclaration (.reference rfl), expandDeclaration_typeAlias]
    rfl
  · rw [expand.eq_def]
    rfl

end Users

end Session
end Routebook
