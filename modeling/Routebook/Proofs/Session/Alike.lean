import Routebook.Proofs.Session.Agreement
import Routebook.Proofs.Session.Numbered

/-!
# Modules that are alike

Two modules of one file can differ in what they declare, import or rename under certain names
(`AlikeOff`). A statement that both take in adds no difference (`AlikeOff.addStatement`), so
differences come only from statements that one of them has and the other has not. **Questions that
are not put to a name where they differ are answered alike** (`AlikeOff.lead?`,
`AlikeOff.importedName?`).
-/

namespace Routebook

open Disk (Files Path)
open Source (Program Statement Declared Declarator)

theorem Table.get?_foldl_insert_congr {α β : Type} {key : β → String} {value : β → α}
    {t u : Table α} {name : String} (h : t.get? name = u.get? name) (bs : List β) :
    Table.get? (bs.foldl (fun t b => t.insert (key b) (value b)) t) name =
      Table.get? (bs.foldl (fun t b => t.insert (key b) (value b)) u) name := by
  induction bs generalizing t u with
  | nil => exact h
  | cons b bs ih =>
    refine ih ?_
    rw [Table.get?_insert, Table.get?_insert, h]

namespace Module

variable {x y z : Module} {D I R : String → Prop} {m : ModuleId} {name : String}

/-- Modules that are alike but for what they declare, import and rename under certain names. What
they export is not compared. -/
structure AlikeOff (D I R : String → Prop) (x z : Module) : Prop where
  path : x.path = z.path
  declarations : ∀ name, ¬ D name → x.declarations.get? name = z.declarations.get? name
  imports : ∀ name, ¬ I name → x.imports.get? name = z.imports.get? name
  renames : ∀ name, ¬ R name → x.renames.get? name = z.renames.get? name

theorem AlikeOff.refl (x : Module) : x.AlikeOff D I R x :=
  ⟨rfl, fun _ _ => rfl, fun _ _ => rfl, fun _ _ => rfl⟩

/-! ## Statements that both take in -/

theorem AlikeOff.declare (h : x.AlikeOff D I R z) (name : String) (d : Declaration) :
    (x.declare name d).AlikeOff D I R (z.declare name d) := by
  refine ⟨h.path, fun other hother => ?_, h.imports, h.renames⟩
  rw [Module.declare, Module.declare, Table.get?_insert, Table.get?_insert, h.declarations other hother]

theorem AlikeOff.declareVariable (h : x.AlikeOff D I R z) (d : Declarator) :
    (Module.declareVariable m x d).AlikeOff D I R (Module.declareVariable m z d) := by
  rw [Module.declareVariable, Module.declareVariable]
  cases d.name with
  | none => exact h
  | some name => exact h.declare name _

/-- Whatever an interface is joined to, it is declared under one name. -/
theorem declareInterface_eq_declare (x : Module) (name : String)
    (ps : List (TypeParameter ModuleId)) (parents : List (TypeExpr ModuleId))
    (ms : List (Member (TypeExpr ModuleId))) :
    ∃ ps' parents' ms',
      x.declareInterface name ps parents ms = x.declare name (.interface ps' parents' ms') := by
  rw [declareInterface]
  split
  · exact ⟨_, _, _, rfl⟩
  · exact ⟨_, _, _, rfl⟩

theorem AlikeOff.declareInterface (h : x.AlikeOff D I R z) (name : String)
    (ps : List (TypeParameter ModuleId)) (parents : List (TypeExpr ModuleId))
    (ms : List (Member (TypeExpr ModuleId))) :
    (x.declareInterface name ps parents ms).AlikeOff D I R
      (z.declareInterface name ps parents ms) := by
  by_cases hname : D name
  · -- The two interfaces may differ, but under a name where the modules may differ.
    obtain ⟨_, _, _, hx⟩ := declareInterface_eq_declare x name ps parents ms
    obtain ⟨_, _, _, hz⟩ := declareInterface_eq_declare z name ps parents ms
    rw [hx, hz]
    refine ⟨h.path, fun other hother => ?_, h.imports, h.renames⟩
    have hne : other ≠ name := fun he => hother (he ▸ hname)
    rw [Module.declare, Module.declare, Table.get?_insert, Table.get?_insert, if_neg hne, if_neg hne,
      h.declarations other hother]
  · rw [Module.declareInterface, Module.declareInterface, h.declarations name hname]
    split <;> exact h.declare name _

/-- What the modules export as aliases is not compared. -/
theorem AlikeOff.of_exportedAliases (h : x.AlikeOff D I R z) (as bs : List String) :
    AlikeOff D I R { x with exportedAliases := as } { z with exportedAliases := bs } :=
  ⟨h.path, h.declarations, h.imports, h.renames⟩

theorem AlikeOff.addDeclared (h : x.AlikeOff D I R z) (exported : Bool) (d : Declared) :
    (x.addDeclared m exported d).AlikeOff D I R (z.addDeclared m exported d) := by
  match d with
  | .typeAlias name ps body =>
    cases exported with
    | false => exact h.declare name _
    | true => exact (h.of_exportedAliases _ _).declare name _
  | .interface name ps parents ms => exact h.declareInterface name _ _ _
  | .classType name => exact h.declare name _
  | .enumeration name values => exact h.declare name _
  | .variables ds =>
    rw [Module.addDeclared, Module.addDeclared]
    induction ds generalizing x z with
    | nil => exact h
    | cons d ds ih => exact ih (h.declareVariable d)

/-- An export clause is an import or a renaming; that it may export an alias is not compared. -/
theorem addExport_eq (x : Module) (specifier : Option String) (names : String × String) :
    (x.addExport specifier names).declarations = x.declarations ∧
      (x.addExport specifier names).imports = (match specifier with
        | some s => x.imports.insert names.2 ⟨s, some names.1⟩
        | none => x.imports) ∧
      (x.addExport specifier names).renames = (match specifier with
        | some _ => x.renames
        | none => if names.1 = names.2 then x.renames else x.renames.insert names.2 names.1) := by
  obtain ⟨localName, exported⟩ := names
  unfold addExport
  cases specifier with
  | some s =>
    dsimp only
    split <;> exact ⟨rfl, rfl, rfl⟩
  | none =>
    dsimp only
    split <;> split <;> exact ⟨rfl, rfl, rfl⟩

theorem AlikeOff.addExport (h : x.AlikeOff D I R z) (specifier : Option String)
    (names : String × String) :
    (x.addExport specifier names).AlikeOff D I R (z.addExport specifier names) := by
  obtain ⟨hdx, hix, hrx⟩ := addExport_eq x specifier names
  obtain ⟨hdz, hiz, hrz⟩ := addExport_eq z specifier names
  refine ⟨?_, fun name hname => ?_, fun name hname => ?_, fun name hname => ?_⟩
  · rw [path_addExport, path_addExport, h.path]
  · rw [hdx, hdz, h.declarations name hname]
  · rw [hix, hiz]
    cases specifier with
    | none => exact h.imports name hname
    | some s =>
      dsimp only
      rw [Table.get?_insert, Table.get?_insert, h.imports name hname]
  · rw [hrx, hrz]
    cases specifier with
    | some s => exact h.renames name hname
    | none =>
      dsimp only
      split
      · exact h.renames name hname
      · rw [Table.get?_insert, Table.get?_insert, h.renames name hname]

/-- **A statement that both modules take in adds no difference.** -/
theorem AlikeOff.addStatement (h : x.AlikeOff D I R z) (s : Statement) :
    (x.addStatement m s).AlikeOff D I R (z.addStatement m s) := by
  rw [Module.addStatement, Module.addStatement]
  cases s.meaning with
  | declares exported d => exact h.addDeclared exported d
  | imports file names =>
    exact ⟨h.path, h.declarations,
      fun name hname => Table.get?_foldl_insert_congr (h.imports name hname) names, h.renames⟩
  | exports file names =>
    dsimp only
    induction names generalizing x z with
    | nil => exact h
    | cons n names ih => exact ih (h.addExport file n)
  | nothing => exact h

theorem AlikeOff.foldl_addStatement (h : x.AlikeOff D I R z) (ss : List Statement) :
    (ss.foldl (Module.addStatement m) x).AlikeOff D I R (ss.foldl (Module.addStatement m) z) := by
  induction ss generalizing x z with
  | nil => exact h
  | cons s ss ih => exact ih (h.addStatement s)

/-! ## Answers -/

/-- Whether the answer of a module to a question may depend on what it declares, imports or renames
under certain names. -/
inductive Consults (D I R : String → Prop) (x : Module) : Question → Prop
  | inNamespace {n first rest} : splitAt? '.' n.toList = some (first, rest) →
    I (String.ofList first) → Consults D I R x (.lead n)
  | declared {n} : splitAt? '.' n.toList = none → D n → Consults D I R x (.lead n)
  | renamed {n} : splitAt? '.' n.toList = none → x.declarations.get? n = none → R n →
    Consults D I R x (.lead n)
  | imported {n} : splitAt? '.' n.toList = none → x.declarations.get? n = none →
    x.renames.get? n = none → I n → Consults D I R x (.lead n)
  | importedAs {n} : I n → Consults D I R x (.importedAs n)

theorem AlikeOff.lead? (h : x.AlikeOff D I R z) (hname : ¬ x.Consults D I R (.lead name)) :
    x.lead? name = z.lead? name := by
  rw [Module.lead?, Module.lead?]
  cases hsplit : splitAt? '.' name.toList with
  | some parts =>
    obtain ⟨first, rest⟩ := parts
    dsimp only
    rw [h.imports _ fun hfirst => hname (.inNamespace hsplit hfirst)]
  | none =>
    dsimp only
    rw [← h.declarations name fun hd => hname (.declared hsplit hd)]
    cases hd : x.declarations.get? name with
    | some d => rfl
    | none =>
      dsimp only
      rw [← h.renames name fun hr => hname (.renamed hsplit hd hr)]
      cases hr : x.renames.get? name with
      | some other => rfl
      | none =>
        dsimp only
        rw [h.imports name fun hi => hname (.imported hsplit hd hr hi)]

theorem AlikeOff.importedName? (h : x.AlikeOff D I R z)
    (hname : ¬ x.Consults D I R (.importedAs name)) : x.importedName? name = z.importedName? name := by
  rw [Module.importedName?, Module.importedName?, h.imports name fun hi => hname (.importedAs hi)]

end Module

namespace Session

/-- A type of a session is within a set of questions that has those of its uses. -/
theorem within_of_asks {fs : Files} {s : Session} {Q : Questions} {t : TypeExpr ModuleId}
    (hs : s.Numbered) (ht : ∀ a ∈ t.scopes, a < s.modules.length)
    (hasks : ∀ u ∈ t.uses, ∀ key x, (key, u.1) ∈ s.locations → s.modules[u.1]? = some x →
      ∀ key' q, u.2.Asks fs s.aliases key x.path key' q → Q key' q) :
    Agreement.Within fs Q s t.uses := by
  intro u hu
  obtain ⟨key, x, hkey, hx⟩ := hs.exists_location (ht u.1 (TypeExpr.fst_mem_scopes hu))
  exact ⟨key, x, hkey, hx, hasks u hu key x hkey hx⟩

/-- A session that has loaded one file. -/
def ofFile (path : Path) (p : Program) : Session :=
  ⟨.empty, [.ofProgram 0 path p], [(["/", path.text], 0)], []⟩

theorem numbered_ofFile (path : Path) (p : Program) : (ofFile path p).Numbered where
  numbers := rfl
  keys := List.nodup_singleton _
  modules m x hx := by
    cases m with
    | zero =>
      obtain rfl := Option.some.inj hx
      exact Module.corresponds_ofProgram (fun _ => ⟨rfl, rfl⟩) _ _ p
    | succ m => exact absurd hx (by simp [ofFile])

end Session
end Routebook
