import Routebook.Proofs.Disk.Files
import Routebook.Proofs.Session.Alike
import Routebook.Proofs.Session.Declared

/-!
# Export clauses

An export clause tells other files what a module has for them; it declares nothing. But a module
keeps what it exports from other files among its imports, and what it exports under another name in
a table that it looks at before its imports. **So other export clauses make no difference to a type
unless, on the way, the module is asked for a name that they export and that it does not declare**
(`expand_of_withoutExports`), or for one in a namespace of such a name.
-/

namespace Routebook

open Disk (Files Path)

/-! ## Files without their export clauses -/

namespace Source

def Statement.isExport (s : Statement) : Bool :=
  match s.meaning with
  | .exports .. => true
  | _ => false

def Program.withoutExports (p : Program) : Program :=
  { p with statements := p.statements.filter fun s => !s.isExport }

/-- The names that a statement exports from another file. -/
def Statement.reexported (s : Statement) : List String :=
  match s.meaning with
  | .exports (some _) names => names.map Prod.snd
  | _ => []

/-- The names under which a statement exports what is called otherwise in the file. -/
def Statement.renamed (s : Statement) : List String :=
  match s.meaning with
  | .exports none names => (names.filter fun n => n.1 ≠ n.2).map Prod.snd
  | _ => []

def Program.reexported (p : Program) : List String := p.statements.flatMap (·.reexported)

def Program.renamed (p : Program) : List String := p.statements.flatMap (·.renamed)

end Source

open Source (Program Statement)

namespace Module

variable {x z : Module} {D I R : String → Prop} {m : ModuleId}

/-- An export clause that only one of two modules takes in makes a difference at the names that it
exports. -/
theorem AlikeOff.addExport_left (h : x.AlikeOff D I R z) {specifier : Option String}
    {names : String × String} (hI : specifier ≠ none → I names.2)
    (hR : specifier = none → names.1 ≠ names.2 → R names.2) :
    (x.addExport specifier names).AlikeOff D I R z := by
  obtain ⟨hd, hi, hr⟩ := addExport_eq x specifier names
  refine ⟨(path_addExport ..).trans h.path, ?_, fun name hname => ?_, fun name hname => ?_⟩
  · rw [hd]
    exact h.declarations
  · rw [hi]
    cases specifier with
    | none => exact h.imports name hname
    | some s =>
      have hne : name ≠ names.2 := fun he => hname (he ▸ hI (by simp))
      dsimp only
      rw [Table.get?_insert, if_neg hne, h.imports name hname]
  · rw [hr]
    cases specifier with
    | some s => exact h.renames name hname
    | none =>
      dsimp only
      split
      · exact h.renames name hname
      · next hlocal =>
        have hne : name ≠ names.2 := fun he => hname (he ▸ hR rfl hlocal)
        rw [Table.get?_insert, if_neg hne, h.renames name hname]

theorem AlikeOff.addStatement_left (h : x.AlikeOff D I R z) {s : Statement}
    (hs : s.isExport = true) (hI : ∀ name ∈ s.reexported, I name)
    (hR : ∀ name ∈ s.renamed, R name) : (x.addStatement m s).AlikeOff D I R z := by
  rw [Module.addStatement]
  rw [Statement.isExport] at hs
  rw [Statement.reexported] at hI
  rw [Statement.renamed] at hR
  cases hmeaning : s.meaning with
  | exports specifier names =>
    rw [hmeaning] at hI hR
    have hnames : ∀ n ∈ names, (specifier ≠ none → I n.2) ∧
        (specifier = none → n.1 ≠ n.2 → R n.2) := by
      intro n hn
      cases specifier with
      | some file =>
        exact ⟨fun _ => hI _ (List.mem_map_of_mem hn), fun hnone => absurd hnone (by simp)⟩
      | none =>
        refine ⟨fun hnone => absurd rfl hnone, fun _ hne => hR _ ?_⟩
        exact List.mem_map_of_mem (List.mem_filter.mpr ⟨hn, by simpa using hne⟩)
    clear hI hR hmeaning
    dsimp only
    induction names generalizing x with
    | nil => exact h
    | cons n names ih =>
      obtain ⟨⟨hI, hR⟩, hrest⟩ := List.forall_mem_cons.mp hnames
      exact ih (h.addExport_left hI hR) hrest
  | _ => simp [hmeaning] at hs

theorem AlikeOff.foldl_withoutExports {ss : List Statement} (h : x.AlikeOff D I R z)
    (hss : ∀ s ∈ ss, (∀ name ∈ s.reexported, I name) ∧ ∀ name ∈ s.renamed, R name) :
    (ss.foldl (Module.addStatement m) x).AlikeOff D I R
      ((ss.filter fun s => !s.isExport).foldl (Module.addStatement m) z) := by
  induction ss generalizing x z with
  | nil => exact h
  | cons s ss ih =>
    obtain ⟨⟨hI, hR⟩, hrest⟩ := List.forall_mem_cons.mp hss
    rw [List.foldl_cons, List.filter_cons]
    cases hs : s.isExport with
    | true => exact ih (h.addStatement_left hs hI hR) hrest
    | false => exact ih (h.addStatement s) hrest

/-- **The export clauses of a file make a difference to its module only at the names that they
export.** -/
theorem alikeOff_withoutExports (m : ModuleId) (path : Path) (p : Program) :
    (ofProgram m path p).AlikeOff (fun _ => False) (· ∈ p.reexported) (· ∈ p.renamed)
      (ofProgram m path p.withoutExports) :=
  AlikeOff.foldl_withoutExports (.refl _) fun s hs =>
    ⟨fun _ hname => List.mem_flatMap.mpr ⟨s, hs, hname⟩,
      fun _ hname => List.mem_flatMap.mpr ⟨s, hs, hname⟩⟩

end Module

/-! ## Sessions with other export clauses -/

/-- Whether the module of a file looks among the names that the file exports when it is asked
something. -/
def Source.Program.FindsExport (p : Program) (m : ModuleId) (path : Path) (q : Question) : Prop :=
  (Module.ofProgram m path p).Consults (fun _ => False) (· ∈ p.reexported) (· ∈ p.renamed) q

namespace Session

variable {fs : Files} {s : Session} {m : ModuleId} {key : List String} {path : Path}
  {p p' : Program} {t : TypeExpr ModuleId} {us : List (ModuleId × Use)} {x y : Module}

/-- A session with another module under a number. -/
def withModule (s : Session) (m : ModuleId) (x : Module) : Session :=
  { s with modules := s.modules.set m x }

/-- Modules that answer what is asked alike agree, because everything that comes of an answer is
asked. -/
theorem agrees_of_isAt (hx : IsAt fs s key m x)
    (hscopes : x.Corresponds (fun a b _ => a = m ∧ b = m) x) (hpath : y.path = x.path)
    (hlead : ∀ name, Asked fs s us key (.lead name) → y.lead? name = x.lead? name)
    (hname : ∀ name, Asked fs s us key (.importedAs name) →
      y.importedName? name = x.importedName? name) :
    x.Agrees fs s.aliases (Asked fs s us) key m y where
  path := hpath
  lead? := hlead
  importedName? := hname
  closed _ _ hq hl _ hu :=
    ⟨Module.fst_of_mem_uses hscopes hl hu, fun _ _ hasks => .answered hq hx hl hu hasks⟩

theorem agrees_self (hx : IsAt fs s key m x)
    (hscopes : x.Corresponds (fun a b _ => a = m ∧ b = m) x) :
    x.Agrees fs s.aliases (Asked fs s us) key m x :=
  agrees_of_isAt hx hscopes rfl (fun _ _ => rfl) fun _ _ => rfl

/-- A session agrees with one in which a module is another, if the two answer alike what is
asked. -/
theorem agreement_withModule (hs : s.Numbered) (hkey : (key, m) ∈ s.locations)
    (hx : s.modules[m]? = some x) (hxy : x.Agrees fs s.aliases (Asked fs s us) key m y) :
    Agreement fs fs (Asked fs s us) (s, s.withModule m y) where
  isFile := rfl
  fileKey := rfl
  aliases := rfl
  locations := rfl
  expanding := rfl
  length := List.length_set
  modules key' a ha := by
    have hlt := hs.lt_of_location ha
    have hat := List.getElem?_eq_getElem hlt
    by_cases ham : a = m
    · subst ham
      obtain rfl := (hs.key_eq_iff ha hkey).mpr rfl
      refine ⟨x, y, hx, ?_, hxy⟩
      exact List.getElem?_set_self hlt
    · refine ⟨_, _, hat, ?_, agrees_self (.loaded ha hat) (hs.modules a _ hat)⟩
      exact (List.getElem?_set_ne (Ne.symm ham)).trans hat
  loadable q hq := by
    cases hread : readProgram fs q with
    | error e => exact .none
    | ok program =>
      exact .some fun a => agrees_self (.loadable a hq hread)
        (Module.corresponds_ofProgram (fun _ => ⟨rfl, rfl⟩) q q program)

/-- **A type is expanded and resolved to the same with other export clauses in a module, unless the
module is asked on the way for something that it finds among the exports.** -/
theorem expand_of_withoutExports (hs : s.Numbered) (hkey : (key, m) ∈ s.locations)
    (hm : s.modules[m]? = some (.ofProgram m path p)) (hp : p'.withoutExports = p.withoutExports)
    (ht : ∀ a ∈ t.scopes, a < s.modules.length)
    (hasked : ∀ q, Asked fs s t.uses key q →
      ¬ p.FindsExport m path q ∧ ¬ p'.FindsExport m path q) :
    (expand t fs (s.withModule m (.ofProgram m path p'))).map Prod.fst =
        (expand t fs s).map Prod.fst ∧
      ((resolve t).on fs (s.withModule m (.ofProgram m path p'))).map Prod.fst =
        ((resolve t).on fs s).map Prod.fst := by
  have hbare := Module.alikeOff_withoutExports m path p
  have hbare' := Module.alikeOff_withoutExports m path p'
  rw [hp] at hbare'
  have hagrees : (Module.ofProgram m path p).Agrees fs s.aliases (Asked fs s t.uses) key m
      (Module.ofProgram m path p') := by
    refine agrees_of_isAt (.loaded hkey hm) (hs.modules m _ hm) ?_ (fun name hq => ?_)
      fun name hq => ?_
    · rw [Module.path_ofProgram, Module.path_ofProgram]
    · obtain ⟨hq, hq'⟩ := hasked _ hq
      exact (hbare'.lead? hq').trans (hbare.lead? hq).symm
    · obtain ⟨hq, hq'⟩ := hasked _ hq
      exact (hbare'.importedName? hq').trans (hbare.importedName? hq).symm
  have hagreement := agreement_withModule hs hkey hm hagrees
  have hwithin : Agreement.Within fs (Asked fs s t.uses) s t.uses :=
    within_of_asks hs ht fun _ hu _ _ hkey hx _ _ => .used hu hkey hx
  exact ⟨hagreement.expand_eq hwithin, hagreement.resolve_eq hwithin⟩

/-! ### A name that is declared and exported for another declaration -/

section Items

/-- `type Item = number; type Other = string;` -/
def itemsFile : Program where
  statements := [⟨.declares false (.typeAlias "Item" [] (.keyword .number)), []⟩,
    ⟨.declares false (.typeAlias "Other" [] (.keyword .string)), []⟩]
  definition := false

/-- The same with `export type { Other as Item };` -/
def itemsFileExporting : Program :=
  { itemsFile with
    statements := itemsFile.statements ++ [⟨.exports none [("Other", "Item")], []⟩] }

def itemsSession : Session := .ofFile ⟨"items.ts"⟩ itemsFile

/-- Of the alias nothing is asked but where its name leads: it names no other types. -/
theorem eq_of_asked_item {key : List String} {q : Question}
    (h : Asked ⟨[], []⟩ itemsSession (TypeExpr.reference "Item" [] 0).uses key q) :
    q = .lead "Item" := by
  induction h with
  | used hu hkey hx hasks =>
    obtain ⟨rfl, rfl⟩ := Prod.mk.inj (List.mem_singleton.mp hu)
    cases hasks
    rfl
  | answered _ hx hlead hu _ ih =>
    obtain rfl := Question.lead.inj ih
    cases hx with
    | loaded hkey hx =>
      obtain ⟨-, rfl⟩ := Prod.mk.inj (List.mem_singleton.mp hkey)
      obtain rfl := Option.some.inj hx
      obtain rfl := Option.some.inj hlead
      exact absurd hu List.not_mem_nil
    | loadable m hnew hread =>
      rw [readProgram, Files.read?_of_no_entries] at hread
      exact absurd hread (by simp)

theorem expand_of_withoutExports_item :
    (expand (.reference "Item" [] 0) ⟨[], []⟩
      (itemsSession.withModule 0 (.ofProgram 0 ⟨"items.ts"⟩ itemsFileExporting))).map Prod.fst =
        some (some (.keyword .number)) := by
  have hasked : ∀ q, Asked ⟨[], []⟩ itemsSession (TypeExpr.reference "Item" [] 0).uses
      ["/", "items.ts"] q → ¬ itemsFile.FindsExport 0 ⟨"items.ts"⟩ q ∧
        ¬ itemsFileExporting.FindsExport 0 ⟨"items.ts"⟩ q := by
    intro q hq
    obtain rfl := eq_of_asked_item hq
    have hundotted : splitAt? '.' "Item".toList = none := by decide
    refine ⟨fun h => ?_, fun h => ?_⟩
    all_goals cases h with
      | inNamespace hsplit => exact absurd (hundotted.symm.trans hsplit) (by simp)
      | declared _ h => exact h
      | renamed _ hnone => cases hnone
      | imported _ hnone => cases hnone
  obtain ⟨hexpand, -⟩ := expand_of_withoutExports (numbered_ofFile _ _)
    List.mem_cons_self rfl (by rfl) (by decide) hasked
  refine hexpand.trans ?_
  rw [expand_of_namesDeclaration (.reference rfl), expandDeclaration_typeAlias]
  rfl

end Items

end Session
end Routebook
