import Mathlib.Data.List.TakeWhile
import Routebook.Proofs.Session.Declared

/-!
# Exported aliases from both sides

A module answers for its exported names on two ways: it is asked for the body of an exported alias
(`appType`), and other modules follow their imports to it. The one looks among the names that are
exported under another name first, the other among the declarations. **Both come to the same type
unless the module also declares, for itself, what it exports another declaration as**
(`expand_of_appType`); and on its side the importing module must not declare the name or export
another declaration under it, because it looks for imports last. A dot in an exported name would be
taken for a namespace.
-/

namespace Routebook

open Disk (Files)

/-! ## Names without dots -/

/-- Whether a name is in one piece. Identifiers are. -/
def Undotted (name : String) : Prop := '.' ∉ name.toList

instance (name : String) : Decidable (Undotted name) :=
  inferInstanceAs (Decidable ('.' ∉ name.toList))

theorem splitAt?_of_undotted {name : String} (h : Undotted name) :
    splitAt? '.' name.toList = none := by
  have hall : name.toList.dropWhile (· != '.') = [] := by
    rw [List.dropWhile_eq_nil_iff]
    intro c hc
    rw [bne_iff_ne]
    rintro rfl
    exact h hc
  rw [splitAt?, hall]

namespace Module

variable {x : Module} {name : String}

theorem lead?_of_declared (hname : Undotted name) {d : Declaration}
    (hd : x.declarations.get? name = some d) : x.lead? name = some (.declared d) := by
  rw [lead?, splitAt?_of_undotted hname, hd]

theorem lead?_of_renamed (hname : Undotted name) (hd : x.declarations.get? name = none)
    {other : String} (hother : x.renames.get? name = some other) :
    x.lead? name = some (.renamed other) := by
  rw [lead?, splitAt?_of_undotted hname, hd, hother]

theorem lead?_of_imported (hname : Undotted name) (hd : x.declarations.get? name = none)
    (hr : x.renames.get? name = none) {specifier imported : String}
    (hi : x.imports.get? name = some ⟨specifier, some imported⟩) :
    x.lead? name = some (.imported specifier imported) := by
  rw [lead?, splitAt?_of_undotted hname, hd, hr, hi]

/-- What a module calls the declaration that it exports under a name. -/
def localName (x : Module) (name : String) : String := (x.renames.get? name).getD name

/-- A name that a module does not declare for itself while it exports another declaration by it. -/
structure Unshadowed (x : Module) (name : String) : Prop where
  undotted : Undotted name
  localUndotted : Undotted (x.localName name)
  declared : x.renames.get? name ≠ none → x.declarations.get? name = none

/-- A name that only the imports of a module know. -/
structure OnlyImported (y : Module) (name specifier imported : String) : Prop where
  undotted : Undotted name
  declared : y.declarations.get? name = none
  renamed : y.renames.get? name = none
  import_ : y.imports.get? name = some ⟨specifier, some imported⟩

end Module

namespace Session

variable {fs : Files} {s s' : Session} {m id : ModuleId} {name : String} {x : Module}
  {body : TypeExpr ModuleId}

/-! ## Modules that are there -/

/-- Nothing is loaded for a module that is there already. -/
theorem eq_of_loadSpecifier {specifier : String}
    (h : (loadSpecifier m specifier).on fs s = some (some id, s')) (hx : s.modules[id]? = some x) :
    s' = s := by
  obtain ⟨p, -, hadd⟩ := loadSpecifier_eq_some.mp h
  rcases addFile_cases hadd with ⟨id', -, -, rfl⟩ | ⟨e, -, -, -, rfl⟩ | ⟨program, -, -, hid, -⟩
  · rfl
  · rfl
  · obtain rfl := Except.ok.inj hid
    rw [List.getElem?_eq_none (Nat.le_refl _)] at hx
    exact absurd hx (by simp)

/-! ## Exported aliases -/

theorem declaration_of_appType (hx : s.modules[id]? = some x)
    (happ : s.appType id (some name) = .ok body) :
    ∃ ps, x.declarations.get? (x.localName name) = some (.typeAlias ps body) := by
  rw [appType, hx] at happ
  dsimp only [Option.some_or] at happ
  split at happ
  · next ps t halias =>
    obtain rfl := Except.ok.inj happ
    exact ⟨ps, halias⟩
  · exact absurd happ (by simp)

/-- An exported declaration is found in one step, or in two if it is exported under another name. -/
theorem lookupWithin_of_localName (hx : s.modules[id]? = some x) (h : x.Unshadowed name)
    {d : Declaration} (hd : x.declarations.get? (x.localName name) = some d) (k : Nat) :
    (lookupWithin (k + 2) id name).on fs s = some (some (id, d), s) := by
  obtain ⟨hname, hlocal, hunshadowed⟩ := h
  rw [lookupWithin_of_module? hx]
  cases hr : x.renames.get? name with
  | none =>
    rw [Module.localName, hr, Option.getD_none] at hd
    rw [Module.lead?_of_declared hname hd]
    rfl
  | some other =>
    rw [Module.localName, hr, Option.getD_some] at hd hlocal
    rw [Module.lead?_of_renamed hname (hunshadowed (by simp [hr])) hr]
    dsimp only
    rw [lookupWithin_of_module? hx, Module.lead?_of_declared hlocal hd]
    rfl

theorem lookup_of_onlyImported {y : Module} {localName specifier : String} {d : Declaration}
    (hy : s.modules[m]? = some y) (honly : y.OnlyImported localName specifier name)
    (hload : (loadSpecifier m specifier).on fs s = some (some id, s'))
    (hx : s.modules[id]? = some x) (h : x.Unshadowed name)
    (hd : x.declarations.get? (x.localName name) = some d) :
    (lookup m localName).on fs s = some (some (id, d), s) := by
  obtain rfl := eq_of_loadSpecifier hload hx
  rw [lookup, lookupWithin_of_module? hy, Module.lead?_of_imported honly.undotted honly.declared
    honly.renamed honly.import_]
  dsimp only
  exact (Analysis.on_bind hload).trans (lookupWithin_of_localName hx h hd 30)

/-- **What a module says is the body of an alias that it exports, every module that imports the name
and does not use it otherwise finds, and so does every import type.** -/
theorem expand_of_appType (hx : s.modules[id]? = some x)
    (happ : s.appType id (some name) = .ok body)
    (hparams : ∀ ps t, x.declarations.get? (x.localName name) = some (.typeAlias ps t) → ps = [])
    (hname : x.Unshadowed name) :
    (∀ m y localName specifier args s', s.modules[m]? = some y →
      y.OnlyImported localName specifier name →
      (loadSpecifier m specifier).on fs s = some (some id, s') →
      expand (.reference localName args m) fs s = some (some body, s)) ∧
    ∀ m specifier args s', (loadSpecifier m specifier).on fs s = some (some id, s') →
      expand (.imported specifier (some name) args m) fs s = some (some body, s) := by
  obtain ⟨ps, halias⟩ := declaration_of_appType hx happ
  obtain rfl := hparams ps body halias
  refine ⟨fun m y localName specifier args s' hy honly hload => ?_,
    fun m specifier args s' hload => ?_⟩
  · exact expand_of_alias (.reference (lookup_of_onlyImported hy honly hload hx hname halias))
  · obtain rfl := eq_of_loadSpecifier hload hx
    exact expand_of_alias (.imported hload (lookupWithin_of_localName hx hname halias 31))

/-! ### An alias that is exported and imported under other names -/

section Renamed

def totalsText : String := "type Count = number; export type { Count as Total };"

def totalsModule : Module where
  path := ⟨"totals.ts"⟩
  declarations := [("Count", .typeAlias [] (.keyword .number))]
  imports := []
  renames := [("Total", "Count")]
  exportedAliases := ["Total"]

def sumsText : String := "import type { Total as Sum } from \"./totals\";"

def sumsModule : Module where
  path := ⟨"sums.ts"⟩
  declarations := []
  imports := [("Sum", ⟨"./totals", some "Total"⟩)]
  renames := []
  exportedAliases := []

def totalsFiles : Files :=
  ⟨[], [(["totals.ts"], .file totalsText), (["sums.ts"], .file sumsText)]⟩

def totalsSession : Session :=
  ⟨.empty, [totalsModule, sumsModule], [(["/", "totals.ts"], 0), (["/", "sums.ts"], 1)], []⟩

theorem loadSpecifier_totals :
    (loadSpecifier 1 "./totals").on totalsFiles totalsSession = some (some 0, totalsSession) :=
  loadSpecifier_eq_some.mpr ⟨⟨"./totals.ts"⟩, by decide +kernel,
    addFile_of_location? (by decide +kernel)⟩

/-- What the module answers for `Total`, the other finds as `Sum` and as `import("./totals").Total`.
-/
theorem expand_of_appType_totals :
    totalsSession.appType 0 (some "Total") = .ok (.keyword .number) ∧
    expand (.reference "Sum" [] 1) totalsFiles totalsSession =
      some (some (.keyword .number), totalsSession) ∧
    expand (.imported "./totals" (some "Total") [] 1) totalsFiles totalsSession =
      some (some (.keyword .number), totalsSession) := by
  have happ : totalsSession.appType 0 (some "Total") = .ok (.keyword .number) := rfl
  have hparams : ∀ ps t, totalsModule.declarations.get? (totalsModule.localName "Total") =
      some (.typeAlias ps t) → ps = [] := by
    intro ps t h
    have h : some (Declaration.typeAlias [] (.keyword .number)) = some (.typeAlias ps t) := h
    exact (Declaration.typeAlias.inj (Option.some.inj h)).1.symm
  have hname : totalsModule.Unshadowed "Total" :=
    ⟨by decide, by decide, fun _ => rfl⟩
  refine ⟨happ, (expand_of_appType rfl happ hparams hname).1 1 sumsModule "Sum" "./totals" [] _ rfl
    ?_ loadSpecifier_totals, (expand_of_appType rfl happ hparams hname).2 1 "./totals" [] _
      loadSpecifier_totals⟩
  exact ⟨by decide, rfl, rfl, rfl⟩

end Renamed

end Session
end Routebook
