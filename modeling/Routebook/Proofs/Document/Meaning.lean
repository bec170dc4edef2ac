import Mathlib
import Routebook.Proofs.Document.Plan
import Routebook.Proofs.Document.Validation
import Routebook.Proofs.Session.Growth
import Routebook.Proofs.Session.Shape
import Routebook.Proofs.Table

/-!
# What schemas mean

For types of strings, numbers, booleans, arrays and objects, and for names of such types, the schema
of a type says what the type says: **a value validates against the schema exactly if it is of the
type** (`accepts_schemaOf_iff`). What such a type says is a `PlainType`, which has no names left in
it; `Unfolds` replaces the names one after another, as the session expands them.

A name is cut off where it occurs inside itself. That is decided by how the name is written, but a
name that is written the same way in the same module always leads to the same declaration
(`lookup_of_extends`). So **no name is cut off unless a declaration is inside itself**.
-/

namespace Routebook

open Disk (Files)

/-! ## Plain types -/

/-- A type without names. Number and boolean literals are as good as all numbers and booleans. -/
inductive PlainType where
  | string
  | number
  | boolean
  /-- One of some strings. -/
  | choice (values : List String)
  | array (element : PlainType)
  | object (members : List (Member PlainType))

/-- What values are of a type. An object may have more properties than its type says, and an
optional one may be missing. -/
inductive PlainType.Inhabits : PlainType → Json → Prop where
  | string (s : String) : Inhabits .string (.string s)
  | number (text : String) : Inhabits .number (.number text)
  | boolean (b : Bool) : Inhabits .boolean (.bool b)
  | choice {values : List String} {s : String} (hs : s ∈ values) :
      Inhabits (.choice values) (.string s)
  | array {p : PlainType} {xs : List Json} (hxs : ∀ x ∈ xs, Inhabits p x) :
      Inhabits (.array p) (.array xs)
  | object {ms : List (Member PlainType)} {fields : List (String × Json)}
      (hrequired : ∀ m ∈ ms, m.optional = false → ((Json.object fields).field? m.name).isSome)
      (hmembers : ∀ m ∈ ms, ∀ x, (Json.object fields).field? m.name = some x → Inhabits m.type x) :
      Inhabits (.object ms) (.object fields)

namespace PlainType

theorem inhabits_string_iff (v : Json) : string.Inhabits v ↔ v.typeName? = some "string" := by
  constructor
  · rintro ⟨⟩
    rfl
  · intro h
    cases v with
    | string s => exact .string s
    | _ => simp [Json.typeName?] at h

theorem inhabits_number_iff (v : Json) : number.Inhabits v ↔ v.typeName? = some "number" := by
  constructor
  · rintro ⟨⟩
    rfl
  · intro h
    cases v with
    | number text => exact .number text
    | _ => simp [Json.typeName?] at h

theorem inhabits_boolean_iff (v : Json) : boolean.Inhabits v ↔ v.typeName? = some "boolean" := by
  constructor
  · rintro ⟨⟩
    rfl
  · intro h
    cases v with
    | bool b => exact .boolean b
    | _ => simp [Json.typeName?] at h

theorem inhabits_choice_iff (values : List String) (v : Json) :
    (choice values).Inhabits v ↔ ∃ value ∈ values, v = .string value := by
  constructor
  · rintro ⟨⟩
    exact ⟨_, by assumption, rfl⟩
  · rintro ⟨value, hvalue, rfl⟩
    exact .choice hvalue

theorem inhabits_array_iff (p : PlainType) (v : Json) :
    (array p).Inhabits v ↔ ∃ xs, v = .array xs ∧ ∀ x ∈ xs, p.Inhabits x := by
  constructor
  · rintro ⟨⟩
    exact ⟨_, rfl, by assumption⟩
  · rintro ⟨xs, rfl, hxs⟩
    exact .array hxs

theorem inhabits_object_iff (ms : List (Member PlainType)) (v : Json) :
    (object ms).Inhabits v ↔ ∃ fields, v = .object fields ∧
      ∀ m ∈ ms, (m.optional = false → (v.field? m.name).isSome) ∧
        ∀ x, v.field? m.name = some x → m.type.Inhabits x := by
  constructor
  · rintro (_ | _ | _ | _ | _ | ⟨hrequired, hmembers⟩)
    exact ⟨_, rfl, fun m hm => ⟨hrequired m hm, hmembers m hm⟩⟩
  · rintro ⟨fields, rfl, h⟩
    exact .object (fun m hm => (h m hm).1) fun m hm => (h m hm).2

end PlainType

namespace Session

/-- The type of one string. -/
abbrev stringType (value : String) : TypeExpr ModuleId := .literal (.string value)

/-- A declaration and the module that has it. -/
abbrev Found := ModuleId × Declaration

mutual
/-- What a type is with its names unfolded, inside the declarations that are being unfolded. A
declaration is not unfolded again inside itself. -/
inductive Unfolds (fs : Files) :
    List Found → Session → TypeExpr ModuleId → PlainType → Session → Prop where
  | string {ds s} : Unfolds fs ds s (.keyword .string) .string s
  | number {ds s} : Unfolds fs ds s (.keyword .number) .number s
  | boolean {ds s} : Unfolds fs ds s (.keyword .boolean) .boolean s
  | stringLiteral {ds s} (value : String) :
      Unfolds fs ds s (stringType value) (.choice [value]) s
  | numberLiteral {ds s} (value : Number) : Unfolds fs ds s (.literal (.number value)) .number s
  | booleanLiteral {ds s} (value : Bool) : Unfolds fs ds s (.literal (.boolean value)) .boolean s
  | choice {ds s} {values : List String} (hvalues : values ≠ []) :
      Unfolds fs ds s (.union (values.map stringType)) (.choice values) s
  | array {ds s t p s'} (helement : Unfolds fs ds s t p s') :
      Unfolds fs ds s (.array t) (.array p) s'
  | object {ds s ms ps s'} (hnames : (ms.map Member.name).Nodup)
      (hmembers : UnfoldsMembers fs ds s ms ps s') : Unfolds fs ds s (.object ms) (.object ps) s'
  | name {ds s n m found s₁ t s₂ p s'}
      (hlookup : (lookup m n).on fs s = some (some found, s₁)) (hnew : found ∉ ds)
      (hexpand : expand (.reference n [] m) fs s = some (some t, s₂))
      (hinner : Unfolds fs (found :: ds) s₂ t p s') : Unfolds fs ds s (.reference n [] m) p s'
/-- What the members of an object are with their names unfolded, from the first to the last. -/
inductive UnfoldsMembers (fs : Files) :
    List Found → Session → List (Member (TypeExpr ModuleId)) → List (Member PlainType) →
      Session → Prop where
  | nil {ds s} : UnfoldsMembers fs ds s [] [] s
  | cons {ds s m p s₁ ms ps s'} (hmember : Unfolds fs ds s m.type p s₁)
      (hmembers : UnfoldsMembers fs ds s₁ ms ps s') :
      UnfoldsMembers fs ds s (m :: ms) (⟨m.name, m.optional, p⟩ :: ps) s'
end

variable {fs : Files} {s s' s₁ : Session} {m : ModuleId} {n : String} {keys : List NameKey}
  {ds : List Found} {found : Found}

/-! ## Names that are being expanded -/

/-- Whether names lead to declarations among some, without anything having to be loaded. -/
def LeadTo (fs : Files) (s : Session) (keys : List NameKey) (ds : List Found) : Prop :=
  ∀ key ∈ keys, ∃ found ∈ ds, (lookup key.1 key.2).on fs s = some (some found, s)

theorem leadTo_nil (fs : Files) (s : Session) : LeadTo fs s [] [] :=
  fun _ hkey => absurd hkey List.not_mem_nil

theorem LeadTo.of_extends (h : LeadTo fs s keys ds) (hext : s'.Extends s) :
    LeadTo fs s' keys ds := by
  intro key hkey
  obtain ⟨found, hmem, hlookup⟩ := h key hkey
  exact ⟨found, hmem, lookup_of_extends hlookup hext⟩

theorem LeadTo.cons (h : LeadTo fs s keys ds)
    (hlookup : (lookup m n).on fs s = some (some found, s)) :
    LeadTo fs s ((m, n) :: keys) (found :: ds) := by
  intro key hkey
  rcases List.mem_cons.mp hkey with rfl | hkey
  · exact ⟨found, List.mem_cons_self, hlookup⟩
  · obtain ⟨other, hmem, hother⟩ := h key hkey
    exact ⟨other, List.mem_cons_of_mem _ hmem, hother⟩

/-- A name of a new declaration is not among the names. -/
theorem LeadTo.not_mem (h : LeadTo fs s keys ds)
    (hlookup : (lookup m n).on fs s = some (some found, s₁)) (hnew : found ∉ ds) :
    (m, n) ∉ keys := by
  intro hkey
  obtain ⟨other, hmem, hother⟩ := h (m, n) hkey
  have heq := (Prod.mk.inj (Option.some.inj (hother.symm.trans hlookup))).1
  exact hnew (Option.some.inj heq ▸ hmem)

/-! ## Schemas of shapes -/

theorem schemaWithin_of_name (hkey : (m, n) ∉ keys) {t : TypeExpr ModuleId}
    (hexpand : expand (.reference n [] m) fs s = some (some t, s₁)) :
    schemaWithin keys (.reference n [] m) fs s = schemaWithin ((m, n) :: keys) t fs s₁ := by
  have hname : nameKey? (.reference n [] m) = some (m, n) := by
    simp [nameKey?, TypeExpr.text, TypeExpr.texts, TypeExpr.argsText]
  have hclosed : keys.contains (m, n) = false := by
    simpa using hkey
  rw [schemaWithin.eq_def]
  simp only [hname, hclosed, Bool.false_eq_true, if_false]
  exact Analysis.on_bind hexpand

theorem schemaWithin_literal (l : Literal) :
    schemaWithin keys (.literal l) fs s = some (literalSchema l, s) :=
  schemaWithin_of_leaf rfl (Analysis.on_pure _)

theorem schemaWithin_array {t : TypeExpr ModuleId} {x : Schema}
    (h : schemaWithin keys t fs s = some (x, s')) :
    schemaWithin keys (.array t) fs s =
      some ({ type := some "array", items := some x }, s') := by
  have hplan : (planOf (.array t)).on fs s = some (.array t, s) := rfl
  exact schemaWithin_of_plan rfl hplan (Analysis.on_mapM_cons.mpr ⟨x, s', [], h, rfl, rfl⟩)

/-- What an object schema is made of for some members. -/
def memberSchemas (ms : List (Member (TypeExpr ModuleId))) (xs : List Schema) :
    List (String × Bool × Schema) :=
  (ms.zip xs).map fun (m, x) => (m.name, m.optional, x)

theorem schemaWithin_object {ms : List (Member (TypeExpr ModuleId))} {xs : List Schema}
    (h : ((ms.map Member.type).mapM (m := Analysis) (schemaWithin keys)).on fs s =
      some (xs, s')) :
    schemaWithin keys (.object ms) fs s = some (objectSchema (memberSchemas ms xs), s') := by
  have hplan : (planOf (.object ms)).on fs s = some (.object ms, s) := rfl
  exact schemaWithin_of_plan rfl hplan h

/-- Strings in a union are its members as they stand. -/
theorem flattenUnion_strings (values : List String) :
    flattenUnion (values.map stringType) fs s = some (values.map stringType, s) := by
  have hparts : ∀ f : TypeExpr ModuleId → Analysis (List (TypeExpr ModuleId)),
      (∀ value, f (stringType value) = pure [stringType value]) →
        ((values.map stringType).mapM f).on fs s =
          some (values.map fun value => [stringType value], s) := by
    intro f hf
    induction values with
    | nil => rfl
    | cons value values ih =>
      refine Analysis.on_mapM_cons.mpr ⟨_, s, _, ?_, ih, rfl⟩
      rw [hf]
      rfl
  rw [flattenUnion.eq_def]
  refine (Analysis.on_bind (hparts _ fun value => rfl)).trans ?_
  rw [Analysis.on_pure, ← List.flatMap_def, ← List.map_eq_flatMap]

theorem schemaWithin_choice (values : List String) :
    schemaWithin keys (.union (values.map stringType)) fs s =
      some ({ type := some "string", enumeration := some values }, s) := by
  have hpresent : (values.map stringType).filter (fun t => !t.isNullish) =
      values.map stringType := by
    rw [List.filter_eq_self]
    intro t ht
    obtain ⟨value, -, rfl⟩ := List.mem_map.mp ht
    rfl
  have hvalues : (values.map stringType).mapM TypeExpr.string? = some values := by
    rw [List.mapM_map]
    exact (List.mapM_pure (f := id)).trans (congrArg some values.map_id)
  have hnullable : (values.map stringType).any TypeExpr.isNullish = false := by
    rw [List.any_eq_false]
    intro t ht
    obtain ⟨value, -, rfl⟩ := List.mem_map.mp ht
    simp [TypeExpr.isNullish]
  refine schemaWithin_of_leaf rfl ((Analysis.on_bind (flattenUnion_strings values)).trans ?_)
  simp only [hpresent, hvalues, hnullable]
  rfl

/-! ## What a schema allows -/

/-- A list that is left out when it is empty demands what it would demand. -/
theorem forall_mem_of_left_out {names : List String} {P : String → Prop} :
    (∀ ns, (if names.isEmpty then none else some names) = some ns → ∀ name ∈ ns, P name) ↔
      ∀ name ∈ names, P name := by
  cases names <;> simp

theorem accepts_objectSchema {xs : List (String × Bool × Schema)}
    (hnames : (xs.map Prod.fst).Nodup) (v : Json) :
    (objectSchema xs).accepts v = true ↔ ∃ fields, v = .object fields ∧
      ∀ x ∈ xs, (x.2.1 = false → (v.field? x.1).isSome) ∧
        ∀ y, v.field? x.1 = some y → x.2.2.accepts y = true := by
  have hproperties : Table.ofEntries (xs.map fun x => (x.1, x.2.2)) =
      xs.map fun x => (x.1, x.2.2) := by
    refine Table.ofEntries_of_nodup ?_
    rw [Table.keys, List.map_map]
    exact hnames
  rw [objectSchema, Schema.accepts_object, hproperties]
  refine exists_congr fun fields => and_congr_right fun _ => ?_
  rw [forall_mem_of_left_out, List.forall_mem_map, List.forall_mem_map, and_comm]
  constructor
  · rintro ⟨hrequired, hproperties⟩ x hx
    exact ⟨fun hopt => hrequired x (List.mem_filter.mpr ⟨hx, by simp [hopt]⟩), hproperties x hx⟩
  · intro h
    refine ⟨fun x hx => ?_, fun x hx => (h x hx).2⟩
    obtain ⟨hx, hopt⟩ := List.mem_filter.mp hx
    exact (h x hx).1 (by simpa using hopt)

/-! ## Schemas of plain types -/

theorem names_of_unfoldsMembers {s s' : Session} {ms : List (Member (TypeExpr ModuleId))}
    {ps : List (Member PlainType)} :
    UnfoldsMembers fs ds s ms ps s' → ps.map Member.name = ms.map Member.name
  | .nil => rfl
  | .cons _ hmembers => by rw [List.map_cons, List.map_cons, names_of_unfoldsMembers hmembers]

/-- Whether what is made of a member says what the member is. -/
def Describes (x : String × Bool × Schema) (p : Member PlainType) : Prop :=
  x.1 = p.name ∧ x.2.1 = p.optional ∧ ∀ v, x.2.2.accepts v = true ↔ p.type.Inhabits v

theorem accepts_iff_of_describes {xs : List (String × Bool × Schema)}
    {ps : List (Member PlainType)} (hnames : (ps.map Member.name).Nodup)
    (h : List.Forall₂ Describes xs ps) (v : Json) :
    (objectSchema xs).accepts v = true ↔ (PlainType.object ps).Inhabits v := by
  -- Both sides ask the same of every member, one of its schema and one of its type.
  have heach : (∀ x ∈ xs, (x.2.1 = false → (v.field? x.1).isSome) ∧
      ∀ y, v.field? x.1 = some y → x.2.2.accepts y = true) ↔
        ∀ p ∈ ps, (p.optional = false → (v.field? p.name).isSome) ∧
          ∀ y, v.field? p.name = some y → p.type.Inhabits y := by
    clear hnames
    induction h with
    | nil => simp
    | cons hx _ ih =>
      obtain ⟨hname, hoptional, haccepts⟩ := hx
      rw [List.forall_mem_cons, List.forall_mem_cons, ih, hname, hoptional]
      simp only [haccepts]
  have hkeys : xs.map Prod.fst = ps.map Member.name := by
    clear hnames heach
    induction h with
    | nil => rfl
    | cons hx _ ih => rw [List.map_cons, List.map_cons, hx.1, ih]
  rw [accepts_objectSchema (hkeys ▸ hnames), PlainType.inhabits_object_iff, heach]

mutual
theorem accepts_schemaWithin_iff {ds : List Found} {s s' : Session} {t : TypeExpr ModuleId}
    {p : PlainType} : Unfolds fs ds s t p s' → ∀ {keys : List NameKey}, LeadTo fs s keys ds →
      s'.Extends s ∧ ∃ x, schemaWithin keys t fs s = some (x, s') ∧
        ∀ v, x.accepts v = true ↔ p.Inhabits v
  | .string, _, _ => by
    refine ⟨.refl _, .ofType "string", schemaWithin_of_leaf rfl rfl, fun v => ?_⟩
    rw [Schema.accepts_ofType, PlainType.inhabits_string_iff]
  | .number, _, _ => by
    refine ⟨.refl _, .ofType "number", schemaWithin_of_leaf rfl rfl, fun v => ?_⟩
    rw [Schema.accepts_ofType, PlainType.inhabits_number_iff]
  | .boolean, _, _ => by
    refine ⟨.refl _, .ofType "boolean", schemaWithin_of_leaf rfl rfl, fun v => ?_⟩
    rw [Schema.accepts_ofType, PlainType.inhabits_boolean_iff]
  | .stringLiteral value, _, _ => by
    refine ⟨.refl _, _, schemaWithin_literal _, fun v => ?_⟩
    rw [literalSchema, Schema.accepts_strings, PlainType.inhabits_choice_iff]
  | .numberLiteral value, _, _ => by
    refine ⟨.refl _, _, schemaWithin_literal _, fun v => ?_⟩
    rw [literalSchema, Schema.accepts_ofType, PlainType.inhabits_number_iff]
  | .booleanLiteral value, _, _ => by
    refine ⟨.refl _, _, schemaWithin_literal _, fun v => ?_⟩
    rw [literalSchema, Schema.accepts_ofType, PlainType.inhabits_boolean_iff]
  | .choice _, _, _ => by
    refine ⟨.refl _, _, schemaWithin_choice _, fun v => ?_⟩
    rw [Schema.accepts_strings, PlainType.inhabits_choice_iff]
  | .array helement, _, hkeys => by
    obtain ⟨hext, x, hx, haccepts⟩ := accepts_schemaWithin_iff helement hkeys
    refine ⟨hext, _, schemaWithin_array hx, fun v => ?_⟩
    rw [Schema.accepts_array, PlainType.inhabits_array_iff]
    simp only [haccepts]
  | .object hnames hmembers, _, hkeys => by
    obtain ⟨hext, xs, hxs, hdescribes⟩ := describes_memberSchemas hmembers hkeys
    refine ⟨hext, _, schemaWithin_object hxs, accepts_iff_of_describes ?_ hdescribes⟩
    rw [names_of_unfoldsMembers hmembers]
    exact hnames
  | .name hlookup hnew hexpand hinner, _, hkeys => by
    -- The name is not open yet, or it would lead to a declaration that is being unfolded. After
    -- the expansion it leads to its own, whatever was loaded on the way.
    have hext := grows_expand _ _ _ _ _ hexpand
    have hafter := lookup_of_extends hlookup (extends_lookup_of_expand hlookup hexpand)
    obtain ⟨hext', x, hx, haccepts⟩ :=
      accepts_schemaWithin_iff hinner ((hkeys.of_extends hext).cons hafter)
    refine ⟨hext'.trans hext, x, ?_, haccepts⟩
    rw [schemaWithin_of_name (hkeys.not_mem hlookup hnew) hexpand]
    exact hx
theorem describes_memberSchemas {ds : List Found} {s s' : Session}
    {ms : List (Member (TypeExpr ModuleId))} {ps : List (Member PlainType)} :
    UnfoldsMembers fs ds s ms ps s' → ∀ {keys : List NameKey}, LeadTo fs s keys ds →
      s'.Extends s ∧ ∃ xs,
        ((ms.map Member.type).mapM (m := Analysis) (schemaWithin keys)).on fs s = some (xs, s') ∧
          List.Forall₂ Describes (memberSchemas ms xs) ps
  | .nil, _, _ => ⟨.refl _, [], rfl, .nil⟩
  | .cons hmember hmembers, _, hkeys => by
    obtain ⟨hext, x, hx, haccepts⟩ := accepts_schemaWithin_iff hmember hkeys
    obtain ⟨hext', xs, hxs, hdescribes⟩ :=
      describes_memberSchemas hmembers (hkeys.of_extends hext)
    exact ⟨hext'.trans hext, x :: xs, Analysis.on_mapM_cons.mpr ⟨x, _, xs, hx, hxs, rfl⟩,
      .cons ⟨rfl, rfl, haccepts⟩ hdescribes⟩
end

/-- **A value validates against the schema of a type exactly if it is of the type.** -/
theorem accepts_schemaOf_iff {t : TypeExpr ModuleId} {p : PlainType}
    (h : Unfolds fs [] s t p s') :
    ∃ x, (schemaOf t).on fs s = some (x, s') ∧ ∀ v, x.accepts v = true ↔ p.Inhabits v :=
  (accepts_schemaWithin_iff h (leadTo_nil fs s)).2

def roleType : TypeExpr ModuleId := .union (["admin", "guest"].map stringType)

def userMembers : List (Member (TypeExpr ModuleId)) :=
  [⟨"id", false, .keyword .number⟩, ⟨"role", false, .reference "Role" [] 0⟩,
    ⟨"previous", true, .array (.reference "Role" [] 0)⟩]

/-- A module with a name for some strings, and an interface that uses it twice. -/
def rolesSession : Session :=
  { Session.start .empty with
    modules := [{ Module.empty ⟨"roles.ts"⟩ with
      declarations :=
        [("Role", .typeAlias [] roleType), ("User", .interface [] [] userMembers)] }] }

def usersType : PlainType :=
  .array (.object [
    ⟨"id", false, .number⟩,
    ⟨"role", false, .choice ["admin", "guest"]⟩,
    ⟨"previous", true, .array (.choice ["admin", "guest"])⟩])

theorem accepts_schemaOf_iff_users :
    Unfolds ⟨[], []⟩ [] rolesSession (.array (.reference "User" [] 0)) usersType rolesSession ∧
      ∃ x, (schemaOf (.array (.reference "User" [] 0))).on ⟨[], []⟩ rolesSession =
          some (x, rolesSession) ∧
        ∀ v, x.accepts v = true ↔ usersType.Inhabits v := by
  have hlookupRole : (lookup 0 "Role").on ⟨[], []⟩ rolesSession =
      some (some (0, .typeAlias [] roleType), rolesSession) := by cbv
  have hexpandRole : expand (.reference "Role" [] 0) ⟨[], []⟩ rolesSession =
      some (some roleType, rolesSession) := by cbv
  have hlookupUser : (lookup 0 "User").on ⟨[], []⟩ rolesSession =
      some (some (0, .interface [] [] userMembers), rolesSession) := by cbv
  have hexpandUser : expand (.reference "User" [] 0) ⟨[], []⟩ rolesSession =
      some (some (.object userMembers), rolesSession) := by cbv
  have hrole : Unfolds ⟨[], []⟩ [(0, .interface [] [] userMembers)] rolesSession
      (.reference "Role" [] 0) (.choice ["admin", "guest"]) rolesSession :=
    .name hlookupRole (by simp) hexpandRole (.choice (by decide))
  have huser : Unfolds ⟨[], []⟩ [] rolesSession (.array (.reference "User" [] 0)) usersType
      rolesSession :=
    .array (.name hlookupUser List.not_mem_nil hexpandUser (.object (by decide)
      (.cons .number (.cons hrole (.cons (.array hrole) .nil)))))
  exact ⟨huser, accepts_schemaOf_iff huser⟩

end Session

end Routebook
