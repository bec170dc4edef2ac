import Routebook.Document.Json
import Routebook.Proofs.Table

/-!
# Fields of records

The fields of a record are always written under some of the record's names in their order
(`optionalField_sublist`), so none is there twice, and **looking a field up finds what was written
for it** (`lookup_optionalField`). A field is read back if its reader reads what its writer writes.
-/

namespace Routebook

variable {α : Type}

/-! ## Fields -/

theorem optionalField_sublist (name : String) (write : α → Json) (value : Option α) :
    ((optionalField name write value).map Prod.fst).Sublist [name] := by
  cases value with
  | none => exact List.nil_sublist _
  | some a => exact List.Sublist.refl _

@[simp]
theorem lookup_field (key name : String) (j : Json) (fs : List (String × Json)) :
    List.lookup key ((name, j) :: fs) = if key = name then some j else fs.lookup key :=
  Table.get?_cons name key j fs

@[simp]
theorem lookup_optionalField (key name : String) (write : α → Json) (value : Option α) :
    (optionalField name write value).lookup key = if key = name then value.map write else none := by
  cases value with
  | none => simp [optionalField]
  | some a => exact lookup_field key name (write a) []

namespace Json

/-- Fields under some of a record's names in their order are the record's fields. -/
theorem fieldsNamed?_of_sublist {lenient : Bool} {names : List String} {fs : Fields}
    (hnames : names.Nodup) (h : (fs.map Prod.fst).Sublist names) :
    (Json.object fs).fieldsNamed? lenient names = some fs := by
  have hknown : (fs.filter fun f => names.contains f.1) = fs := by
    rw [List.filter_eq_self]
    intro f hf
    exact List.contains_iff_mem.mpr (h.subset (List.mem_map_of_mem hf))
  rw [fieldsNamed?]
  simp only [hknown, if_pos (hnames.sublist h)]

theorem Fields.required?_of_lookup {fs : Fields} {name : String} {read : Json → Option α} {j : Json}
    (h : fs.lookup name = some j) : fs.required? name read = read j := by
  rw [Fields.required?, h]
  rfl

/-- A field is read back if its writer never writes `null` and its reader reads what was
written. -/
theorem Fields.optional?_of_lookup (write : α → Json) {fs : Fields} {name : String}
    {read : Json → Option α} {value : Option α} (h : fs.lookup name = value.map write)
    (hnull : ∀ a, write a ≠ .null) (hread : ∀ a, value = some a → read (write a) = some a) :
    fs.optional? name read = some value := by
  cases value with
  | none =>
    rw [Fields.optional?, h]
    rfl
  | some a =>
    rw [Fields.optional?, h]
    have ha := hread a rfl
    cases hw : write a with
    | null => exact absurd hw (hnull a)
    | _ =>
      simp only [Option.map_some, hw] at ha ⊢
      rw [ha]
      rfl

theorem Fields.optional?_string {fs : Fields} {name : String} {value : Option String}
    (h : fs.lookup name = value.map .string) : fs.optional? name string? = some value :=
  Fields.optional?_of_lookup .string h (fun _ => Json.noConfusion) fun _ _ => rfl

theorem Fields.optional?_bool {fs : Fields} {name : String} {value : Option Bool}
    (h : fs.lookup name = value.map .bool) : fs.optional? name bool? = some value :=
  Fields.optional?_of_lookup .bool h (fun _ => Json.noConfusion) fun _ _ => rfl

/-- What is written for each element of a list is read again for each. -/
theorem mapM_map_eq_some {β : Type} {read : β → Option α} {write : α → β} {xs : List α}
    (h : ∀ x ∈ xs, read (write x) = some x) : (xs.map write).mapM read = some xs := by
  induction xs with
  | nil => rfl
  | cons x xs ih =>
    rw [List.map_cons, List.mapM_cons, h x List.mem_cons_self,
      ih fun y hy => h y (List.mem_cons_of_mem _ hy)]
    rfl

theorem listOf?_map {read : Json → Option α} {write : α → Json} {xs : List α}
    (h : ∀ x ∈ xs, read (write x) = some x) : listOf? read (.array (xs.map write)) = some xs :=
  mapM_map_eq_some h

theorem tableOf?_tableJson {read : Json → Option α} {write : α → Json} {t : Table α}
    (h : t.Keyed fun a => read (write a) = some a) :
    tableOf? read (tableJson write t) = some t := by
  rw [tableOf?, tableJson, fields?]
  simp only [Option.bind_eq_bind, Option.bind_some]
  rw [mapM_map_eq_some fun e he => ?_]
  · exact congrArg some (Table.ofEntries_of_nodup h.nodup)
  · have hvalue : read (write e.2) = some e.2 := h.values e he
    simp only [hvalue]
    rfl

theorem strings?_strings (xs : List String) : strings? (strings xs) = some xs :=
  listOf?_map fun _ _ => rfl

theorem Fields.optional?_strings {fs : Fields} {name : String} {value : Option (List String)}
    (h : fs.lookup name = value.map strings) : fs.optional? name strings? = some value :=
  Fields.optional?_of_lookup strings h (fun _ => Json.noConfusion) fun _ _ => strings?_strings _

/-! ## Nesting -/

theorem depth_le_depthOfItems {xs : List Json} {x : Json} (h : x ∈ xs) :
    x.depth ≤ depthOfItems xs := by
  induction xs with
  | nil => exact absurd h List.not_mem_nil
  | cons y ys ih =>
    rw [depthOfItems]
    rcases List.mem_cons.mp h with rfl | h
    · exact Nat.le_max_left _ _
    · exact Nat.le_trans (ih h) (Nat.le_max_right _ _)

theorem depth_le_depthOfFields {fs : List (String × Json)} {f : String × Json} (h : f ∈ fs) :
    f.2.depth ≤ depthOfFields fs := by
  induction fs with
  | nil => exact absurd h List.not_mem_nil
  | cons g gs ih =>
    rw [depthOfFields]
    rcases List.mem_cons.mp h with rfl | h
    · exact Nat.le_max_left _ _
    · exact Nat.le_trans (ih h) (Nat.le_max_right _ _)

theorem depth_lt_of_mem_items {xs : List Json} {x : Json} (h : x ∈ xs) :
    x.depth < (Json.array xs).depth := Nat.lt_succ_of_le (depth_le_depthOfItems h)

theorem depth_lt_of_lookup {fs : List (String × Json)} {name : String} {x : Json}
    (h : fs.lookup name = some x) : x.depth < (Json.object fs).depth :=
  Nat.lt_succ_of_le (depth_le_depthOfFields (Table.mem_of_get? h))

end Json

end Routebook
