import Routebook.Document.Basic
import Routebook.Json.Basic

/-!
# Validating values

What a schema demands of a value. A keyword that is not set demands nothing, and **a keyword that
is about arrays or objects demands nothing of any other value**: only `type` tells kinds of values
apart. An object may have properties that its schema does not list.
-/

namespace Routebook

/-- The name schemas have for a kind of values. There is none for `null`. -/
def Json.typeName? : Json → Option String
  | .null => none
  | .bool _ => some "boolean"
  | .number _ => some "number"
  | .string _ => some "string"
  | .array _ => some "array"
  | .object _ => some "object"

namespace Schema

/-- A value is of the named type, or `null` where that is allowed besides. -/
def typeAllows (nullable : Option Bool) (v : Json) (type : String) : Bool :=
  v.typeName? == some type || (nullable == some true && v.typeName? == none)

def requiredAllows (names : List String) : Json → Bool
  | .object fs => names.all fun name => ((Json.object fs).field? name).isSome
  | _ => true

mutual
/-- Whether a value validates against a schema. -/
def accepts : Schema → Json → Bool
  | ⟨type, enumeration, nullable, oneOf, items, properties, required⟩, v =>
    type.all (typeAllows nullable v)
      && enumeration.all (fun values => values.any (v.string? == some ·))
      && oneOfAllows oneOf v && itemsAllow items v && propertiesAllow properties v
      && required.all (requiredAllows · v)
def oneOfAllows : Option (List Schema) → Json → Bool
  | none, _ => true
  | some ss, v => countAccepting ss v == 1
/-- How many of the schemas a value validates against. -/
def countAccepting : List Schema → Json → Nat
  | [], _ => 0
  | s :: ss, v => (accepts s v).toNat + countAccepting ss v
def itemsAllow : Option Schema → Json → Bool
  | some s, .array xs => xs.all fun x => accepts s x
  | _, _ => true
def propertiesAllow : Option (List (String × Schema)) → Json → Bool
  | none, _ => true
  | some ps, v => propertyListAllows ps v
def propertyListAllows : List (String × Schema) → Json → Bool
  | [], _ => true
  | (name, s) :: ps, v => (v.field? name).all (fun x => accepts s x) && propertyListAllows ps v
end

theorem propertyListAllows_iff (ps : List (String × Schema)) (v : Json) :
    propertyListAllows ps v = true ↔
      ∀ p ∈ ps, ∀ x, v.field? p.1 = some x → p.2.accepts x = true := by
  induction ps with
  | nil => simp [propertyListAllows]
  | cons p ps ih =>
    obtain ⟨name, s⟩ := p
    rw [propertyListAllows, Bool.and_eq_true, ih, List.forall_mem_cons]
    simp [Option.all_eq_true]

theorem accepts_ofType (type : String) (v : Json) :
    (ofType type).accepts v = true ↔ v.typeName? = some type := by
  simp [ofType, accepts, typeAllows, oneOfAllows, itemsAllow, propertiesAllow]

/-- The schema of a list of strings allows these. -/
theorem accepts_strings (values : List String) (v : Json) :
    ({ type := some "string", enumeration := some values } : Schema).accepts v = true ↔
      ∃ value ∈ values, v = .string value := by
  cases v <;>
    simp [accepts, typeAllows, oneOfAllows, itemsAllow, propertiesAllow, Json.typeName?,
      Json.string?]

theorem accepts_array (s : Schema) (v : Json) :
    ({ type := some "array", items := some s } : Schema).accepts v = true ↔
      ∃ xs, v = .array xs ∧ ∀ x ∈ xs, s.accepts x = true := by
  cases v <;>
    simp [accepts, typeAllows, oneOfAllows, itemsAllow, propertiesAllow, Json.typeName?]

theorem accepts_object (ps : List (String × Schema)) (required : Option (List String)) (v : Json) :
    ({ type := some "object", properties := some ps, required } : Schema).accepts v = true ↔
      ∃ fs, v = .object fs ∧ (∀ p ∈ ps, ∀ x, v.field? p.1 = some x → p.2.accepts x = true) ∧
        ∀ names, required = some names → ∀ name ∈ names, (v.field? name).isSome := by
  cases v <;>
    simp [accepts, typeAllows, oneOfAllows, itemsAllow, propertiesAllow, Json.typeName?,
      propertyListAllows_iff, requiredAllows, Option.all_eq_true]

end Schema

end Routebook
