import Routebook.Json.Basic
import Routebook.Yaml.Node
import Routebook.Yaml.Plain

/-!
# Settings

A configuration can be written in two formats. A `Setting` is a value of either, with what the
formats differ in decided: **every scalar of Yaml is a text where a text is asked for,** while in
Json only a string is one.
-/

namespace Routebook

open Yaml (PlainKind)

inductive Setting where
  /-- What the scalar is as a text, if it can be one, and what it is on its own account. -/
  | scalar (text : Option String) (kind : Option PlainKind)
  | list (items : List Setting)
  | record (fields : List (Setting × Setting))
  deriving Inhabited

namespace Setting

mutual
def ofJson : Json → Setting
  | .null => .scalar none (some .null)
  | .bool _ => .scalar none (some .bool)
  | .number _ => .scalar none (some .number)
  | .string s => .scalar (some s) (some .text)
  | .array xs => .list (ofJsonItems xs)
  | .object fs => .record (ofJsonFields fs)
def ofJsonItems : List Json → List Setting
  | [] => []
  | x :: xs => ofJson x :: ofJsonItems xs
def ofJsonFields : List (String × Json) → List (Setting × Setting)
  | [] => []
  | (k, x) :: fs => (.scalar (some k) (some .text), ofJson x) :: ofJsonFields fs
end

/-- What a scalar of Yaml is by its tag, or without one by its form. A tag of one's own is for
nothing that a configuration holds. -/
def scalarKind (tag : Option String) (plain : Bool) (text : String) : Option PlainKind :=
  let formed := if plain then Yaml.plainKind text else .text
  match tag with
  | none | some "!" => some formed
  | some "tag:yaml.org,2002:null" => if Yaml.isNullWord text then some .null else none
  | some "tag:yaml.org,2002:bool" => if Yaml.isBoolWord text then some .bool else none
  | some "tag:yaml.org,2002:int" | some "tag:yaml.org,2002:float" =>
    if Yaml.isNumber text then some .number else none
  | some t => if t.toList.head? == some '!' then none else some .text

mutual
def ofYaml : Yaml.Node → Setting
  | .scalar tag plain text => .scalar (some text) (scalarKind tag plain text)
  | .sequence _ xs => .list (ofYamlItems xs)
  | .mapping _ fs => .record (ofYamlFields fs)
def ofYamlItems : List Yaml.Node → List Setting
  | [] => []
  | x :: xs => ofYaml x :: ofYamlItems xs
def ofYamlFields : List (Yaml.Node × Yaml.Node) → List (Setting × Setting)
  | [] => []
  | (k, x) :: fs => (ofYaml k, ofYaml x) :: ofYamlFields fs
end

/-! ## Reading settings -/

def text? : Setting → Option String
  | scalar text _ => text
  | _ => none

def ownText? : Setting → Option String
  | scalar text (some .text) => text
  | _ => none

def isNull : Setting → Bool
  | scalar _ (some .null) => true
  | _ => false

/-- A list. Where nothing is written in Yaml it is empty. -/
def items? : Setting → Option (List Setting)
  | list xs => some xs
  | scalar (some "") (some .null) => some []
  | _ => none

def listOf? {α : Type} (read : Setting → Option α) (s : Setting) : Option (List α) := do
  (← s.items?).mapM read

def texts? : Setting → Option (List String) := listOf? text?

abbrev Fields := List (String × Setting)

/-- The fields of a record, none of those with the given names twice; or of a list in the order of
the names, which may leave the last out. -/
def fields? (names : List String) : Setting → Option Fields
  | record fs => do
    let fs ← fs.mapM fun (k, x) => k.text?.map fun k => (k, x)
    let known := fs.filter fun f => names.contains f.1
    if (known.map Prod.fst).Nodup then some known else none
  | list xs => if xs.length ≤ names.length then some (names.zip xs) else none
  | _ => none

/-- The value of a field that must be there. -/
def Fields.required? {α : Type} (fs : Fields) (name : String) (read : Setting → Option α) :
    Option α := do
  read (← fs.lookup name)

/-- The value of a field that can be left out or say nothing. -/
def Fields.optional? {α : Type} (fs : Fields) (name : String) (read : Setting → Option α) :
    Option (Option α) :=
  match fs.lookup name with
  | none => some none
  | some s => if s.isNull then some none else (read s).map some

/-- The value of a field that has a value of its own if it is left out. -/
def Fields.withDefault? {α : Type} (fs : Fields) (name : String) (read : Setting → Option α)
    (default : α) : Option α :=
  match fs.lookup name with
  | none => some default
  | some s => read s

end Setting

end Routebook
