import Routebook.Number.Basic

/-!
# Type expressions

A `TypeExpr` is a type as a source file writes it: keywords, literals, arrays, tuples, object
literals, unions, intersections, and three ways to name a type that is written elsewhere (`Foo<T>`,
`import("mod").Foo<T>`, `typeof foo`). Anything else is kept as its source text.

A name means something only in the file that uses it, so every naming node carries a *scope* of
type `σ`. A tree fresh from the reader has `σ = Unit`; inside a session it is the number of the
module the tree was written in. **`map` is the only change of scope**, and `substitute` the only
change of names.
-/

namespace Routebook

/-- Types with a keyword of their own. -/
inductive Keyword where
  | any | unknown | never | void | null | undefined
  | string | number | boolean | bigint | symbol | object
  deriving Repr, DecidableEq, Inhabited

inductive Literal where
  | string (value : String)
  | number (value : Number)
  | boolean (value : Bool)
  deriving Repr, DecidableEq, Inhabited

structure Member (τ : Type) where
  name : String
  optional : Bool
  type : τ
  deriving Repr

inductive TypeExpr (σ : Type) where
  | keyword (keyword : Keyword)
  | literal (literal : Literal)
  | array (element : TypeExpr σ)
  | tuple (items : List (TypeExpr σ))
  | object (members : List (Member (TypeExpr σ)))
  | union (items : List (TypeExpr σ))
  | intersection (items : List (TypeExpr σ))
  | reference (name : String) (args : List (TypeExpr σ)) (scope : σ)
  | imported (specifier : String) (qualifier : Option String) (args : List (TypeExpr σ))
      (scope : σ)
  | query (name : String) (scope : σ)
  | other (source : String)
  deriving Inhabited

structure TypeParameter (σ : Type) where
  name : String
  default : Option (TypeExpr σ)

namespace TypeExpr

variable {σ τ : Type}

/-- The kind of a type, as diagnostics name it. -/
def kind : TypeExpr σ → String
  | keyword _ => "Keyword"
  | literal _ => "LiteralType"
  | array _ => "ArrayType"
  | tuple _ => "TupleType"
  | object _ => "TypeLiteral"
  | union _ => "UnionType"
  | intersection _ => "IntersectionType"
  | reference .. => "TypeReference"
  | imported .. => "ImportType"
  | query .. => "TypeQuery"
  | other _ => "Unsupported"

def members? : TypeExpr σ → Option (List (Member (TypeExpr σ)))
  | object ms => some ms
  | _ => none

def string? : TypeExpr σ → Option String
  | literal (.string s) => some s
  | _ => none

/-- The value of a numeric literal that is a whole number of at most sixteen bits. -/
def status? : TypeExpr σ → Option Nat
  | literal (.number n) => n.toNat?.filter (· ≤ 65535)
  | _ => none

def isNullish : TypeExpr σ → Bool
  | keyword .null | keyword .undefined => true
  | _ => false

/-- The type arguments of a reference or an import type. -/
def args : TypeExpr σ → List (TypeExpr σ)
  | reference _ as _ => as
  | imported _ _ as _ => as
  | _ => []

/-! ## Change of scope -/

mutual
/-- The same type with every scope renamed. -/
def map (f : σ → τ) : TypeExpr σ → TypeExpr τ
  | keyword k => keyword k
  | literal l => literal l
  | array t => array (map f t)
  | tuple ts => tuple (mapList f ts)
  | object ms => object (mapMembers f ms)
  | union ts => union (mapList f ts)
  | intersection ts => intersection (mapList f ts)
  | reference n as s => reference n (mapList f as) (f s)
  | imported sp q as s => imported sp q (mapList f as) (f s)
  | query n s => query n (f s)
  | other s => other s
def mapList (f : σ → τ) : List (TypeExpr σ) → List (TypeExpr τ)
  | [] => []
  | t :: ts => map f t :: mapList f ts
def mapMembers (f : σ → τ) : List (Member (TypeExpr σ)) → List (Member (TypeExpr τ))
  | [] => []
  | ⟨n, o, t⟩ :: ms => ⟨n, o, map f t⟩ :: mapMembers f ms
end

/-! ## Substitution -/

/-- What the type parameters of a declaration stand for. -/
abbrev Bindings (σ : Type) := String → Option (TypeExpr σ)

mutual
/-- Replace every reference without arguments whose name is bound. A replacement is not looked
into again, and a name with arguments is never a parameter. -/
def substitute (b : Bindings σ) : TypeExpr σ → TypeExpr σ
  | keyword k => keyword k
  | literal l => literal l
  | array t => array (substitute b t)
  | tuple ts => tuple (substituteList b ts)
  | object ms => object (substituteMembers b ms)
  | union ts => union (substituteList b ts)
  | intersection ts => intersection (substituteList b ts)
  | reference n [] s => (b n).getD (reference n [] s)
  | reference n (a :: as) s => reference n (substitute b a :: substituteList b as) s
  | imported sp q as s => imported sp q (substituteList b as) s
  | query n s => query n s
  | other s => other s
def substituteList (b : Bindings σ) : List (TypeExpr σ) → List (TypeExpr σ)
  | [] => []
  | t :: ts => substitute b t :: substituteList b ts
def substituteMembers (b : Bindings σ) : List (Member (TypeExpr σ)) → List (Member (TypeExpr σ))
  | [] => []
  | ⟨n, o, t⟩ :: ms => ⟨n, o, substitute b t⟩ :: substituteMembers b ms
end

theorem substituteMembers_eq (b : Bindings σ) (ms : List (Member (TypeExpr σ))) :
    substituteMembers b ms = ms.map fun m => ⟨m.name, m.optional, substitute b m.type⟩ := by
  induction ms with
  | nil => rfl
  | cons m ms ih => simp [substituteMembers, ih]

end TypeExpr

/-- The first member of a name. -/
def Member.find? {τ : Type} (ms : List (Member τ)) (name : String) : Option (Member τ) :=
  ms.find? (·.name == name)

end Routebook
