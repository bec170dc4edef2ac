import Routebook.Route.Method
import Routebook.Table

/-!
# Documents

The document that describes an interface: what it is called, where it is served, and the operations
of its paths with their parameters, bodies and responses. Paths, responses, media types and
properties are tables in order of insertion, because the document shows that order.

A field that can be left out is an `Option`, and **leaving a list out is not the same as listing
nothing.**
-/

namespace Routebook

/-- What the values of a place in the document look like. The schema with no field set allows
everything. -/
structure Schema where
  type : Option String := none
  enumeration : Option (List String) := none
  nullable : Option Bool := none
  oneOf : Option (List Schema) := none
  items : Option Schema := none
  properties : Option (List (String × Schema)) := none
  required : Option (List String) := none
  deriving Inhabited

def Schema.ofType (type : String) : Schema := { type := some type }

def Schema.ofAlternatives (schemas : List Schema) : Schema := { oneOf := some schemas }

structure Info where
  title : String
  version : String
  description : Option String
  deriving Repr, DecidableEq, Inhabited

structure Server where
  url : String
  description : Option String
  deriving Repr, DecidableEq, Inhabited

/-- Where a parameter is read from. -/
inductive ParameterPlace where
  | query | path | header | cookie
  deriving Repr, DecidableEq, Inhabited

structure Parameter where
  name : String
  place : ParameterPlace
  required : Bool
  schema : Schema
  deriving Inhabited

abbrev Content := Table Schema

structure RequestBody where
  required : Bool
  content : Content
  deriving Inhabited

structure Response where
  description : String
  content : Option Content
  deriving Inhabited

structure Operation where
  summary : Option String := none
  description : Option String := none
  tags : Option (List String) := none
  deprecated : Option Bool := none
  parameters : List Parameter := []
  requestBody : Option RequestBody := none
  responses : Table Response := []
  deriving Inhabited

/-- The operations of one path, at most one a method. -/
structure PathItem where
  operation? : Method → Option Operation

namespace PathItem

def empty : PathItem := ⟨fun _ => none⟩

/-- The same item with the operation of one method replaced. -/
def put (item : PathItem) (m : Method) (o : Operation) : PathItem :=
  ⟨fun other => if other = m then some o else item.operation? other⟩

/-- The operations of both items; of two for one method the second item's. -/
def merge (first second : PathItem) : PathItem :=
  ⟨fun m => (second.operation? m).or (first.operation? m)⟩

/-- The same item with every operation changed. -/
def mapOperations (item : PathItem) (f : Method → Operation → Operation) : PathItem :=
  ⟨fun m => (item.operation? m).map (f m)⟩

def methods (item : PathItem) : List Method :=
  Method.all.filter fun m => (item.operation? m).isSome

/-- Two items with the same operations are equal. -/
theorem ext_operation {a b : PathItem} (h : ∀ m, a.operation? m = b.operation? m) : a = b := by
  cases a
  cases b
  congr
  funext m
  exact h m

theorem operation?_put (item : PathItem) (m other : Method) (o : Operation) :
    (item.put m o).operation? other = if other = m then some o else item.operation? other := rfl

end PathItem

structure Document where
  openapi : String
  info : Info
  servers : Option (List Server)
  tags : Option (List String)
  paths : Table PathItem

/-- The version of the format that documents follow when nothing else is said. -/
def defaultOpenapi : String := "3.0.0"

/-- A document of nothing but paths. -/
def Document.ofPaths (paths : Table PathItem) : Document :=
  ⟨defaultOpenapi, ⟨"Generated API", "1.0.0", none⟩, none, none, paths⟩

def Document.operationCount (d : Document) : Nat :=
  d.paths.foldl (fun n (_, item) => n + item.methods.length) 0

end Routebook
