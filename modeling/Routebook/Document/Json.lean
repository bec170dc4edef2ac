import Routebook.Document.Basic
import Routebook.Json.Basic

/-!
# Documents as Json

`toJson` writes a document's fields in their fixed order and leaves out what is not set, a list of
parameters also when it is empty. `ofJson?` reads a document back: fields in any order, fields it
does not know passed over, no field twice, and `null` for what is not set. A list of values in the
fixed order of the fields is read as well.
-/

namespace Routebook

/-! ## Fields -/

/-- A field that is written if it is set. -/
def optionalField {α : Type} (name : String) (write : α → Json) (value : Option α) :
    List (String × Json) :=
  match value with
  | none => []
  | some a => [(name, write a)]

namespace Json

abbrev Fields := List (String × Json)

/-- The fields of an object or of a list in the order of the names. Without `lenient` a list has to
give all of them. -/
def fieldsNamed? (lenient : Bool) (names : List String) : Json → Option Fields
  | .object fs =>
    let known := fs.filter fun f => names.contains f.1
    if (known.map Prod.fst).Nodup then some known else none
  | .array xs =>
    if xs.length = names.length || (lenient && xs.length < names.length) then some (names.zip xs)
    else none
  | _ => none

/-- The value of a field that must be there. -/
def Fields.required? {α : Type} (fs : Fields) (name : String) (read : Json → Option α) :
    Option α := do
  read (← fs.lookup name)

/-- The value of a field that can be left out or be `null`. -/
def Fields.optional? {α : Type} (fs : Fields) (name : String) (read : Json → Option α) :
    Option (Option α) :=
  match fs.lookup name with
  | none | some .null => some none
  | some j => (read j).map some

def listOf? {α : Type} (read : Json → Option α) (j : Json) : Option (List α) := do
  (← j.items?).mapM read

/-- The values of a list that is left out when it is empty. -/
def Fields.listed? {α : Type} (fs : Fields) (name : String) (read : Json → Option α) :
    Option (List α) :=
  match fs.lookup name with
  | none => some []
  | some j => listOf? read j

/-- Entries of an object; of two under one name the last counts, in the place of the first. -/
def tableOf? {α : Type} (read : Json → Option α) (j : Json) : Option (Table α) := do
  let entries ← (← j.fields?).mapM fun (k, x) => (read x).map fun a => (k, a)
  return Table.ofEntries entries

def strings? : Json → Option (List String) := listOf? Json.string?

end Json

/-! ## Writing lists and tables -/

def strings (xs : List String) : Json := .array (xs.map .string)

def tableJson {α : Type} (write : α → Json) (t : Table α) : Json :=
  .object (t.map fun (k, a) => (k, write a))

/-! ## Schemas -/

def schemaFields : List String :=
  ["type", "enum", "nullable", "oneOf", "items", "properties", "required"]

mutual
def Schema.toJson : Schema → Json
  | ⟨type, enumeration, nullable, oneOf, items, properties, required⟩ =>
    .object (optionalField "type" .string type ++ optionalField "enum" strings enumeration
      ++ optionalField "nullable" .bool nullable ++ alternativesField oneOf ++ itemsField items
      ++ propertiesField properties ++ optionalField "required" strings required)
def alternativesField : Option (List Schema) → List (String × Json)
  | none => []
  | some ss => [("oneOf", .array (schemasJson ss))]
def schemasJson : List Schema → List Json
  | [] => []
  | s :: ss => s.toJson :: schemasJson ss
def itemsField : Option Schema → List (String × Json)
  | none => []
  | some s => [("items", s.toJson)]
def propertiesField : Option (List (String × Schema)) → List (String × Json)
  | none => []
  | some ps => [("properties", .object (propertiesJson ps))]
def propertiesJson : List (String × Schema) → List (String × Json)
  | [] => []
  | (k, s) :: ps => (k, s.toJson) :: propertiesJson ps
end

/-- Read a schema. A schema nests no deeper than the value it is read from. -/
def schemaWithin? : Nat → Json → Option Schema
  | 0, _ => none
  | n + 1, j => do
    let fs ← j.fieldsNamed? false schemaFields
    let read := schemaWithin? n
    return {
      type := ← fs.optional? "type" Json.string?
      enumeration := ← fs.optional? "enum" Json.strings?
      nullable := ← fs.optional? "nullable" Json.bool?
      oneOf := ← fs.optional? "oneOf" (Json.listOf? read)
      items := ← fs.optional? "items" read
      properties := ← fs.optional? "properties" (Json.tableOf? read)
      required := ← fs.optional? "required" Json.strings? }

def Schema.ofJson? (j : Json) : Option Schema := schemaWithin? (j.depth + 1) j

/-! ## Operations -/

def ParameterPlace.name : ParameterPlace → String
  | query => "query"
  | path => "path"
  | header => "header"
  | cookie => "cookie"

def ParameterPlace.ofName? (name : String) : Option ParameterPlace :=
  [query, path, header, cookie].find? fun p => p.name == name

/-- A place is its name, or an object with the name and nothing under it. -/
def ParameterPlace.ofJson? : Json → Option ParameterPlace
  | .string s => ofName? s
  | .object [(s, .null)] => ofName? s
  | _ => none

def Info.toJson (i : Info) : Json :=
  .object ([("title", .string i.title), ("version", .string i.version)]
    ++ optionalField "description" .string i.description)

def Info.ofJson? (j : Json) : Option Info := do
  let fs ← j.fieldsNamed? true ["title", "version", "description"]
  return ⟨← fs.required? "title" Json.string?, ← fs.required? "version" Json.string?,
    ← fs.optional? "description" Json.string?⟩

def Server.toJson (s : Server) : Json :=
  .object (("url", .string s.url) :: optionalField "description" .string s.description)

def Server.ofJson? (j : Json) : Option Server := do
  let fs ← j.fieldsNamed? true ["url", "description"]
  return ⟨← fs.required? "url" Json.string?, ← fs.optional? "description" Json.string?⟩

def tagJson (name : String) : Json := .object [("name", .string name)]

def tagOfJson? (j : Json) : Option String := do
  (← j.fieldsNamed? true ["name"]).required? "name" Json.string?

def Parameter.toJson (p : Parameter) : Json :=
  .object [("name", .string p.name), ("in", .string p.place.name), ("required", .bool p.required),
    ("schema", p.schema.toJson)]

def Parameter.ofJson? (j : Json) : Option Parameter := do
  let fs ← j.fieldsNamed? true ["name", "in", "required", "schema"]
  return ⟨← fs.required? "name" Json.string?, ← fs.required? "in" ParameterPlace.ofJson?,
    ← fs.required? "required" Json.bool?, ← fs.required? "schema" Schema.ofJson?⟩

def mediaTypeJson (s : Schema) : Json := .object [("schema", s.toJson)]

def mediaTypeOfJson? (j : Json) : Option Schema := do
  (← j.fieldsNamed? true ["schema"]).required? "schema" Schema.ofJson?

def contentJson : Content → Json := tableJson mediaTypeJson

def contentOfJson? : Json → Option Content := Json.tableOf? mediaTypeOfJson?

def RequestBody.toJson (b : RequestBody) : Json :=
  .object [("required", .bool b.required), ("content", contentJson b.content)]

def RequestBody.ofJson? (j : Json) : Option RequestBody := do
  let fs ← j.fieldsNamed? true ["required", "content"]
  return ⟨← fs.required? "required" Json.bool?, ← fs.required? "content" contentOfJson?⟩

def Response.toJson (r : Response) : Json :=
  .object (("description", .string r.description) :: optionalField "content" contentJson r.content)

def Response.ofJson? (j : Json) : Option Response := do
  let fs ← j.fieldsNamed? true ["description", "content"]
  return ⟨← fs.required? "description" Json.string?, ← fs.optional? "content" contentOfJson?⟩

/-- Parameters are written unless there are none. -/
def parametersField (ps : List Parameter) : List (String × Json) :=
  if ps.isEmpty then [] else [("parameters", .array (ps.map Parameter.toJson))]

def operationFields : List String :=
  ["summary", "description", "tags", "deprecated", "parameters", "requestBody", "responses"]

def Operation.toJson (o : Operation) : Json :=
  .object (optionalField "summary" .string o.summary
    ++ optionalField "description" .string o.description ++ optionalField "tags" strings o.tags
    ++ optionalField "deprecated" .bool o.deprecated ++ parametersField o.parameters
    ++ optionalField "requestBody" RequestBody.toJson o.requestBody
    ++ [("responses", tableJson Response.toJson o.responses)])

def Operation.ofJson? (j : Json) : Option Operation := do
  let fs ← j.fieldsNamed? true operationFields
  return {
    summary := ← fs.optional? "summary" Json.string?
    description := ← fs.optional? "description" Json.string?
    tags := ← fs.optional? "tags" Json.strings?
    deprecated := ← fs.optional? "deprecated" Json.bool?
    parameters := ← fs.listed? "parameters" Parameter.ofJson?
    requestBody := ← fs.optional? "requestBody" RequestBody.ofJson?
    responses := ← fs.required? "responses" (Json.tableOf? Response.ofJson?) }

/-! ## Documents -/

def PathItem.toJson (item : PathItem) : Json :=
  .object (Method.all.flatMap fun m => optionalField m.lower Operation.toJson (item.operation? m))

def PathItem.ofJson? (j : Json) : Option PathItem := do
  let fs ← j.fieldsNamed? true (Method.all.map Method.lower)
  let operations ← Method.all.mapM fun m => do
    return (m, ← fs.optional? m.lower Operation.ofJson?)
  return ⟨fun m => (operations.lookup m).join⟩

def Document.toJson (d : Document) : Json :=
  .object ([("openapi", .string d.openapi), ("info", d.info.toJson)]
    ++ optionalField "servers" (fun ss => .array (ss.map Server.toJson)) d.servers
    ++ optionalField "tags" (fun ts => .array (ts.map tagJson)) d.tags
    ++ [("paths", tableJson PathItem.toJson d.paths)])

def Document.ofJson? (j : Json) : Option Document := do
  let fs ← j.fieldsNamed? true ["openapi", "info", "servers", "tags", "paths"]
  return ⟨← fs.required? "openapi" Json.string?, ← fs.required? "info" Info.ofJson?,
    ← fs.optional? "servers" (Json.listOf? Server.ofJson?),
    ← fs.optional? "tags" (Json.listOf? tagOfJson?),
    ← fs.required? "paths" (Json.tableOf? PathItem.ofJson?)⟩

end Routebook
