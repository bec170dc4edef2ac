import Routebook.Proofs.Document.Field
import Routebook.Proofs.Document.Keyed

/-!
# Documents read back

A document without repetition is read back from what it is written as (`Document.ofJson?_toJson`),
**with the order of its tables and with the difference between a list that is left out and one that
is empty.** For each record what has to be shown is that every field is read by the reader that
belongs to its writer.
-/

namespace Routebook

open Json

/-! ## Schemas -/

theorem schemasJson_eq (ss : List Schema) : schemasJson ss = ss.map Schema.toJson := by
  induction ss with
  | nil => rfl
  | cons s ss ih => rw [schemasJson, ih, List.map_cons]

theorem propertiesJson_eq (ps : List (String × Schema)) :
    Json.object (propertiesJson ps) = tableJson Schema.toJson ps := by
  rw [tableJson]
  congr 1
  induction ps with
  | nil => rfl
  | cons p ps ih => rw [propertiesJson, ih, List.map_cons]

/-- The fields of a schema that are written. -/
def Schema.fields (s : Schema) : List (String × Json) :=
  optionalField "type" .string s.type ++ optionalField "enum" strings s.enumeration
    ++ optionalField "nullable" .bool s.nullable
    ++ optionalField "oneOf" (fun ss => .array (ss.map Schema.toJson)) s.oneOf
    ++ optionalField "items" Schema.toJson s.items
    ++ optionalField "properties" (tableJson Schema.toJson) s.properties
    ++ optionalField "required" strings s.required

theorem Schema.toJson_eq (s : Schema) : s.toJson = .object s.fields := by
  obtain ⟨type, enumeration, nullable, oneOf, items, properties, required⟩ := s
  have honeOf : alternativesField oneOf =
      optionalField "oneOf" (fun ss => .array (ss.map Schema.toJson)) oneOf := by
    cases oneOf with
    | none => rfl
    | some ss => rw [alternativesField, schemasJson_eq, optionalField]
  have hitems : itemsField items = optionalField "items" Schema.toJson items := by
    cases items <;> rfl
  have hproperties : propertiesField properties =
      optionalField "properties" (tableJson Schema.toJson) properties := by
    cases properties with
    | none => rfl
    | some ps => rw [propertiesField, propertiesJson_eq, optionalField]
  rw [Schema.toJson, honeOf, hitems, hproperties, fields]

theorem Schema.toJson_ne_null (s : Schema) : s.toJson ≠ .null := by
  rw [Schema.toJson_eq]
  exact Json.noConfusion

theorem Schema.fieldsNamed?_toJson (s : Schema) :
    s.toJson.fieldsNamed? false schemaFields = some s.fields := by
  rw [Schema.toJson_eq]
  refine fieldsNamed?_of_sublist (by decide) ?_
  simp only [fields, List.map_append]
  exact ((((((optionalField_sublist ..).append (optionalField_sublist ..)).append
    (optionalField_sublist ..)).append (optionalField_sublist ..)).append
    (optionalField_sublist ..)).append (optionalField_sublist ..)).append
    (optionalField_sublist ..)

theorem Schema.lookup_items (s : Schema) :
    s.fields.lookup "items" = s.items.map Schema.toJson := by
  simp [Schema.fields, List.lookup_append]

theorem Schema.lookup_oneOf (s : Schema) :
    s.fields.lookup "oneOf" = s.oneOf.map fun ss => .array (ss.map Schema.toJson) := by
  simp [Schema.fields, List.lookup_append]

theorem Schema.lookup_properties (s : Schema) :
    s.fields.lookup "properties" = s.properties.map (tableJson Schema.toJson) := by
  simp [Schema.fields, List.lookup_append]

/-- What a field of a schema holds nests less deep than the schema. -/
theorem Schema.depth_lt_of_lookup {s : Schema} {name : String} {j : Json}
    (h : s.fields.lookup name = some j) : j.depth < s.toJson.depth := by
  rw [Schema.toJson_eq]
  exact Json.depth_lt_of_lookup h

theorem Schema.depth_lt_of_items {s x : Schema} (h : s.items = some x) :
    x.toJson.depth < s.toJson.depth :=
  depth_lt_of_lookup (s.lookup_items.trans (congrArg _ h))

theorem Schema.depth_lt_of_mem_oneOf {s x : Schema} {ss : List Schema} (h : s.oneOf = some ss)
    (hx : x ∈ ss) : x.toJson.depth < s.toJson.depth :=
  Nat.lt_trans (depth_lt_of_mem_items (List.mem_map_of_mem hx))
    (depth_lt_of_lookup (s.lookup_oneOf.trans (congrArg _ h)))

theorem Schema.depth_lt_of_mem_properties {s : Schema} {ps : Table Schema} {p : String × Schema}
    (h : s.properties = some ps) (hp : p ∈ ps) : p.2.toJson.depth < s.toJson.depth := by
  have hp' : (p.1, p.2.toJson) ∈ ps.map fun (k, a) => (k, Schema.toJson a) := List.mem_map_of_mem hp
  exact Nat.lt_trans (Nat.lt_succ_of_le (depth_le_depthOfFields hp'))
    (depth_lt_of_lookup (s.lookup_properties.trans (congrArg _ h)))

/-- A schema is read back if the schemas in it are. -/
theorem schemaWithin?_succ_toJson {s : Schema} {n : Nat}
    (hitems : ∀ x, s.items = some x → schemaWithin? n x.toJson = some x)
    (honeOf : ∀ ss, s.oneOf = some ss → ∀ x ∈ ss, schemaWithin? n x.toJson = some x)
    (hproperties : ∀ ps, s.properties = some ps →
      Table.Keyed (fun x => schemaWithin? n x.toJson = some x) ps) :
    schemaWithin? (n + 1) s.toJson = some s := by
  have htype : Fields.optional? s.fields "type" string? = some s.type :=
    Fields.optional?_string (by simp [Schema.fields, List.lookup_append])
  have henumeration : Fields.optional? s.fields "enum" strings? = some s.enumeration :=
    Fields.optional?_strings (by simp [Schema.fields, List.lookup_append])
  have hnullable : Fields.optional? s.fields "nullable" bool? = some s.nullable :=
    Fields.optional?_bool (by simp [Schema.fields, List.lookup_append])
  have hrequired : Fields.optional? s.fields "required" strings? = some s.required :=
    Fields.optional?_strings (by simp [Schema.fields, List.lookup_append])
  have honeOf' : Fields.optional? s.fields "oneOf" (listOf? (schemaWithin? n)) = some s.oneOf :=
    Fields.optional?_of_lookup _ s.lookup_oneOf (fun _ => Json.noConfusion) fun ss hss =>
      listOf?_map (honeOf ss hss)
  have hitems' : Fields.optional? s.fields "items" (schemaWithin? n) = some s.items :=
    Fields.optional?_of_lookup _ s.lookup_items Schema.toJson_ne_null hitems
  have hproperties' : Fields.optional? s.fields "properties" (tableOf? (schemaWithin? n)) =
      some s.properties :=
    Fields.optional?_of_lookup _ s.lookup_properties (fun _ => Json.noConfusion) fun ps hps =>
      tableOf?_tableJson (hproperties ps hps)
  rw [schemaWithin?, s.fieldsNamed?_toJson]
  simp only [Option.bind_eq_bind, Option.bind_some, htype, henumeration, hnullable, honeOf',
    hitems', hproperties', hrequired]
  cases s
  rfl

/-- A schema is read back with any fuel that is enough for its nesting. -/
theorem schemaWithin?_toJson {s : Schema} (hs : s.Keyed) {n : Nat} (hn : s.toJson.depth < n) :
    schemaWithin? n s.toJson = some s := by
  induction n generalizing s with
  | zero => exact absurd hn (Nat.not_lt_zero _)
  | succ n ih =>
    obtain ⟨hsOneOf, hsItems, hsNodup, hsProperties⟩ := hs
    -- What is in the schema nests less deep, so the fuel is enough for it.
    have hdeep : ∀ {x : Schema}, x.toJson.depth < s.toJson.depth → x.toJson.depth < n :=
      fun h => Nat.lt_of_lt_of_le h (Nat.le_of_lt_succ hn)
    refine schemaWithin?_succ_toJson (fun x hx => ?_) (fun ss hss x hx => ?_) fun ps hps =>
      ⟨hsNodup ps hps, fun p hp => ?_⟩
    · exact ih (hsItems x hx) (hdeep (Schema.depth_lt_of_items hx))
    · exact ih (hsOneOf ss hss x hx) (hdeep (Schema.depth_lt_of_mem_oneOf hss hx))
    · exact ih (hsProperties ps hps p hp) (hdeep (Schema.depth_lt_of_mem_properties hps hp))

theorem Schema.ofJson?_toJson {s : Schema} (hs : s.Keyed) : Schema.ofJson? s.toJson = some s :=
  schemaWithin?_toJson hs (Nat.lt_succ_self _)

/-! ## The parts of an operation -/

theorem ParameterPlace.ofJson?_name (p : ParameterPlace) :
    ParameterPlace.ofJson? (.string p.name) = some p := by cases p <;> rfl

theorem Parameter.ofJson?_toJson {p : Parameter} (hp : p.schema.Keyed) :
    Parameter.ofJson? p.toJson = some p := by
  have hplace := ParameterPlace.ofJson?_name p.place
  have hschema := Schema.ofJson?_toJson hp
  have hfields : p.toJson.fieldsNamed? true ["name", "in", "required", "schema"] =
      some [("name", .string p.name), ("in", .string p.place.name), ("required", .bool p.required),
        ("schema", p.schema.toJson)] := rfl
  rw [Parameter.ofJson?, hfields]
  simp [Fields.required?, hplace, hschema, string?, bool?]

theorem mediaTypeOfJson?_mediaTypeJson {s : Schema} (hs : s.Keyed) :
    mediaTypeOfJson? (mediaTypeJson s) = some s := by
  have hfields : (mediaTypeJson s).fieldsNamed? true ["schema"] = some [("schema", s.toJson)] := rfl
  rw [mediaTypeOfJson?, hfields]
  exact Schema.ofJson?_toJson hs

theorem contentOfJson?_contentJson {c : Content} (hc : Content.Keyed c) :
    contentOfJson? (contentJson c) = some c :=
  tableOf?_tableJson (hc.imp fun _ => mediaTypeOfJson?_mediaTypeJson)

theorem RequestBody.ofJson?_toJson {b : RequestBody} (hb : Content.Keyed b.content) :
    RequestBody.ofJson? b.toJson = some b := by
  have hcontent := contentOfJson?_contentJson hb
  have hfields : b.toJson.fieldsNamed? true ["required", "content"] =
      some [("required", .bool b.required), ("content", contentJson b.content)] := rfl
  rw [RequestBody.ofJson?, hfields]
  simp [Fields.required?, hcontent, bool?]

theorem Response.ofJson?_toJson {r : Response} (hr : r.Keyed) :
    Response.ofJson? r.toJson = some r := by
  have hfields : r.toJson.fieldsNamed? true ["description", "content"] =
      some (("description", .string r.description) ::
        optionalField "content" contentJson r.content) :=
    fieldsNamed?_of_sublist (by decide) (.cons_cons _ (optionalField_sublist ..))
  have hcontent : Fields.optional?
      (("description", .string r.description) :: optionalField "content" contentJson r.content)
      "content" contentOfJson? = some r.content :=
    Fields.optional?_of_lookup contentJson
      (by simp [List.lookup_cons, lookup_optionalField]) (fun _ => Json.noConfusion)
      fun c hc => contentOfJson?_contentJson (hr c hc)
  rw [Response.ofJson?, hfields]
  simp only [Option.bind_eq_bind, Option.bind_some, hcontent]
  rfl

/-! ## Operations -/

/-- The fields of an operation that are written. -/
def Operation.fields (o : Operation) : List (String × Json) :=
  optionalField "summary" .string o.summary
    ++ optionalField "description" .string o.description ++ optionalField "tags" strings o.tags
    ++ optionalField "deprecated" .bool o.deprecated ++ parametersField o.parameters
    ++ optionalField "requestBody" RequestBody.toJson o.requestBody
    ++ [("responses", tableJson Response.toJson o.responses)]

theorem parametersField_sublist (ps : List Parameter) :
    ((parametersField ps).map Prod.fst).Sublist ["parameters"] := by
  cases ps with
  | nil => exact List.nil_sublist _
  | cons p ps => exact List.Sublist.refl _

@[simp]
theorem lookup_parametersField (key : String) (ps : List Parameter) :
    (parametersField ps).lookup key =
      if key = "parameters" ∧ ps ≠ [] then some (.array (ps.map Parameter.toJson)) else none := by
  cases ps with
  | nil => simp [parametersField]
  | cons p ps => simp [parametersField, lookup_field]

theorem Operation.fieldsNamed?_toJson (o : Operation) :
    o.toJson.fieldsNamed? true operationFields = some o.fields := by
  refine fieldsNamed?_of_sublist (by decide) ?_
  simp only [List.map_append]
  exact ((((((optionalField_sublist ..).append (optionalField_sublist ..)).append
    (optionalField_sublist ..)).append (optionalField_sublist ..)).append
    (parametersField_sublist _)).append (optionalField_sublist ..)).append (.refl _)

/-- Leaving the parameters out and listing none are the same. -/
theorem Operation.listed?_parameters {o : Operation} (ho : ∀ p ∈ o.parameters, p.schema.Keyed) :
    Fields.listed? o.fields "parameters" Parameter.ofJson? = some o.parameters := by
  have hlookup : o.fields.lookup "parameters" =
      if o.parameters ≠ [] then some (.array (o.parameters.map Parameter.toJson)) else none := by
    simp [fields, List.lookup_append]
  rw [Fields.listed?, hlookup]
  by_cases h : o.parameters = []
  · rw [if_neg fun hne => hne h, h]
  · rw [if_pos h]
    exact listOf?_map fun p hp => Parameter.ofJson?_toJson (ho p hp)

theorem Operation.ofJson?_toJson {o : Operation} (ho : o.Keyed) :
    Operation.ofJson? o.toJson = some o := by
  have hsummary : Fields.optional? o.fields "summary" string? = some o.summary :=
    Fields.optional?_string (by simp [fields, List.lookup_append])
  have hdescription : Fields.optional? o.fields "description" string? = some o.description :=
    Fields.optional?_string (by simp [fields, List.lookup_append])
  have htags : Fields.optional? o.fields "tags" strings? = some o.tags :=
    Fields.optional?_strings (by simp [fields, List.lookup_append])
  have hdeprecated : Fields.optional? o.fields "deprecated" bool? = some o.deprecated :=
    Fields.optional?_bool (by simp [fields, List.lookup_append])
  have hbody : Fields.optional? o.fields "requestBody" RequestBody.ofJson? = some o.requestBody :=
    Fields.optional?_of_lookup RequestBody.toJson
      (by simp [fields, List.lookup_append])
      (fun _ => Json.noConfusion) fun b hb => RequestBody.ofJson?_toJson (ho.requestBody b hb)
  have hresponses : Fields.required? o.fields "responses" (tableOf? Response.ofJson?) =
      some o.responses := by
    rw [Fields.required?_of_lookup (j := tableJson Response.toJson o.responses) (by
      simp [fields, List.lookup_append])]
    exact tableOf?_tableJson (ho.responses.imp fun _ => Response.ofJson?_toJson)
  rw [Operation.ofJson?, o.fieldsNamed?_toJson]
  simp only [Option.bind_eq_bind, Option.bind_some, hsummary, hdescription, htags, hdeprecated,
    Operation.listed?_parameters ho.parameters, hbody, hresponses]
  rfl

/-! ## Path items -/

/-- The fields of a path item that are written for some methods. -/
def PathItem.fields (item : PathItem) (ms : List Method) : List (String × Json) :=
  ms.flatMap fun m => optionalField m.lower Operation.toJson (item.operation? m)

theorem PathItem.fields_sublist (item : PathItem) (ms : List Method) :
    ((item.fields ms).map Prod.fst).Sublist (ms.map Method.lower) := by
  induction ms with
  | nil => exact List.nil_sublist _
  | cons m ms ih =>
    rw [fields, List.flatMap_cons, List.map_append]
    exact (optionalField_sublist ..).append ih

theorem PathItem.lookup_fields (item : PathItem) (m : Method) (ms : List Method) :
    (item.fields ms).lookup m.lower =
      if m ∈ ms then (item.operation? m).map Operation.toJson else none := by
  induction ms with
  | nil => rfl
  | cons n ms ih =>
    rw [fields, List.flatMap_cons, List.lookup_append, lookup_optionalField]
    rw [fields] at ih
    rw [ih]
    by_cases hn : m = n
    · subst hn
      -- Should the method come once more, there is the same field again.
      rw [if_pos rfl, if_pos List.mem_cons_self]
      split
      · exact Option.or_self
      · exact Option.or_none
    · rw [if_neg fun h => hn (Method.lower_inj h), Option.none_or]
      simp only [List.mem_cons, hn, false_or]

/-- What was read for every method is looked up again for each. -/
theorem PathItem.lookup_map_operation? (item : PathItem) {m : Method} {ms : List Method}
    (hm : m ∈ ms) :
    (ms.map fun m => (m, item.operation? m)).lookup m = some (item.operation? m) := by
  induction ms with
  | nil => exact absurd hm List.not_mem_nil
  | cons n ms ih =>
    rw [List.map_cons, List.lookup_cons]
    by_cases hn : m = n
    · simp [hn]
    · have hbeq : (m == n) = false := beq_eq_false_iff_ne.mpr hn
      rw [hbeq]
      exact ih ((List.mem_cons.mp hm).resolve_left hn)

theorem PathItem.ofJson?_toJson {item : PathItem} (h : item.Keyed) :
    PathItem.ofJson? item.toJson = some item := by
  have hfields : item.toJson.fieldsNamed? true (Method.all.map Method.lower) =
      some (item.fields Method.all) :=
    fieldsNamed?_of_sublist (by decide) (item.fields_sublist _)
  have hread : ∀ m, Fields.optional? (item.fields Method.all) m.lower Operation.ofJson? =
      some (item.operation? m) := by
    intro m
    refine Fields.optional?_of_lookup Operation.toJson ?_ (fun _ => Json.noConfusion)
      fun o ho => Operation.ofJson?_toJson (h m o ho)
    rw [item.lookup_fields, if_pos (Method.mem_all m)]
  have hall : ∀ ms : List Method, (ms.mapM fun m => do
      return (m, ← Fields.optional? (item.fields Method.all) m.lower Operation.ofJson?)) =
        some (ms.map fun m => (m, item.operation? m)) := by
    intro ms
    induction ms with
    | nil => rfl
    | cons m ms ih =>
      rw [List.mapM_cons, ih, hread m]
      rfl
  rw [PathItem.ofJson?, hfields]
  simp only [Option.bind_eq_bind, Option.bind_some] at hall ⊢
  rw [hall]
  refine congrArg some (PathItem.ext_operation fun m => ?_)
  simp only [item.lookup_map_operation? (Method.mem_all m), Option.join_some]

/-! ## Documents -/

theorem Info.ofJson?_toJson (i : Info) : Info.ofJson? i.toJson = some i := by
  obtain ⟨title, version, description⟩ := i
  cases description <;> rfl

theorem Server.ofJson?_toJson (s : Server) : Server.ofJson? s.toJson = some s := by
  obtain ⟨url, description⟩ := s
  cases description <;> rfl

/-- The fields of a document that are written. -/
def Document.fields (d : Document) : List (String × Json) :=
  [("openapi", .string d.openapi), ("info", d.info.toJson)]
    ++ optionalField "servers" (fun ss => .array (ss.map Server.toJson)) d.servers
    ++ optionalField "tags" (fun ts => .array (ts.map tagJson)) d.tags
    ++ [("paths", tableJson PathItem.toJson d.paths)]

theorem Document.fieldsNamed?_toJson (d : Document) :
    d.toJson.fieldsNamed? true ["openapi", "info", "servers", "tags", "paths"] =
      some d.fields := by
  refine fieldsNamed?_of_sublist (by decide) ?_
  simp only [List.map_append]
  exact (((List.Sublist.refl ["openapi", "info"]).append (optionalField_sublist ..)).append
    (optionalField_sublist ..)).append (.refl _)

/-- **A document without repetition is read back from what it is written as.** -/
theorem Document.ofJson?_toJson {d : Document} (hd : d.Keyed) :
    Document.ofJson? d.toJson = some d := by
  have hinfo : Fields.required? d.fields "info" Info.ofJson? = some d.info :=
    Info.ofJson?_toJson d.info
  have hservers : Fields.optional? d.fields "servers" (listOf? Server.ofJson?) = some d.servers :=
    Fields.optional?_of_lookup (fun ss => .array (ss.map Server.toJson))
      (by simp [fields, List.lookup_append])
      (fun _ => Json.noConfusion) fun _ _ => listOf?_map fun s _ => Server.ofJson?_toJson s
  have htags : Fields.optional? d.fields "tags" (listOf? tagOfJson?) = some d.tags :=
    Fields.optional?_of_lookup (fun ts => .array (ts.map tagJson))
      (by simp [fields, List.lookup_append])
      (fun _ => Json.noConfusion) fun _ _ =>
        listOf?_map fun t _ => show tagOfJson? (tagJson t) = some t from rfl
  have hpaths : Fields.required? d.fields "paths" (tableOf? PathItem.ofJson?) = some d.paths := by
    rw [Fields.required?_of_lookup (j := tableJson PathItem.toJson d.paths) (by
      simp [fields, List.lookup_append])]
    exact tableOf?_tableJson (hd.imp fun _ => PathItem.ofJson?_toJson)
  rw [Document.ofJson?, d.fieldsNamed?_toJson]
  simp only [Option.bind_eq_bind, Option.bind_some, hinfo, hservers, htags, hpaths]
  rfl

end Routebook
