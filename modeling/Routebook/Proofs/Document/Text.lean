import Routebook.Generate.Basic
import Routebook.Proofs.Document.Json
import Routebook.Proofs.Json.Text

/-!
# The text of a document

A document is read back from its text, as long as it does not nest too deeply for the reader
(`Document.read?_pretty_toJson`). **No document holds a number**: the statuses of responses are
keys, and the values of an enumeration are strings. So how numbers are written does not matter.
-/

namespace Routebook

variable {α : Type}

/-! ## Fields, lists and tables -/

theorem numberFree_fields_append {fs gs : List (String × Json)} (hf : (Json.object fs).NumberFree)
    (hg : (Json.object gs).NumberFree) : (Json.object (fs ++ gs)).NumberFree := by
  cases hf with
  | object hf =>
    cases hg with
    | object hg =>
      exact .object fun f h => (List.mem_append.mp h).elim (hf f) (hg f)

theorem numberFree_optionalField {name : String} {write : α → Json} {value : Option α}
    (h : ∀ a, value = some a → (write a).NumberFree) :
    (Json.object (optionalField name write value)).NumberFree := by
  refine .object fun f hf => ?_
  cases value with
  | none => exact absurd hf List.not_mem_nil
  | some a =>
    rw [List.mem_singleton.mp hf]
    exact h a rfl

theorem numberFree_field_cons {name : String} {j : Json} {fs : List (String × Json)}
    (h : j.NumberFree) (hfs : (Json.object fs).NumberFree) :
    (Json.object ((name, j) :: fs)).NumberFree := by
  cases hfs with
  | object hfs => exact .object (List.forall_mem_cons.mpr ⟨h, hfs⟩)

theorem numberFree_field {name : String} {j : Json} (h : j.NumberFree) :
    (Json.object [(name, j)]).NumberFree :=
  numberFree_field_cons h (.object fun _ hf => absurd hf List.not_mem_nil)

theorem numberFree_items {write : α → Json} {xs : List α} (h : ∀ x ∈ xs, (write x).NumberFree) :
    (Json.array (xs.map write)).NumberFree := by
  refine .array fun j hj => ?_
  obtain ⟨x, hx, rfl⟩ := List.mem_map.mp hj
  exact h x hx

theorem numberFree_tableJson {write : α → Json} {t : Table α}
    (h : t.Keyed fun a => (write a).NumberFree) : (tableJson write t).NumberFree := by
  refine .object fun f hf => ?_
  obtain ⟨e, he, rfl⟩ := List.mem_map.mp hf
  exact h.values e he

theorem numberFree_strings (xs : List String) : (strings xs).NumberFree :=
  numberFree_items fun x _ => .string x

/-! ## Documents -/

theorem Schema.numberFree_toJson {s : Schema} (hs : s.Keyed) : s.toJson.NumberFree := by
  induction hs with
  | @mk s _ _ nodup _ ihOneOf ihItems ihProperties =>
    rw [Schema.toJson_eq]
    refine numberFree_fields_append (numberFree_fields_append (numberFree_fields_append
      (numberFree_fields_append (numberFree_fields_append (numberFree_fields_append
      ?_ ?_) ?_) ?_) ?_) ?_) ?_
    · exact numberFree_optionalField fun t _ => .string t
    · exact numberFree_optionalField fun xs _ => numberFree_strings xs
    · exact numberFree_optionalField fun b _ => .bool b
    · exact numberFree_optionalField fun ss hss => numberFree_items (ihOneOf ss hss)
    · exact numberFree_optionalField ihItems
    · exact numberFree_optionalField fun ps hps =>
        numberFree_tableJson ⟨nodup ps hps, ihProperties ps hps⟩
    · exact numberFree_optionalField fun xs _ => numberFree_strings xs

theorem Parameter.numberFree_toJson {p : Parameter} (hp : p.schema.Keyed) :
    p.toJson.NumberFree := by
  refine numberFree_field_cons (.string _) (numberFree_field_cons (.string _)
    (numberFree_field_cons (.bool _) (numberFree_field ?_)))
  exact Schema.numberFree_toJson hp

theorem numberFree_contentJson {c : Content} (hc : Content.Keyed c) : (contentJson c).NumberFree :=
  numberFree_tableJson (hc.imp fun _ hs => numberFree_field (Schema.numberFree_toJson hs))

theorem RequestBody.numberFree_toJson {b : RequestBody} (hb : Content.Keyed b.content) :
    b.toJson.NumberFree :=
  numberFree_field_cons (.bool _) (numberFree_field (numberFree_contentJson hb))

theorem Response.numberFree_toJson {r : Response} (hr : r.Keyed) : r.toJson.NumberFree :=
  numberFree_field_cons (.string _)
    (numberFree_optionalField fun c hc => numberFree_contentJson (hr c hc))

theorem Operation.numberFree_toJson {o : Operation} (ho : o.Keyed) : o.toJson.NumberFree := by
  refine numberFree_fields_append (numberFree_fields_append (numberFree_fields_append
    (numberFree_fields_append (numberFree_fields_append (numberFree_fields_append
    ?_ ?_) ?_) ?_) ?_) ?_) ?_
  · exact numberFree_optionalField fun s _ => .string s
  · exact numberFree_optionalField fun s _ => .string s
  · exact numberFree_optionalField fun xs _ => numberFree_strings xs
  · exact numberFree_optionalField fun b _ => .bool b
  · rw [parametersField]
    split
    · exact .object fun _ h => absurd h List.not_mem_nil
    · exact numberFree_field (numberFree_items fun p hp =>
        Parameter.numberFree_toJson (ho.parameters p hp))
  · exact numberFree_optionalField fun b hb => RequestBody.numberFree_toJson (ho.requestBody b hb)
  · exact numberFree_field (numberFree_tableJson
      (ho.responses.imp fun _ => Response.numberFree_toJson))

theorem PathItem.numberFree_toJson {item : PathItem} (h : item.Keyed) : item.toJson.NumberFree := by
  refine .object fun f hf => ?_
  obtain ⟨m, -, hf⟩ := List.mem_flatMap.mp hf
  cases numberFree_optionalField fun o ho => Operation.numberFree_toJson (h m o ho) with
  | object hfields => exact hfields f hf

theorem Document.numberFree_toJson {d : Document} (hd : d.Keyed) : d.toJson.NumberFree := by
  have hinfo : d.info.toJson.NumberFree :=
    numberFree_field_cons (.string _) (numberFree_field_cons (.string _)
      (numberFree_optionalField fun s _ => .string s))
  have hserver (s : Server) : s.toJson.NumberFree :=
    numberFree_field_cons (.string _) (numberFree_optionalField fun s _ => .string s)
  refine numberFree_fields_append (numberFree_fields_append (numberFree_fields_append ?_ ?_) ?_) ?_
  · exact numberFree_field_cons (.string _) (numberFree_field hinfo)
  · exact numberFree_optionalField fun ss _ => numberFree_items fun s _ => hserver s
  · exact numberFree_optionalField fun ts _ => numberFree_items fun t _ =>
      numberFree_field (.string t)
  · exact numberFree_field (numberFree_tableJson (hd.imp fun _ => PathItem.numberFree_toJson))

/-- **A document that can be read back from its text is what is read.** -/
theorem Document.read?_pretty_toJson {d : Document} (hd : d.Keyed) :
    (Json.read? d.toJson.pretty).bind Document.ofJson? =
      if d.toJson.depth ≤ Json.depthLimit then some d else none := by
  rw [Json.read?_pretty (Document.numberFree_toJson hd)]
  split
  · exact Document.ofJson?_toJson hd
  · rfl

/-- **A document is read back from its text exactly if it nests less than 128 deep,** with its
tables in their order and with every list that is left out or empty as it was. -/
theorem Document.read?_text_eq_some_iff {d : Document} (hd : d.Keyed) :
    (Json.read? (d.text .json)).bind Document.ofJson? = some d ↔ d.toJson.depth < 128 := by
  rw [Document.text, Document.read?_pretty_toJson hd]
  constructor
  · intro h
    split at h
    · next hdepth => exact Nat.lt_succ_of_le hdepth
    · exact absurd h (by simp)
  · intro h
    exact if_pos (Nat.le_of_lt_succ h)

/-! A document whose lists are left out, empty and filled: -/

def bookSchema : Schema where
  type := some "object"
  properties := some [("title", { type := some "string", enumeration := some [] }),
    ("author", { oneOf := some [], nullable := some false })]
  required := some []

theorem keyed_bookSchema : bookSchema.Keyed := by
  refine .mk nofun nofun (fun ps hps => ?_) fun ps hps => ?_
  · obtain rfl := Option.some.inj hps
    decide
  · obtain rfl := Option.some.inj hps
    refine List.forall_mem_cons.mpr ⟨.leaf rfl rfl rfl, List.forall_mem_singleton.mpr ?_⟩
    refine .mk (fun ss hss => ?_) nofun nofun nofun
    obtain rfl := Option.some.inj hss
    exact fun _ h => absurd h List.not_mem_nil

def findBook : Operation where
  summary := some "Find a \"book\""
  parameters := [⟨"id", .path, true, bookSchema⟩]
  requestBody := some ⟨false, []⟩
  responses := [("404", ⟨"Not found\n", none⟩), ("200", ⟨"", some []⟩),
    ("default", ⟨"livre trouvé", some [("text/plain", {}), ("application/json", bookSchema)]⟩)]

theorem keyed_findBook : findBook.Keyed where
  parameters := List.forall_mem_singleton.mpr keyed_bookSchema
  requestBody b hb := by
    obtain rfl := Option.some.inj hb
    exact .nil
  responses := by
    refine ⟨by decide, List.forall_mem_cons.mpr ⟨nofun, List.forall_mem_cons.mpr ⟨fun c hc => ?_,
      List.forall_mem_singleton.mpr fun c hc => ?_⟩⟩⟩
    · obtain rfl := Option.some.inj hc
      exact .nil
    · obtain rfl := Option.some.inj hc
      exact ⟨by decide, List.forall_mem_cons.mpr ⟨.leaf rfl rfl rfl,
        List.forall_mem_singleton.mpr keyed_bookSchema⟩⟩

/-- The paths are not in the order of their names. -/
def shelf : Document :=
  ⟨"3.0.0", ⟨"Shelf", "1", none⟩, some [], some ["books", ""],
    [("/shelf", PathItem.empty.put .post { tags := some [] }),
      ("/books/\x7bid\x7d", PathItem.empty.put .get findBook)]⟩

theorem keyed_shelf : shelf.Keyed := by
  have hput {m : Method} {o : Operation} (ho : o.Keyed) : (PathItem.empty.put m o).Keyed := by
    intro m' o' h
    rw [PathItem.operation?_put] at h
    split at h
    · exact Option.some.inj h ▸ ho
    · exact absurd h (by simp [PathItem.empty])
  refine ⟨by decide, List.forall_mem_cons.mpr ⟨hput ?_,
    List.forall_mem_singleton.mpr (hput keyed_findBook)⟩⟩
  exact ⟨fun _ h => absurd h List.not_mem_nil, nofun, .nil⟩

theorem Document.read?_text_eq_some_iff_shelf :
    shelf.Keyed ∧ shelf.toJson.depth < 128 ∧
      (Json.read? (shelf.text .json)).bind Document.ofJson? = some shelf :=
  ⟨keyed_shelf, by decide, (Document.read?_text_eq_some_iff keyed_shelf).mpr (by decide)⟩

end Routebook
