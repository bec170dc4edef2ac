import Routebook.Document.Basic
import Routebook.Proofs.Table

/-!
# Documents without repetition

`Document.Keyed` says that no table of a document has a key twice, the properties of its schemas
included. That is so of every table that was built by insertion, and it is what a document has to
be to survive being written to a file: **whoever reads a file puts entries of one key together.**
-/

namespace Routebook

inductive Schema.Keyed : Schema → Prop where
  | mk {s : Schema} (oneOf : ∀ ss, s.oneOf = some ss → ∀ x ∈ ss, Keyed x)
      (items : ∀ x, s.items = some x → Keyed x)
      (nodup : ∀ ps, s.properties = some ps → (Table.keys ps).Nodup)
      (properties : ∀ ps, s.properties = some ps → ∀ p ∈ ps, Keyed p.2) : Keyed s

/-- A schema that holds no other has no table. -/
theorem Schema.Keyed.leaf {s : Schema} (honeOf : s.oneOf = none) (hitems : s.items = none)
    (hproperties : s.properties = none) : s.Keyed := by
  refine .mk ?_ ?_ ?_ ?_
  · exact fun ss h => absurd (honeOf.symm.trans h) (by simp)
  · exact fun x h => absurd (hitems.symm.trans h) (by simp)
  · exact fun ps h => absurd (hproperties.symm.trans h) (by simp)
  · exact fun ps h => absurd (hproperties.symm.trans h) (by simp)

abbrev Content.Keyed (c : Content) : Prop := Table.Keyed Schema.Keyed c

def Response.Keyed (r : Response) : Prop := ∀ c, r.content = some c → Content.Keyed c

structure Operation.Keyed (o : Operation) : Prop where
  parameters : ∀ p ∈ o.parameters, p.schema.Keyed
  requestBody : ∀ b, o.requestBody = some b → Content.Keyed b.content
  responses : Table.Keyed Response.Keyed o.responses

def PathItem.Keyed (item : PathItem) : Prop := ∀ m o, item.operation? m = some o → o.Keyed

def Document.Keyed (d : Document) : Prop := Table.Keyed PathItem.Keyed d.paths

end Routebook
