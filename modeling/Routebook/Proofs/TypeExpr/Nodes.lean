import Mathlib
import Routebook.TypeExpr.Basic

/-!
# The nodes of a type

A type is a tree: it is put together from its `parts`, and its `nodes` are the type itself, its
parts, their parts and so on. **A part has fewer nodes than the type,** which is what an induction
down the tree is on, **and all of them are nodes of the type.**
-/

namespace Routebook.TypeExpr

variable {σ : Type} {t u : TypeExpr σ}

/-- The types that a type is put together from. -/
def parts : TypeExpr σ → List (TypeExpr σ)
  | array t => [t]
  | tuple ts | union ts | intersection ts | reference _ ts _ | imported _ _ ts _ => ts
  | object ms => ms.map Member.type
  | keyword _ | literal _ | query .. | other _ => []

mutual
/-- The types in a type, itself included. -/
def nodes : TypeExpr σ → List (TypeExpr σ)
  | array t => array t :: t.nodes
  | tuple ts => tuple ts :: nodesOfList ts
  | object ms => object ms :: nodesOfMembers ms
  | union ts => union ts :: nodesOfList ts
  | intersection ts => intersection ts :: nodesOfList ts
  | reference n ts a => reference n ts a :: nodesOfList ts
  | imported specifier q ts a => imported specifier q ts a :: nodesOfList ts
  | keyword k => [keyword k]
  | literal l => [literal l]
  | query n a => [query n a]
  | other s => [other s]
def nodesOfList : List (TypeExpr σ) → List (TypeExpr σ)
  | [] => []
  | t :: ts => t.nodes ++ nodesOfList ts
def nodesOfMembers : List (Member (TypeExpr σ)) → List (TypeExpr σ)
  | [] => []
  | ⟨_, _, t⟩ :: ms => t.nodes ++ nodesOfMembers ms
end

theorem nodesOfList_eq (ts : List (TypeExpr σ)) : nodesOfList ts = ts.flatMap nodes := by
  induction ts with
  | nil => rfl
  | cons t ts ih => rw [nodesOfList, ih, List.flatMap_cons]

theorem nodesOfMembers_eq (ms : List (Member (TypeExpr σ))) :
    nodesOfMembers ms = (ms.map Member.type).flatMap nodes := by
  induction ms with
  | nil => rfl
  | cons m ms ih => rw [nodesOfMembers, ih, List.map_cons, List.flatMap_cons]

theorem nodes_eq (t : TypeExpr σ) : t.nodes = t :: t.parts.flatMap nodes := by
  cases t <;> simp [nodes, parts, nodesOfList_eq, nodesOfMembers_eq]

theorem self_mem_nodes (t : TypeExpr σ) : t ∈ t.nodes := by
  rw [nodes_eq]
  exact List.mem_cons_self

/-- **A part is smaller.** -/
theorem length_nodes_lt (h : u ∈ t.parts) : u.nodes.length < t.nodes.length := by
  rw [nodes_eq t, List.length_cons]
  exact Nat.lt_succ_of_le (List.sublist_flatten_of_mem (List.mem_map_of_mem h)).length_le

theorem nodes_subset_of_mem_parts (h : u ∈ t.parts) : u.nodes ⊆ t.nodes := by
  intro v hv
  rw [nodes_eq t]
  exact List.mem_cons_of_mem _ (List.mem_flatMap.mpr ⟨u, h, hv⟩)

/-- **A node has no other nodes than the type.** -/
theorem nodes_of_mem_nodes (t : TypeExpr σ) (h : u ∈ t.nodes) :
    u.nodes ⊆ t.nodes ∧ u.nodes.length ≤ t.nodes.length := by
  rw [nodes_eq t] at h
  obtain rfl | h := List.mem_cons.mp h
  · exact ⟨List.Subset.refl _, le_rfl⟩
  · obtain ⟨p, hp, hu⟩ := List.mem_flatMap.mp h
    have hlt := length_nodes_lt hp
    obtain ⟨hsubset, hle⟩ := nodes_of_mem_nodes p hu
    exact ⟨List.Subset.trans hsubset (nodes_subset_of_mem_parts hp), hle.trans hlt.le⟩
termination_by t.nodes.length

end Routebook.TypeExpr
