import Routebook.Proofs.Session.Declared
import Routebook.Proofs.Session.Shape
import Routebook.Proofs.TypeExpr.Substitution

/-!
# What interfaces inherit

An interface that is expanded has the members its parents' shapes hand down, and its own behind
them (`foldl_addOwnMember`). The arguments are put into the parents before they are resolved, and
they are put once more into everything that is handed down. **So a member arrives with the type it
has in the resolved parent exactly if that type has no reference that is called like a parameter**
(`arrives_of_expand`): an argument may well have one, and so may a parent of another file.
-/

namespace Routebook
namespace Session

open Disk (Files)
open TypeExpr (Bindings Captured)

variable {fs : Files} {s s' s₁ : Session} {m target : ModuleId} {name : String}
  {t r : TypeExpr ModuleId} {args : List (TypeExpr ModuleId)}

/-! ## Members -/

/-- The members that shapes hand down to an interface: those that it does not have itself. -/
def handedDown (shapes : List (TypeExpr ModuleId)) (own : List (Member (TypeExpr ModuleId))) :
    List (Member (TypeExpr ModuleId)) :=
  (inherited shapes).filter fun x => !own.any (·.name == x.name)

/-- The members that an interface has itself. Of two of one name the later counts. -/
def ownMembers (own : List (Member (TypeExpr ModuleId))) : List (Member (TypeExpr ModuleId)) :=
  own.foldl addOwnMember []

theorem foldl_addOwnMember (own ms : List (Member (TypeExpr ModuleId))) :
    own.foldl addOwnMember ms =
      (ms.filter fun x => !own.any (·.name == x.name)) ++ ownMembers own := by
  induction own generalizing ms with
  | nil => simp [ownMembers]
  | cons o own ih =>
    -- The first of them is in the way of what was there, and later ones are in its way.
    have hfilter : (addOwnMember ms o).filter (fun x => !own.any (·.name == x.name)) =
        (ms.filter fun x => !(o :: own).any (·.name == x.name)) ++
          (addOwnMember [] o).filter fun x => !own.any (·.name == x.name) := by
      rw [addOwnMember, List.filter_append, List.filter_filter]
      congr 1
      refine List.filter_congr fun x _ => ?_
      rw [List.any_cons, Bool.not_or, Bool.and_comm, Bool.beq_comm]
      rfl
    rw [List.foldl_cons, ih, hfilter, List.append_assoc, ← ih, ownMembers, List.foldl_cons]

/-- How a member that is handed down arrives under some arguments: with its type, unless a reference
of it is taken for a parameter. -/
structure Arrives (b : Bindings ModuleId) (x y : Member (TypeExpr ModuleId)) : Prop where
  name : y.name = x.name
  optional : y.optional = x.optional
  type : y.type = x.type ↔ ¬ Captured b x.type

theorem arrives_substitute (b : Bindings ModuleId) (x : Member (TypeExpr ModuleId)) :
    Arrives b x (x.substitute b) := ⟨rfl, rfl, TypeExpr.substitute_eq_self_iff⟩

theorem substitute_object (b : Bindings ModuleId) (ms : List (Member (TypeExpr ModuleId))) :
    (TypeExpr.object ms).substitute b = .object (ms.map (·.substitute b)) := by
  rw [TypeExpr.substitute, TypeExpr.substituteMembers_eq]
  rfl

/-- One step: an interface has what the shapes of its parents hand down, and its own. -/
theorem expand_of_shapes {s₂ : Session} {ps : List (TypeParameter ModuleId)}
    {parents shapes : List (TypeExpr ModuleId)} {members : List (Member (TypeExpr ModuleId))}
    (hnames : NamesDeclaration fs s t target name args (.interface ps parents members) s₁)
    (hguard : s₁.expanding.contains (target, name) = false)
    (hshapes : ((parents.map (·.substitute (bind ps args))).mapM resolve).on fs
      (s₁.enter (target, name)) = some (shapes, s₂)) :
    expand t fs s = some (some (.object
      ((members.foldl addOwnMember (inherited shapes)).map (·.substitute (bind ps args)))),
        s₂.leave) := by
  rw [expand_of_namesDeclaration hnames, ← substitute_object]
  exact expandDeclaration_interface_eq_some.mpr ⟨hguard, shapes, s₂, hshapes, rfl, rfl⟩

/-- **An interface that is expanded has what the resolved parents hand down, in order and with the
types it has there but for what the arguments capture, and behind it the interface's own members.**
-/
theorem arrives_of_expand {ps : List (TypeParameter ModuleId)} {parents : List (TypeExpr ModuleId)}
    {members : List (Member (TypeExpr ModuleId))}
    (hnames : NamesDeclaration fs s t target name args (.interface ps parents members) s₁)
    (hexpand : expand t fs s = some (some r, s')) :
    ∃ shapes s₂ arrived,
      ((parents.map (·.substitute (bind ps args))).mapM resolve).on fs (s₁.enter (target, name)) =
        some (shapes, s₂) ∧ s' = s₂.leave ∧
      r = .object (arrived ++ (ownMembers members).map (·.substitute (bind ps args))) ∧
      List.Forall₂ (Arrives (bind ps args)) (handedDown shapes members) arrived := by
  rw [expand_of_namesDeclaration hnames] at hexpand
  obtain ⟨-, shapes, s₂, hshapes, hs', rfl⟩ := expandDeclaration_interface_eq_some.mp hexpand
  refine ⟨shapes, s₂, (handedDown shapes members).map (·.substitute (bind ps args)), hshapes, hs',
    ?_, ?_⟩
  · rw [foldl_addOwnMember, substitute_object, List.map_append]
    rfl
  · rw [List.forall₂_map_right_iff, List.forall₂_same]
    exact fun x _ => arrives_substitute (bind ps args) x

/-! ### An interface with an argument that is called like a parameter -/

section Pair

/-- A base with one parameter, an interface with two that extends it, and a type that has the name
of the second. -/
def pairModule : Module where
  path := ⟨"pair.ts"⟩
  declarations := [
    ("Base", .interface [⟨"T", none⟩] [] [⟨"value", false, .reference "T" [] 0⟩]),
    ("Pair", .interface [⟨"T", none⟩, ⟨"U", none⟩] [.reference "Base" [.reference "T" [] 0] 0]
      [⟨"other", false, .reference "U" [] 0⟩]),
    ("U", .typeAlias [] (.keyword .number))]
  imports := []
  renames := []
  exportedAliases := ["U"]

def pairSession : Session := ⟨.empty, [pairModule], [(["/", "pair.ts"], 0)], []⟩

/-- The interface with the type of that name for its first argument. -/
def pairOfU : TypeExpr ModuleId :=
  .reference "Pair" [.reference "U" [] 0, .keyword .string] 0

theorem namesDeclaration_pairOfU (fs : Files) : NamesDeclaration fs pairSession pairOfU 0 "Pair"
    [.reference "U" [] 0, .keyword .string]
    (.interface [⟨"T", none⟩, ⟨"U", none⟩] [.reference "Base" [.reference "T" [] 0] 0]
      [⟨"other", false, .reference "U" [] 0⟩]) pairSession := .reference rfl

/-- The parent's member has the argument for its type as long as the parent is resolved. -/
theorem resolve_baseOfU (fs : Files) :
    (resolve (.reference "Base" [.reference "U" [] 0] 0)).on fs (pairSession.enter (0, "Pair")) =
      some (.object [⟨"value", false, .reference "U" [] 0⟩], pairSession.enter (0, "Pair")) := by
  have hnames : NamesDeclaration fs (pairSession.enter (0, "Pair"))
      (.reference "Base" [.reference "U" [] 0] 0) 0 "Base" [.reference "U" [] 0]
      (.interface [⟨"T", none⟩] [] [⟨"value", false, .reference "T" [] 0⟩])
      (pairSession.enter (0, "Pair")) := .reference rfl
  have hexpand : expand (.reference "Base" [.reference "U" [] 0] 0) fs
      (pairSession.enter (0, "Pair")) =
        some (some (.object [⟨"value", false, .reference "U" [] 0⟩]),
          pairSession.enter (0, "Pair")) := by
    rw [expand_of_namesDeclaration hnames]
    exact expandDeclaration_interface_eq_some.mpr
      ⟨by decide, [], (pairSession.enter (0, "Pair")).enter (0, "Base"), rfl, rfl, rfl⟩
  exact (resolveWithin_of_expand hexpand 31).trans (resolveWithin_of_shape rfl 31)

theorem resolve_parentsOfPair (fs : Files) :
    (([.reference "Base" [.reference "U" [] 0] 0] : List (TypeExpr ModuleId)).mapM resolve).on fs
      (pairSession.enter (0, "Pair")) =
        some ([.object [⟨"value", false, .reference "U" [] 0⟩]], pairSession.enter (0, "Pair")) :=
  Analysis.on_mapM_cons.mpr ⟨_, _, [], resolve_baseOfU fs, rfl, rfl⟩

/-- In the end it has the second argument. -/
theorem expand_pairOfU (fs : Files) : expand pairOfU fs pairSession =
    some (some (.object [⟨"value", false, .keyword .string⟩, ⟨"other", false, .keyword .string⟩]),
      pairSession) := by
  rw [expand_of_namesDeclaration (namesDeclaration_pairOfU fs)]
  exact expandDeclaration_interface_eq_some.mpr
    ⟨by decide, [.object [⟨"value", false, .reference "U" [] 0⟩]],
      pairSession.enter (0, "Pair"), resolve_parentsOfPair fs, rfl, rfl⟩

/-- The name is taken for the parameter, so the member does not arrive with the type it has in the
parent. -/
theorem arrives_of_expand_pairOfU : ∃ shapes arrived,
    shapes = [.object [⟨"value", false, .reference "U" [] 0⟩]] ∧
    arrived = [⟨"value", false, .keyword .string⟩] ∧
    List.Forall₂ (Arrives (bind [⟨"T", none⟩, ⟨"U", none⟩] [.reference "U" [] 0, .keyword .string]))
      (handedDown shapes [⟨"other", false, .reference "U" [] 0⟩]) arrived := by
  obtain ⟨shapes, s₂, arrived, hshapes, -, hr, harrived⟩ :=
    arrives_of_expand (namesDeclaration_pairOfU ⟨[], []⟩) (expand_pairOfU ⟨[], []⟩)
  have hresolved := hshapes.symm.trans (resolve_parentsOfPair ⟨[], []⟩)
  obtain ⟨hsame, -⟩ := Prod.mk.inj (Option.some.inj hresolved)
  have hms : [⟨"value", false, .keyword .string⟩] ++ [⟨"other", false, .keyword .string⟩] =
      arrived ++ [⟨"other", false, .keyword .string⟩] := TypeExpr.object.inj hr
  exact ⟨shapes, arrived, hsame, (List.append_cancel_right hms).symm, harrived⟩

end Pair

end Session
end Routebook
