import Mathlib
import Routebook.Route.DocFiles

/-!
# The marker of a route

The documentation of a group is collected file by file, and blank texts and empty lists are left out
on the way. Seen from the end, **what is known of a route is what its last marker says that says
anything at all** (`RouteDocs.get?_ofFiles`), in the order of the files and, within a file, of its
calls.
-/

namespace Routebook

open Source
open Disk (Files Path)

/-- Routes with what markers say of them, as it is written. -/
abbrev Markers := List (FoundRoute × RouteDoc)

/-- The route that a call registers and what the marker among its arguments says. -/
def Source.Call.marker? (marker : String) (c : Call) : Option (FoundRoute × RouteDoc) := do
  let route ← c.route?
  let ps ← ((c.args.drop 1).filter fun a => !a.spread).findSome? fun a =>
    markerArgument? marker a.value
  return (route, RouteDoc.ofProperties ps)

namespace Markers

def ofProgram (marker : String) (p : Program) : Markers := p.calls.filterMap (Call.marker? marker)

/-- The markers in some files. A file that cannot be read has none. -/
def ofFiles (fs : Files) (marker : String) (paths : List Path) : Markers :=
  paths.flatMap fun p =>
    match Session.readProgram fs p with
    | .ok program => ofProgram marker program
    | .error _ => []

/-- What the last marker of a route says, among those that say anything. -/
def last? (ms : Markers) (r : FoundRoute) : Option RouteDoc :=
  (ms.reverse.find? fun e => e.1 = r && !e.2.normalized.isEmpty).map Prod.snd

end Markers

/-! ## What is kept of a marker -/

/-- A marker as it is kept, if it says anything. -/
def RouteDoc.kept? (e : FoundRoute × RouteDoc) : Option (FoundRoute × RouteDoc) :=
  if e.2.normalized.isEmpty then none else some (e.1, e.2.normalized)

theorem Source.Call.doc?_eq (marker : String) (c : Call) :
    c.doc? marker = (c.marker? marker).bind RouteDoc.kept? := by
  rw [Call.doc?, Call.marker?]
  cases c.route? with
  | none => rfl
  | some route =>
    simp only [Option.bind_eq_bind, Option.bind_some]
    cases ((c.args.drop 1).filter fun a => !a.spread).findSome? fun a =>
        markerArgument? marker a.value with
    | none => rfl
    | some ps =>
      show (guard (!(RouteDoc.ofProperties ps).normalized.isEmpty) >>= fun _ =>
        some (route, (RouteDoc.ofProperties ps).normalized)) = RouteDoc.kept? (route, _)
      rw [RouteDoc.kept?]
      cases (RouteDoc.ofProperties ps).normalized.isEmpty <;> rfl

namespace RouteDocs

theorem eq_mk {ds : RouteDocs} {es : List (FoundRoute × RouteDoc)} (h : ds.entries = es) :
    ds = ⟨es⟩ := by
  cases ds
  exact congrArg RouteDocs.mk h

theorem entries_ofProgram (marker : String) (p : Program) :
    (ofProgram marker p).entries =
      ((Markers.ofProgram marker p).filterMap RouteDoc.kept?).reverse := by
  have hdoc : Call.doc? marker = fun c => (c.marker? marker).bind RouteDoc.kept? :=
    funext (Call.doc?_eq marker)
  rw [ofProgram, Markers.ofProgram, List.filterMap_filterMap, hdoc]

theorem entries_ofFiles (fs : Files) (marker : String) (paths : List Path) :
    (ofFiles fs marker paths).entries =
      ((Markers.ofFiles fs marker paths).filterMap RouteDoc.kept?).reverse := by
  induction paths using List.reverseRecOn with
  | nil => rfl
  | append_singleton paths p ih =>
    have hmarkers : Markers.ofFiles fs marker (paths ++ [p]) = Markers.ofFiles fs marker paths ++
        match Session.readProgram fs p with
        | .ok program => Markers.ofProgram marker program
        | .error _ => [] := by
      rw [Markers.ofFiles, List.flatMap_append, List.flatMap_singleton]
      rfl
    have hdocs : ofFiles fs marker (paths ++ [p]) = match Session.readProgram fs p with
        | .ok program => (ofFiles fs marker paths).extend (ofProgram marker program)
        | .error _ => ofFiles fs marker paths := by
      rw [ofFiles, List.foldl_append]
      rfl
    rw [hmarkers, hdocs, List.filterMap_append, List.reverse_append, ← ih]
    -- A later file goes in front, as a later marker of one file does.
    cases Session.readProgram fs p with
    | error e => rfl
    | ok program => exact congrArg (· ++ _) (entries_ofProgram marker program)

/-- **What is known of a route is what its last marker says that says anything.** -/
theorem get?_ofFiles (fs : Files) (marker : String) (paths : List Path) (r : FoundRoute) :
    (ofFiles fs marker paths).get? r =
      ((Markers.ofFiles fs marker paths).last? r).map RouteDoc.normalized := by
  rw [get?, entries_ofFiles, ← List.filterMap_reverse, List.find?_filterMap, Markers.last?]
  have hkept : ∀ e : FoundRoute × RouteDoc,
      (RouteDoc.kept? e).any (fun e => decide (e.1 = r)) =
        (decide (e.1 = r) && !e.2.normalized.isEmpty) := by
    intro e
    rw [RouteDoc.kept?]
    cases e.2.normalized.isEmpty <;> simp
  simp only [hkept]
  cases hfind : (Markers.ofFiles fs marker paths).reverse.find? fun e =>
      decide (e.1 = r) && !e.2.normalized.isEmpty with
  | none => rfl
  | some e =>
    have he := List.find?_some hfind
    simp only [Bool.and_eq_true, decide_eq_true_eq, Bool.not_eq_true'] at he
    rw [Option.bind_some, RouteDoc.kept?, he.2]
    rfl

end RouteDocs

end Routebook
