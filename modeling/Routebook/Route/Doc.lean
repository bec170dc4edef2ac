import Routebook.Route.Scan
import Routebook.Text.Dedent

/-!
# Documentation beside routes

A route's author documents it where it is registered, by a call to a *marker* among the arguments
after the path: `app.get("/users/:id", describeRoute({ summary: "…" }), handler)`. The marker's
first argument is an object literal whose fields are read from the source text.

**Documentation belongs to a method and a path as written.** Where two calls document the same
route, the last one counts.
-/

namespace Routebook

open Source

structure RouteDoc where
  summary : Option String
  description : Option String
  tags : Option (List String)
  deprecated : Option Bool
  deriving Repr, DecidableEq

namespace RouteDoc

def empty : RouteDoc := ⟨none, none, none, none⟩

def isEmpty (d : RouteDoc) : Bool :=
  d.summary.isNone && d.description.isNone && d.tags.isNone && d.deprecated.isNone

/-- Blank texts and empty lists of tags say nothing. -/
def normalized (d : RouteDoc) : RouteDoc :=
  let written (s : Option String) := s.filter fun s => !Text.isAllBlank s.toList
  { d with
    summary := written d.summary
    description := written d.description
    tags := d.tags.filter fun ts => !ts.isEmpty }

/-- The text of a template: its pieces, and its substitutions as they are written. -/
def templateText : List String → List (String × Expr) → String
  | [], _ => ""
  | q :: qs, [] => q ++ templateText qs []
  | q :: qs, (source, _) :: ss => q ++ "$\x7b" ++ source ++ "\x7d" ++ templateText qs ss

/-- A text as a field holds it. A template is moved to the left as a block. -/
def text? : Expr → Option String
  | .string s => some s
  | .template quasis subs => some (Text.dedent (templateText quasis subs))
  | _ => none

def tag? (e : Expr) : Option String :=
  match e.inner with
  | .string s => some s
  | _ => none

/-- Read one field. A text that cannot be read takes back what an earlier field of the same name
said; other values that cannot be read are passed over. -/
def readField (d : RouteDoc) (p : Property Expr) : RouteDoc :=
  let value := p.value.inner
  match p.name with
  | some "summary" => { d with summary := text? value }
  | some "description" => { d with description := text? value }
  | some "tags" => match value with
    | .array es => { d with tags := some (es.filterMap tag?) }
    | _ => d
  | some "deprecated" => match value with
    | .boolean b => { d with deprecated := some b }
    | _ => d
  | _ => d

def ofProperties (ps : List (Property Expr)) : RouteDoc := ps.foldl readField empty

end RouteDoc

/-- The object literal that a marker is called with, if the expression is such a call. -/
def markerArgument? (marker : String) (e : Expr) : Option (List (Property Expr)) := do
  let .call callee args := e.inner | none
  let .name n := callee.inner | none
  guard (n = marker)
  let a ← args.head?
  guard (!a.spread)
  let .object ps := a.value.inner | none
  return ps

/-- The documentation of the route that a call registers. -/
def Source.Call.doc? (marker : String) (c : Call) : Option (FoundRoute × RouteDoc) := do
  let route ← c.route?
  let rest := (c.args.drop 1).filter fun a => !a.spread
  let ps ← rest.findSome? fun a => markerArgument? marker a.value
  let doc := (RouteDoc.ofProperties ps).normalized
  guard (!doc.isEmpty)
  return (route, doc)

/-- Documentation by route. Later entries come first. -/
structure RouteDocs where
  entries : List (FoundRoute × RouteDoc)

namespace RouteDocs

def empty : RouteDocs := ⟨[]⟩

def ofProgram (marker : String) (p : Program) : RouteDocs :=
  ⟨(p.calls.filterMap (Call.doc? marker)).reverse⟩

/-- The entries of both; those of the second count where both have one. -/
def extend (first second : RouteDocs) : RouteDocs := ⟨second.entries ++ first.entries⟩

def get? (ds : RouteDocs) (r : FoundRoute) : Option RouteDoc :=
  (ds.entries.find? fun e => e.1 = r).map Prod.snd

def size (ds : RouteDocs) : Nat := (firstOccurrences [] (ds.entries.map Prod.fst)).length

/-- The key of a route in an index: the method and the path as written. -/
def key (r : FoundRoute) : String := r.method.lower ++ ":" ++ r.path

end RouteDocs

end Routebook
