import Routebook.Route.Method
import Routebook.Source.Tree

/-!
# Routes found in source text

Where a route table says nothing, the routes are read off the calls that register them:
`x.get("/path", …)`. **Only a method's exact lower-case name counts, and only a path that is written
out and begins with `/` or `*`**, which keeps calls such as `map.get("key")` out.

Calls of a chain are met from the outside in, so the routes are put into the order in which their
paths are written.
-/

namespace Routebook

open Source

/-- A method and a path as they are written in the source. -/
structure FoundRoute where
  method : Method
  path : String
  deriving Repr, DecidableEq

namespace Source.Call

/-- The first argument, when it is no spread. -/
def firstArgument? (c : Call) : Option (Argument Expr) :=
  c.args.head?.filter fun a => !a.spread

def route? (c : Call) : Option FoundRoute := do
  let .member _ property := c.callee.inner | none
  let method ← Method.ofLower? property
  let path ← (← c.firstArgument?).value.text?
  guard (path.toList.head? = some '/' ∨ path.toList.head? = some '*')
  return ⟨method, path⟩

/-- Where the first argument of a call starts. -/
def position (c : Call) : Nat := (c.args.head?.map (·.start)).getD 0

end Source.Call

/-- The elements of a list, each at its first place. -/
def firstOccurrences {α : Type} [DecidableEq α] (seen : List α) : List α → List α
  | [] => []
  | a :: as => if a ∈ seen then firstOccurrences seen as else a :: firstOccurrences (a :: seen) as

/-- The routes that a file's calls register, in the order of their paths, each once. -/
def Source.Program.routes (p : Program) : List FoundRoute :=
  let found := p.calls.filterMap fun c => c.route?.map fun r => (c.position, r)
  firstOccurrences [] ((found.mergeSort fun a b => a.1 ≤ b.1).map Prod.snd)

end Routebook
