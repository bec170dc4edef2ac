import Routebook.Config.Basic
import Routebook.Pattern.Engine
import Routebook.Route.Path

/-!
# Paths that are left out

A group leaves out paths by name or by pattern. **A path is known in two spellings,** with its
parameters in braces and after colons: a name can be given in either, and a pattern is looked for
in both.
-/

namespace Routebook

/-- What a group leaves out, with its patterns read: each says whether it is in a text. -/
structure Exclusions where
  literals : List String
  patterns : List (String → Bool)

namespace Exclusions

section

variable [PatternEngine]

def add (r : Exclusions) (e : Exclusion) : Except String Exclusions :=
  match e with
  | .literal path => .ok { r with literals := r.literals ++ [Path.normalize path] }
  | .pattern text =>
    match PatternEngine.read? text with
    | some isIn => .ok { r with patterns := r.patterns ++ [isIn] }
    | none => .error text

/-- The exclusions of a list, or the first pattern that cannot be read. -/
def ofList (es : List Exclusion) : Except String Exclusions := es.foldlM add ⟨[], []⟩

end

def excludes (r : Exclusions) (path : String) : Bool :=
  r.literals.contains path ||
    r.patterns.any fun isIn =>
      isIn path || isIn (String.ofList (Path.withColons path.toList))

end Exclusions

end Routebook
