import Routebook.Text.Cut

/-!
# Paths of files

A path is kept as the text it was made from, because it is shown in answers. Empty names and dots
in it mean nothing (`names`), except that a path may begin with a dot. Cutting the last name off
(`parent?`) leaves the text before it as it was written.
-/

namespace Routebook.Disk

structure Path where
  text : String
  deriving Repr, DecidableEq, Inhabited

namespace Path

def isAbsolute (p : Path) : Bool := p.text.toList.head? == some '/'

def names (p : Path) : List String :=
  ((Text.cutAt '/' p.text.toList).map String.ofList).filter fun n => n != "" && n != "."

/-- What two spellings of a path have in common: its names, after a mark that tells absolute paths
and paths from the working directory apart. -/
def key (p : Path) : List String :=
  let start := match p.text.toList with
    | '/' :: _ => "/"
    | ['.'] | '.' :: '/' :: _ => "."
    | _ => ""
  start :: p.names

/-- A path from a directory; an absolute path stays as it is. -/
def join (base : Path) (rel : String) : Path :=
  if rel.toList.head? == some '/' || base.text == "" then ⟨rel⟩
  else if base.text.toList.getLast? == some '/' then ⟨base.text ++ rel⟩
  else ⟨base.text ++ "/" ++ rel⟩

/-- A text in reverse without the slashes and dots that end it, which name nothing. -/
def trimReversed : List Char → List Char
  | '/' :: [] => ['/']
  | '/' :: cs => trimReversed cs
  | '.' :: '/' :: [] => ['/']
  | '.' :: '/' :: cs => trimReversed cs
  | cs => cs

/-- The directory a path's last name is in; none for a root or an empty path. -/
def parent? (p : Path) : Option Path :=
  match trimReversed p.text.toList.reverse with
  | [] | ['/'] => none
  | cs => some ⟨String.ofList (trimReversed (cs.dropWhile (· != '/'))).reverse⟩

/-- The last name of a path, if it is the name of something. -/
def fileName? (p : Path) : Option String :=
  let last := ((trimReversed p.text.toList.reverse).takeWhile (· != '/')).reverse
  if last = [] ∨ last = ['.'] ∨ last = ['.', '.'] then none else some (String.ofList last)

/-- What follows the last dot of the last name. A name's first dot begins no extension. -/
def extension? (p : Path) : Option String := do
  let name := (← p.fileName?).toList.reverse
  let ext := name.takeWhile (· != '.')
  if ext.length + 1 < name.length then some (String.ofList ext.reverse) else none

end Path

end Routebook.Disk
