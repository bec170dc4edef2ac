/-!
# Paths of routes

A route's path is joined to the path its table is mounted at (`join`), and written in the document
with its parameters in braces (`normalize`): `/users/:id{[0-9]+}?` becomes `/users/{id}`.

A path is read as a list of `Piece`s first. A colon and a name begin a parameter; a constraint in
braces, whose own braces may nest once, and a question mark belong to it. A brace that is not
closed in this way belongs to the text that follows.
-/

namespace Routebook.Path

/-! ## Joining -/

def stripStart (c : Char) (cs : List Char) : List Char := cs.dropWhile (· == c)

def stripEnd (c : Char) (cs : List Char) : List Char := (cs.reverse.dropWhile (· == c)).reverse

/-- A path under a mount point. An empty or root mount point leaves the path as it is, a root path
is the mount point itself, and no slash is doubled where they meet. -/
def joinChars (mount path : List Char) : List Char :=
  match stripEnd '/' mount with
  | [] => path
  | m =>
    match stripStart '/' path with
    | [] => m
    | p => m ++ '/' :: p

def join (mount path : String) : String := String.ofList (joinChars mount.toList path.toList)

/-! ## Parameters -/

def isWordChar (c : Char) : Bool := c.isAlphanum || c == '_'

/-- What follows a constraint's opening brace, after the brace that closes it. The flag tells
whether a brace inside the constraint is open. -/
def afterConstraint? : Bool → List Char → Option (List Char)
  | _, [] => none
  | false, c :: cs =>
    if c = '\x7d' then some cs
    else if c = '\x7b' then afterConstraint? true cs
    else afterConstraint? false cs
  | true, c :: cs =>
    if c = '\x7d' then afterConstraint? false cs
    else if c = '\x7b' then none
    else afterConstraint? true cs

/-- The rest of a path after a parameter's name: its constraint and its question mark are
skipped. -/
def afterName (cs : List Char) : List Char :=
  let rest := match cs with
    | '\x7b' :: inner => (afterConstraint? false inner).getD cs
    | _ => cs
  match rest with
  | '?' :: r => r
  | r => r

theorem afterConstraint?_length {b : Bool} {cs rest : List Char}
    (h : afterConstraint? b cs = some rest) : rest.length < cs.length := by
  fun_induction afterConstraint? b cs <;> simp_all <;> omega

theorem afterName_length (cs : List Char) : (afterName cs).length ≤ cs.length := by
  have strip (r : List Char) : (match r with | '?' :: r => r | r => r).length ≤ r.length := by
    split <;> simp
  unfold afterName
  refine Nat.le_trans (strip _) ?_
  split
  · rename_i inner
    cases h : afterConstraint? false inner with
    | none => simp
    | some r =>
      have := afterConstraint?_length h
      simp only [Option.getD_some, List.length_cons]
      omega
  · exact Nat.le_refl _

/-- A part of a path: a character that stands for itself, or a parameter. -/
inductive Piece where
  | char (c : Char)
  | parameter (name : List Char)
  deriving Repr, DecidableEq

/-- A path as its pieces, from left to right. -/
def pieces : List Char → List Piece
  | [] => []
  | c :: cs =>
    if c = ':' ∧ cs.takeWhile isWordChar ≠ [] then
      .parameter (cs.takeWhile isWordChar) :: pieces (afterName (cs.dropWhile isWordChar))
    else .char c :: pieces cs
termination_by cs => cs.length
decreasing_by
  · have h₁ := afterName_length (cs.dropWhile isWordChar)
    have h₂ := (cs.dropWhile_sublist isWordChar).length_le
    simp only [List.length_cons]
    omega
  · simp

def Piece.render : Piece → List Char
  | char c => [c]
  | parameter name => '\x7b' :: (name ++ ['\x7d'])

def normalizeChars (cs : List Char) : List Char := (pieces cs).flatMap Piece.render

/-- A path with its parameters in braces. -/
def normalize (path : String) : String := String.ofList (normalizeChars path.toList)

/-! ## Back to colons -/

/-- Whether a name can stand between the braces of a parameter. -/
def isNameChar (c : Char) : Bool := c != '\x7d' && c != '/'

/-- A path with every pair of braces that holds a name replaced by a colon and the name. A brace
inside the name is part of it. -/
def withColons : List Char → List Char
  | [] => []
  | c :: cs =>
    let name := cs.takeWhile isNameChar
    match _h : cs.dropWhile isNameChar with
    | '\x7d' :: rest =>
      if c = '\x7b' ∧ name ≠ [] then ':' :: (name ++ withColons rest) else c :: withColons cs
    | _ => c :: withColons cs
termination_by cs => cs.length
decreasing_by
  · have h₁ := (cs.dropWhile_sublist isNameChar).length_le
    have h₂ : (cs.dropWhile isNameChar).length = rest.length + 1 := by rw [_h]; rfl
    simp only [List.length_cons]
    omega
  all_goals simp

def withoutTrailingSlashes (path : String) : String := String.ofList (stripEnd '/' path.toList)

end Routebook.Path
