/-!
# Places in a source file

A `Cursor` counts characters from the start of a file. Every reader of the source language returns
a later cursor, or the position where it failed. What stands between tokens, blanks and comments,
is skipped here.
-/

namespace Routebook.Source

/-- A place in a file: the text that follows it and the number of characters before it. -/
structure Cursor where
  rest : List Char
  position : Nat
  deriving Inhabited

/-- Where a file stops following the grammar. -/
structure SyntaxError where
  position : Nat
  deriving Repr, DecidableEq, Inhabited

def Cursor.advance (c : Cursor) (n : Nat) : Cursor := ⟨c.rest.drop n, c.position + n⟩

def Cursor.fail {α : Type} (c : Cursor) : Except SyntaxError α := .error ⟨c.position⟩

/-! ## Blanks and comments -/

def isLineEnd (c : Char) : Bool :=
  c == '\n' || c == '\r' || c.toNat == 0x2028 || c.toNat == 0x2029

/-- Blanks between tokens that end no line. -/
def isGap (c : Char) : Bool :=
  c == ' ' || c == '\t' || [0x0B, 0x0C, 0x85, 0xA0, 0x1680, 0x202F, 0x205F, 0x3000,
    0xFEFF].contains c.toNat || (0x2000 ≤ c.toNat && c.toNat ≤ 0x200B)

/-- What the reader is inside of while it skips. -/
inductive Skipping where
  | blanks | lineComment | blockComment

/-- Skip blanks and comments; tells whether a line ended on the way. -/
def skipGaps : Skipping → List Char → Nat → Bool → Except SyntaxError (Bool × Cursor)
  | .blanks, '/' :: '/' :: cs, p, line => skipGaps .lineComment cs (p + 2) line
  | .blanks, '/' :: '*' :: cs, p, line => skipGaps .blockComment cs (p + 2) line
  | .blanks, c :: cs, p, line =>
    if isLineEnd c then skipGaps .blanks cs (p + 1) true
    else if isGap c then skipGaps .blanks cs (p + 1) line
    else .ok (line, ⟨c :: cs, p⟩)
  | .lineComment, c :: cs, p, line =>
    if isLineEnd c then skipGaps .blanks cs (p + 1) true
    else skipGaps .lineComment cs (p + 1) line
  | .blockComment, '*' :: '/' :: cs, p, line => skipGaps .blanks cs (p + 2) line
  | .blockComment, c :: cs, p, line => skipGaps .blockComment cs (p + 1) (line || isLineEnd c)
  | .blockComment, [], p, _ => .error ⟨p⟩
  | _, [], p, line => .ok (line, ⟨[], p⟩)

end Routebook.Source
