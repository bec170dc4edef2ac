import Routebook.Pattern.Class

/-!
# Patterns

A pattern describes texts, and a text *holds* it if some part of the text is described. Only
whether a text holds a pattern matters here, not which part it is, so **a pattern is a function
from places to sets of places**: from where a part begins to where it can end.

A set of places is a list without two places that have the same text left.
-/

namespace Routebook

/-- What is asked of a place without reading on. -/
inductive Pattern.Anchor where
  | textStart | textEnd
  | lineStart | lineEnd
  /-- The same, where a carriage return ends a line as well. -/
  | anyLineStart | anyLineEnd
  | wordBoundary | noWordBoundary
  | wordStart | wordEnd
  /-- No word character before, or none after. -/
  | notAfterWord | notBeforeWord
  deriving Repr, DecidableEq, Inhabited

inductive Pattern where
  /-- The empty text. -/
  | nothing
  | anchor (a : Pattern.Anchor) (isWord : Char → Bool)
  | char (allows : Char → Bool)
  | either (first second : Pattern)
  | followed (first second : Pattern)
  /-- At least `least` times, and at most `most` times if there is a limit. -/
  | repeated (least : Nat) (most : Option Nat) (p : Pattern)
  deriving Inhabited

namespace Pattern

/-- A place in a text: the character before it, and the text after it. -/
structure Place where
  before : Option Char
  rest : List Char
  deriving Repr, DecidableEq

/-! ## Anchors -/

def Anchor.holds (isWord : Char → Bool) (p : Place) : Anchor → Bool
  | textStart => p.before.isNone
  | textEnd => p.rest.isEmpty
  | lineStart => p.before.all (· == '\n')
  | lineEnd => p.rest.head?.all (· == '\n')
  | anyLineStart =>
    p.before.all fun c => c == '\n' || (c == '\r' && p.rest.head? != some '\n')
  | anyLineEnd =>
    p.rest.head?.all fun c => c == '\r' || (c == '\n' && p.before != some '\r')
  | wordBoundary => p.before.any isWord != p.rest.head?.any isWord
  | noWordBoundary => p.before.any isWord == p.rest.head?.any isWord
  | wordStart => !p.before.any isWord && p.rest.head?.any isWord
  | wordEnd => p.before.any isWord && !p.rest.head?.any isWord
  | notAfterWord => !p.before.any isWord
  | notBeforeWord => !p.rest.head?.any isWord

/-! ## Sets of places -/

def union (ps qs : List Place) : List Place :=
  qs.foldl (fun ps q => if ps.any fun p => p.rest.length == q.rest.length then ps else ps ++ [q]) ps

def advance (step : Place → List Place) (ps : List Place) : List Place :=
  ps.foldl (fun qs p => union qs (step p)) []

def exactly (step : Place → List Place) : Nat → List Place → List Place
  | 0, ps => ps
  | n + 1, ps => if ps.isEmpty then [] else exactly step n (advance step ps)

def atMost (step : Place → List Place) : Nat → List Place → List Place
  | 0, ps => ps
  | n + 1, ps => if ps.isEmpty then [] else union ps (atMost step n (advance step ps))

/-! ## Search -/

/-- Where a part that begins at a place can end. As many repetitions as there are characters left
reach every place that any number of them reaches. -/
def ends : Pattern → Place → List Place
  | nothing, p => [p]
  | anchor a isWord, p => if a.holds isWord p then [p] else []
  | char allows, p =>
    match p.rest with
    | [] => []
    | c :: cs => if allows c then [⟨some c, cs⟩] else []
  | either a b, p => union (a.ends p) (b.ends p)
  | followed a b, p => advance b.ends (a.ends p)
  | repeated least most a, p =>
    let more := match most with
      | none => p.rest.length
      | some most => min (most - least) p.rest.length
    atMost a.ends more (exactly a.ends least [p])

def placesFrom : Place → List Place
  | ⟨before, []⟩ => [⟨before, []⟩]
  | ⟨before, c :: cs⟩ => ⟨before, c :: cs⟩ :: placesFrom ⟨some c, cs⟩
termination_by p => p.rest.length

/-- Whether some part of a text is described by a pattern. -/
def isIn (p : Pattern) (text : String) : Bool :=
  (placesFrom ⟨none, text.toList⟩).any fun start => !(p.ends start).isEmpty

/-- How many characters and anchors a pattern comes to when its repetitions are written out. -/
def size : Pattern → Nat
  | nothing => 0
  | anchor _ _ | char _ => 1
  | either a b | followed a b => a.size + b.size
  | repeated least most a => max 1 (max least (most.getD least)) * a.size

end Pattern

end Routebook
