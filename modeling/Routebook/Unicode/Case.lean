/-!
# Capitals and small letters

The letters of Latin, Greek, Cyrillic and Armenian with their partners in the other case. `lower`
gives the small form of a text; `caseVariants` gives the letters that count as one where case does
not matter.
-/

namespace Routebook.Unicode

/-- Runs of capitals whose small letters lie at one distance: the first, the last, and the
distance. -/
def caseRuns : List (Nat × Nat × Nat) := [
  (0x41, 0x5A, 32), (0xC0, 0xD6, 32), (0xD8, 0xDE, 32), (0x386, 0x386, 38), (0x388, 0x38A, 37),
  (0x38C, 0x38C, 64), (0x38E, 0x38F, 63), (0x391, 0x3A1, 32), (0x3A3, 0x3AB, 32),
  (0x400, 0x40F, 80), (0x410, 0x42F, 32), (0x531, 0x556, 48)]

/-- Runs in which every capital is followed by its small letter. -/
def casePairs : List (Nat × Nat) := [
  (0x100, 0x12E), (0x132, 0x136), (0x139, 0x147), (0x14A, 0x176), (0x179, 0x17D), (0x3D8, 0x3EE),
  (0x460, 0x480), (0x48A, 0x4BE), (0x4C1, 0x4CD), (0x4D0, 0x52E), (0x1E00, 0x1E94),
  (0x1EA0, 0x1EFE)]

/-- Capitals whose small letter lies far from them. -/
def distantCapitals : List (Nat × Nat) :=
  [(0x178, 0xFF), (0x1E9E, 0xDF), (0x2126, 0x3C9), (0x212A, 0x6B), (0x212B, 0xE5)]

/-- Small letters that count as one with another. -/
def secondForms : List (Nat × Nat) := [(0xB5, 0x3BC), (0x17F, 0x73), (0x3C2, 0x3C3)]

/-- The small letter of a capital, by code points; other characters stay. -/
def smallOf (n : Nat) : Nat :=
  match distantCapitals.lookup n with
  | some k => k
  | none =>
    match caseRuns.find? fun (first, last, _) => first ≤ n && n ≤ last with
    | some (_, _, distance) => n + distance
    | none =>
      if casePairs.any fun (first, last) => first ≤ n && n ≤ last && (n - first) % 2 == 0 then n + 1
      else n

/-- The small form of a character. The capital `I` with a dot has a dot of its own left. -/
def lowerChar (c : Char) : List Char :=
  if c.toNat = 0x130 then ['i', Char.ofNat 0x307] else [Char.ofNat (smallOf c.toNat)]

def lower (cs : List Char) : List Char := cs.flatMap lowerChar

/-- The small letter that stands for all letters that count as one. -/
def caseKey (c : Char) : Nat :=
  let n := smallOf c.toNat
  (secondForms.lookup n).getD n

/-- The letters that count as one with a letter, itself among them. -/
def caseVariants (c : Char) : List Char :=
  let k := caseKey c
  let capitals := caseRuns.filterMap fun (first, last, distance) =>
    if first + distance ≤ k ∧ k ≤ last + distance then some (k - distance) else none
  let pairs := casePairs.filterMap fun (first, last) =>
    if first < k ∧ k ≤ last + 1 ∧ (k - first) % 2 = 1 then some (k - 1) else none
  let others := (distantCapitals ++ secondForms).filterMap fun (n, small) =>
    if small = k then some n else none
  c :: (k :: capitals ++ pairs ++ others).map Char.ofNat

end Routebook.Unicode
