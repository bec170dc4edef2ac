import Routebook.Proofs.Path.Mount

/-!
# Parameters as matches of a pattern

A parameter of a path is what the pattern `:(w+)({(n|{n*})*})?\??` matches, where `w` is a character
of a name and `n` is anything but a brace. Patterns are tried from left to right, reading as much as
possible comes before reading less, and of several ways to match the first one counts. A `Matcher`
is a pattern under this rule: it lists what it can leave of a text, in the order in which the ways
are tried.

Reading a path by `pieces` never goes back. **It finds the first match at each place all the same**
(`parameter?_eq`): part of a name has no brace or question mark behind it, and a constraint can end
in one place only. So a normalized path is the path with its matches, from left to right, turned
into names in braces, and all other characters where they were (`normalize_of_segmented`).
-/

namespace Routebook.Path

/-! ## Patterns by preference -/

/-- What a pattern leaves of a text, for each way to match the beginning of the text. The way that
is tried first comes first. -/
abbrev Matcher := List Char → List (List Char)

namespace Matcher

def char (allows : Char → Bool) : Matcher
  | [] => []
  | c :: cs => if allows c then [cs] else []

def literal (c : Char) : Matcher := char (· == c)

def followedBy (a b : Matcher) : Matcher := fun cs => (a cs).flatMap b

def either (a b : Matcher) : Matcher := fun cs => a cs ++ b cs

def atMostOnce (a : Matcher) : Matcher := fun cs => a cs ++ [cs]

/-- Any number of times, the more the earlier. A time that reads nothing does not count. -/
def repeated (a : Matcher) (cs : List Char) : List (List Char) :=
  ((a cs).flatMap fun rest => if rest.length < cs.length then repeated a rest else []) ++ [cs]
termination_by cs.length

end Matcher

open Matcher

/-! ## The pattern of a parameter -/

def isNoBrace (c : Char) : Bool := c != '\x7b' && c != '\x7d'

def word : Matcher := followedBy (char isWordChar) (repeated (char isWordChar))

/-- Braces without braces inside. -/
def nested : Matcher :=
  followedBy (literal '\x7b') (followedBy (repeated (char isNoBrace)) (literal '\x7d'))

def constraint : Matcher :=
  followedBy (literal '\x7b')
    (followedBy (repeated (either (char isNoBrace) nested)) (literal '\x7d'))

def behindName : Matcher := followedBy (atMostOnce constraint) (atMostOnce (literal '?'))

/-- The names of the parameters that a text can begin with, with what is left of the text, in the
order in which they are tried. -/
def parameters (cs : List Char) : List (List Char × List Char) :=
  (literal ':' cs).flatMap fun named =>
    (word named).flatMap fun rest =>
      (behindName rest).map fun left => (named.take (named.length - rest.length), left)

/-- The name of the parameter that a text begins with, with what is left of the text. -/
def parameter? (cs : List Char) : Option (List Char × List Char) := (parameters cs).head?

/-- A character outside of the parameters of a path, or a parameter as it is written and its
name. -/
inductive Segment where
  | kept (c : Char)
  | parameter (text name : List Char)

def Segment.text : Segment → List Char
  | kept c => [c]
  | parameter text _ => text

/-- A parameter is written with its name in braces. -/
def Segment.normalized : Segment → List Char
  | kept c => [c]
  | parameter _ name => '\x7b' :: (name ++ ['\x7d'])

/-- The segments of a path, from left to right: a parameter where one begins, and otherwise a
character. -/
inductive Segmented : List Char → List Segment → Prop where
  | nil : Segmented [] []
  | parameter {cs text name rest : List Char} {segments : List Segment}
    (hmatch : parameter? cs = some (name, rest)) (htext : text ++ rest = cs)
    (hrest : Segmented rest segments) : Segmented cs (.parameter text name :: segments)
  | kept {c : Char} {cs : List Char} {segments : List Segment}
    (hmatch : parameter? (c :: cs) = none) (hrest : Segmented cs segments) :
    Segmented (c :: cs) (.kept c :: segments)

/-! ## What is tried first -/

variable {a b : Matcher} {allows : Char → Bool} {c : Char} {cs rest : List Char}

theorem char_of_allowed (h : allows c = true) (cs : List Char) : char allows (c :: cs) = [cs] := by
  simp [char, h]

theorem char_of_not_allowed (h : allows c = false) (cs : List Char) :
    char allows (c :: cs) = [] := by
  simp [char, h]

theorem literal_cons (c : Char) (cs : List Char) : literal c (c :: cs) = [cs] := by
  simp [literal, char]

theorem literal_of_ne {d : Char} (h : d ≠ c) (cs : List Char) : literal c (d :: cs) = [] := by
  simp [literal, char, h]

theorem repeated_of_stuck (h : a cs = []) : repeated a cs = [cs] := by
  rw [repeated, h]
  rfl

theorem repeated_of_step (h : a cs = [rest]) (hlt : rest.length < cs.length) :
    repeated a cs = repeated a rest ++ [cs] := by
  rw [repeated, h, List.flatMap_singleton, if_pos hlt]

/-- Of the ways to repeat a character the first is to read all of them. -/
theorem head?_repeated_char (cs : List Char) :
    (repeated (char allows) cs).head? = some (cs.dropWhile allows) := by
  induction cs with
  | nil => rw [repeated_of_stuck rfl]; rfl
  | cons c cs ih =>
    rw [List.dropWhile_cons]
    cases hc : allows c with
    | true =>
      rw [repeated_of_step (char_of_allowed hc cs) (by simp), List.head?_append, ih]
      rfl
    | false =>
      rw [repeated_of_stuck (char_of_not_allowed hc cs)]
      rfl

/-- It is the only one before something that such a character does not begin. -/
theorem flatMap_repeated_char (hb : ∀ c cs, allows c = true → b (c :: cs) = []) (cs : List Char) :
    (repeated (char allows) cs).flatMap b = b (cs.dropWhile allows) := by
  induction cs with
  | nil => rw [repeated_of_stuck rfl, List.flatMap_singleton]; rfl
  | cons c cs ih =>
    rw [List.dropWhile_cons]
    cases hc : allows c with
    | true =>
      rw [repeated_of_step (char_of_allowed hc cs) (by simp), List.flatMap_append, ih,
        List.flatMap_singleton, hb c cs hc, List.append_nil]
      rfl
    | false =>
      rw [repeated_of_stuck (char_of_not_allowed hc cs), List.flatMap_singleton]
      rfl

/-! ### Constraints -/

/-- A brace inside a constraint can be closed by the next brace only. -/
theorem nested_cons (cs : List Char) :
    nested ('\x7b' :: cs) = literal '\x7d' (cs.dropWhile isNoBrace) := by
  rw [nested, followedBy, literal_cons, List.flatMap_singleton]
  apply flatMap_repeated_char
  intro c cs hc
  apply literal_of_ne
  rintro rfl
  exact absurd hc (by decide)

theorem nested_of_ne (h : c ≠ '\x7b') (cs : List Char) : nested (c :: cs) = [] := by
  rw [nested, followedBy, literal_of_ne h, List.flatMap_nil]

theorem isNoBrace_iff : isNoBrace c = true ↔ c ≠ '\x7b' ∧ c ≠ '\x7d' := by simp [isNoBrace]

/-- With a brace open inside a constraint, the next brace has to close it. -/
theorem afterConstraint?_true_eq (cs : List Char) :
    afterConstraint? true cs =
      match cs.dropWhile isNoBrace with
      | [] => none
      | c :: rest => if c = '\x7d' then afterConstraint? false rest else none := by
  induction cs with
  | nil => rfl
  | cons c cs ih =>
    rw [afterConstraint?, List.dropWhile_cons]
    cases hc : isNoBrace c with
    | true =>
      obtain ⟨hopen, hclose⟩ := isNoBrace_iff.mp hc
      rw [if_neg hclose, if_neg hopen, ih]
      rfl
    | false =>
      by_cases hclose : c = '\x7d'
      · simp [hclose]
      · have hopen : c = '\x7b' := by
          by_contra hopen
          rw [isNoBrace_iff.mpr ⟨hopen, hclose⟩] at hc
          cases hc
        simp [hopen]

/-- What can stand inside of a constraint. -/
theorem either_noBrace (h : isNoBrace c = true) (cs : List Char) :
    either (char isNoBrace) nested (c :: cs) = [cs] := by
  rw [either, char_of_allowed h, nested_of_ne (isNoBrace_iff.mp h).1, List.append_nil]

theorem either_open (cs : List Char) :
    either (char isNoBrace) nested ('\x7b' :: cs) = literal '\x7d' (cs.dropWhile isNoBrace) := by
  rw [either, char_of_not_allowed (by decide), nested_cons, List.nil_append]

theorem either_close (cs : List Char) :
    either (char isNoBrace) nested ('\x7d' :: cs) = [] := by
  rw [either, char_of_not_allowed (by decide), nested_of_ne (by decide), List.nil_append]

/-- A brace that is opened inside a constraint is closed before the constraint goes on, or the
constraint does not end. -/
theorem flatMap_repeated_open {cs : List Char}
    (h : ∀ rest, rest.length < ('\x7b' :: cs).length →
      (repeated (either (char isNoBrace) nested) rest).flatMap (literal '\x7d') =
        (afterConstraint? false rest).toList) :
    (repeated (either (char isNoBrace) nested) ('\x7b' :: cs)).flatMap (literal '\x7d') =
      (afterConstraint? true cs).toList := by
  have hno : ('\x7b' : Char) ≠ '\x7d' := by decide
  rw [afterConstraint?_true_eq]
  have hle := (cs.dropWhile_sublist isNoBrace).length_le
  cases hrest : cs.dropWhile isNoBrace with
  | nil =>
    rw [repeated_of_stuck (by rw [either_open, hrest]; rfl), List.flatMap_singleton,
      literal_of_ne hno]
    rfl
  | cons d rest =>
    rw [hrest, List.length_cons] at hle
    by_cases hd : d = '\x7d'
    · subst hd
      have hinner : either (char isNoBrace) nested ('\x7b' :: cs) = [rest] := by
        rw [either_open, hrest, literal_cons]
      have hlt : rest.length < ('\x7b' :: cs).length := by
        rw [List.length_cons]
        omega
      rw [repeated_of_step hinner hlt, List.flatMap_append, h rest hlt, List.flatMap_singleton,
        literal_of_ne hno, List.append_nil]
      rfl
    · rw [repeated_of_stuck (by rw [either_open, hrest, literal_of_ne hd]),
        List.flatMap_singleton, literal_of_ne hno]
      simp [hd]

/-- **A constraint that was opened ends in one place at most.** -/
theorem flatMap_repeated_inner (cs : List Char) :
    (repeated (either (char isNoBrace) nested) cs).flatMap (literal '\x7d') =
      (afterConstraint? false cs).toList := by
  induction hn : cs.length using Nat.strong_induction_on generalizing cs with
  | _ n ih =>
    subst hn
    cases cs with
    | nil => rw [repeated_of_stuck rfl]; rfl
    | cons c cs =>
      rw [afterConstraint?]
      by_cases hclose : c = '\x7d'
      · subst hclose
        rw [repeated_of_stuck (either_close cs), List.flatMap_singleton, literal_cons, if_pos rfl]
        rfl
      · rw [if_neg hclose]
        by_cases hopen : c = '\x7b'
        · subst hopen
          rw [if_pos rfl]
          exact flatMap_repeated_open fun rest hlt => ih _ hlt rest rfl
        · have hplain := isNoBrace_iff.mpr ⟨hopen, hclose⟩
          rw [if_neg hopen, repeated_of_step (either_noBrace hplain cs) (by simp),
            List.flatMap_append, ih cs.length (by simp) cs rfl, List.flatMap_singleton,
            literal_of_ne hclose, List.append_nil]

/-! ### Parameters -/

theorem constraint_open (cs : List Char) :
    constraint ('\x7b' :: cs) = (afterConstraint? false cs).toList := by
  rw [constraint, followedBy, literal_cons, List.flatMap_singleton]
  exact flatMap_repeated_inner cs

theorem constraint_of_ne (h : c ≠ '\x7b') (cs : List Char) : constraint (c :: cs) = [] := by
  rw [constraint, followedBy, literal_of_ne h, List.flatMap_nil]

theorem head?_atMostOnce_constraint (cs : List Char) :
    (atMostOnce constraint cs).head? = some (afterBraces cs) := by
  cases cs with
  | nil => rfl
  | cons c cs =>
    by_cases hopen : c = '\x7b'
    · subst hopen
      rw [atMostOnce, constraint_open, afterBraces]
      cases afterConstraint? false cs <;> rfl
    · rw [atMostOnce, constraint_of_ne hopen]
      simp [afterBraces, hopen]

theorem head?_atMostOnce_mark (cs : List Char) :
    (atMostOnce (literal '?') cs).head? = some (afterMark cs) := by
  cases cs with
  | nil => rfl
  | cons c cs =>
    by_cases hc : c = '?'
    · subst hc
      rw [atMostOnce, literal_cons]
      rfl
    · rw [atMostOnce, literal_of_ne hc]
      simp [afterMark, hc]

/-- The first result of a chain comes from the first result of its beginning, if that can go on. -/
theorem head?_flatMap_of_head? {α β : Type} {f : α → List β} {as : List α} {x : α} {y : β}
    (hx : as.head? = some x) (hy : (f x).head? = some y) : (as.flatMap f).head? = some y := by
  cases as with
  | nil => cases hx
  | cons a as =>
    obtain rfl := Option.some.inj hx
    rw [List.flatMap_cons, List.head?_append, hy, Option.some_or]

/-- Behind a name the constraint is tried before the question mark, and each before nothing. -/
theorem head?_behindName (cs : List Char) : (behindName cs).head? = some (afterName cs) := by
  rw [afterName_eq]
  exact head?_flatMap_of_head? (head?_atMostOnce_constraint cs) (head?_atMostOnce_mark _)

theorem head?_word (h : cs.takeWhile isWordChar ≠ []) :
    (word cs).head? = some (cs.dropWhile isWordChar) := by
  cases cs with
  | nil => exact absurd rfl h
  | cons c cs =>
    cases hc : isWordChar c with
    | true =>
      rw [word, followedBy, char_of_allowed hc, List.flatMap_singleton, head?_repeated_char,
        List.dropWhile_cons, hc]
      rfl
    | false => exact absurd (by rw [List.takeWhile_cons, hc]; rfl) h

theorem word_of_no_name (h : cs.takeWhile isWordChar = []) : word cs = [] := by
  cases cs with
  | nil => rfl
  | cons c cs =>
    cases hc : isWordChar c with
    | true => simp [hc] at h
    | false => rw [word, followedBy, char_of_not_allowed hc, List.flatMap_nil]

/-- **The first match of the pattern is the parameter that a path is read with.** -/
theorem parameter?_cons (c : Char) (cs : List Char) :
    parameter? (c :: cs) =
      if c = ':' ∧ cs.takeWhile isWordChar ≠ [] then
        some (cs.takeWhile isWordChar, afterName (cs.dropWhile isWordChar))
      else none := by
  rw [parameter?, parameters]
  by_cases hc : c = ':'
  · subst hc
    rw [literal_cons, List.flatMap_singleton]
    by_cases hname : cs.takeWhile isWordChar = []
    · rw [word_of_no_name hname, if_neg fun h => h.2 hname]
      rfl
    · rw [if_pos ⟨rfl, hname⟩]
      -- What is read of the name is what stands before the rest of the text.
      have htake : cs.take (cs.length - (cs.dropWhile isWordChar).length) =
          cs.takeWhile isWordChar := by
        have hsplit : cs.takeWhile isWordChar ++ cs.dropWhile isWordChar = cs :=
          List.takeWhile_append_dropWhile
        have hlength := congrArg List.length hsplit
        rw [List.length_append] at hlength
        exact (congrArg _ hsplit.symm).trans (List.take_left' (by omega))
      refine head?_flatMap_of_head? (head?_word hname) ?_
      rw [List.head?_map, head?_behindName, Option.map_some, htake]
  · rw [literal_of_ne hc, if_neg fun h => hc h.1]
    rfl

/-! ## Normalized paths -/

theorem exists_segmented (cs : List Char) :
    ∃ segments, Segmented cs segments ∧ segments.flatMap Segment.text = cs ∧
      segments.flatMap Segment.normalized = normalizeChars cs := by
  rw [normalizeChars]
  fun_induction pieces cs with
  | case1 => exact ⟨[], .nil, rfl, rfl⟩
  | case2 c cs hc ih =>
    obtain ⟨segments, hsegments, htext, hnormalized⟩ := ih
    have hmatch := parameter?_cons c cs
    rw [if_pos hc] at hmatch
    obtain ⟨text, hsplit⟩ := (afterName_suffix _).trans
      ((List.dropWhile_suffix isWordChar).trans (List.suffix_cons c cs))
    refine ⟨_, .parameter hmatch hsplit hsegments, ?_, ?_⟩
    · rw [List.flatMap_cons, htext]
      exact hsplit
    · rw [List.flatMap_cons, List.flatMap_cons, hnormalized]
      rfl
  | case3 c cs hc ih =>
    obtain ⟨segments, hsegments, htext, hnormalized⟩ := ih
    have hmatch := parameter?_cons c cs
    rw [if_neg hc] at hmatch
    refine ⟨_, .kept hmatch hsegments, ?_, ?_⟩
    · rw [List.flatMap_cons, htext]
      rfl
    · rw [List.flatMap_cons, List.flatMap_cons, hnormalized]
      rfl

theorem Segmented.unique {ss ss' : List Segment} (h : Segmented cs ss) (h' : Segmented cs ss') :
    ss = ss' := by
  induction h generalizing ss' with
  | nil =>
    cases h' with
    | nil => rfl
    | parameter hmatch => exact absurd hmatch (by simp [parameter?, parameters, literal, char])
  | parameter hmatch htext hrest ih =>
    cases h' with
    | nil => exact absurd hmatch (by simp [parameter?, parameters, literal, char])
    | parameter hmatch' htext' hrest' =>
      obtain ⟨rfl, rfl⟩ := Prod.mk.inj (Option.some.inj (hmatch.symm.trans hmatch'))
      obtain rfl := List.append_cancel_right (htext.trans htext'.symm)
      rw [ih hrest']
    | kept hmatch' => exact absurd (hmatch.symm.trans hmatch') (by simp)
  | kept hmatch hrest ih =>
    cases h' with
    | parameter hmatch' => exact absurd (hmatch.symm.trans hmatch') (by simp)
    | kept hmatch' hrest' => rw [ih hrest']

/-- **A normalized path is the path with its parameters, matched from left to right, as names in
braces, and every other character kept in its place.** No colon of it has a character of a name
behind it, and normalizing it changes nothing. -/
theorem normalize_of_segmented (path : String) :
    Settled (normalize path).toList ∧ normalize (normalize path) = normalize path ∧
      ∃ segments, (∀ ss, Segmented path.toList ss ↔ ss = segments) ∧
        segments.flatMap Segment.text = path.toList ∧
        segments.flatMap Segment.normalized = (normalize path).toList := by
  obtain ⟨segments, hsegments, htext, hnormalized⟩ := exists_segmented path.toList
  refine ⟨settled_normalize path, normalize_normalize path, segments, fun ss => ⟨fun h => ?_, ?_⟩,
    htext, ?_⟩
  · exact h.unique hsegments
  · rintro rfl
    exact hsegments
  · rw [normalize, String.toList_ofList]
    exact hnormalized

end Routebook.Path
