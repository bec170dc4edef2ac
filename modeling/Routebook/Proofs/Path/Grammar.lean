import Routebook.Proofs.Path.Matches

/-!
# The grammar of paths

A path is written as literal texts and parameters. A parameter is a colon and a name, perhaps a
constraint in braces, perhaps a question mark; the text of a constraint can have anything in it,
colons, slashes and braces included, as long as its braces are balanced and nested at most once.
What is written behind a parameter must not look like a part of it.

**Normalizing a path keeps its literal texts and turns each parameter into its name in braces**
(`normalize_of_grammatical`). There is nothing to choose: what is written in one way by the grammar
is written in no other.
-/

namespace Routebook.Path

/-! ## Parts -/

/-- Texts with balanced braces, nested at most so many levels deep. -/
inductive Balanced : Nat → List Char → Prop where
  | nil {n : Nat} : Balanced n []
  | plain {n : Nat} {c : Char} {cs : List Char} (hc : isNoBrace c = true) (h : Balanced n cs) :
    Balanced n (c :: cs)
  | braces {n : Nat} {inner cs : List Char} (hinner : Balanced n inner) (h : Balanced (n + 1) cs) :
    Balanced (n + 1) ('\x7b' :: (inner ++ '\x7d' :: cs))

/-- A part of a path as its author means it. -/
inductive Part where
  | literal (text : List Char)
  | parameter (name : List Char) (constraint : Option (List Char)) (optional : Bool)

namespace Part

def writtenConstraint : Option (List Char) → List Char
  | none => []
  | some text => '\x7b' :: (text ++ ['\x7d'])

def writtenMark : Bool → List Char
  | true => ['?']
  | false => []

def written : Part → List Char
  | literal text => text
  | parameter name constraint optional =>
    ':' :: (name ++ (writtenConstraint constraint ++ writtenMark optional))

def normalized : Part → List Char
  | literal text => text
  | parameter name _ _ => '\x7b' :: (name ++ ['\x7d'])

/-- What a part is made of. -/
def WellFormed : Part → Prop
  | literal text => text ≠ [] ∧ ':' ∉ text
  | parameter name constraint _ =>
    name ≠ [] ∧ (∀ c ∈ name, isWordChar c = true) ∧ ∀ text ∈ constraint, Balanced 1 text

/-- Whether a text does not begin with what could belong to a parameter in front of it. -/
def Apart (cs : List Char) : Prop :=
  ∀ c ∈ cs.head?, isWordChar c = false ∧ c ≠ '\x7b' ∧ c ≠ '?'

/-- Which parts can follow each other. Two literal texts would be one. -/
def Precedes : Part → Part → Prop
  | literal _, literal _ => False
  | parameter .., literal text => Apart text
  | _, parameter .. => True

end Part

open Routebook.Path.Part (writtenConstraint writtenMark Apart)

/-- Lists of parts that a path can be written as. -/
structure Grammatical (ps : List Part) : Prop where
  parts : ∀ p ∈ ps, p.WellFormed
  order : ps.IsChain Part.Precedes

def writtenParts (ps : List Part) : List Char := ps.flatMap Part.written

def normalizedParts (ps : List Part) : List Char := ps.flatMap Part.normalized

theorem writtenParts_cons (p : Part) (ps : List Part) :
    writtenParts (p :: ps) = p.written ++ writtenParts ps := List.flatMap_cons

theorem normalizedParts_cons (p : Part) (ps : List Part) :
    normalizedParts (p :: ps) = p.normalized ++ normalizedParts ps := List.flatMap_cons

variable {cs rest rest' name text : List Char} {constraint constraint' : Option (List Char)}
  {optional optional' : Bool} {p : Part} {ps : List Part}

theorem Grammatical.head (h : Grammatical (p :: ps)) : p.WellFormed :=
  h.parts p List.mem_cons_self

theorem Grammatical.tail (h : Grammatical (p :: ps)) : Grammatical ps :=
  ⟨fun q hq => h.parts q (List.mem_cons_of_mem _ hq), h.order.tail⟩

/-- Behind a literal text a parameter begins, or the path ends. -/
theorem Grammatical.head?_of_literal (h : Grammatical (.literal text :: ps)) :
    ∀ c ∈ (writtenParts ps).head?, c = ':' := by
  intro c hc
  cases ps with
  | nil => exact absurd hc (by simp [writtenParts])
  | cons q ps =>
    cases q with
    | literal text' => exact absurd (List.isChain_cons_cons.mp h.order).1 id
    | parameter name constraint optional =>
      simpa [writtenParts, Part.written, eq_comm] using hc

/-- What is behind a parameter cannot be taken for a part of it. -/
theorem Grammatical.apart (h : Grammatical (.parameter name constraint optional :: ps)) :
    Apart (writtenParts ps) := by
  intro c hc
  cases ps with
  | nil => exact absurd hc (by simp [writtenParts])
  | cons q ps =>
    have hq := h.tail.head
    have hfirst := (List.isChain_cons_cons.mp h.order).1
    rw [writtenParts_cons] at hc
    cases q with
    | literal text =>
      rw [Part.written, List.head?_append_of_ne_nil _ hq.1] at hc
      exact hfirst c hc
    | parameter name constraint optional =>
      obtain rfl : ':' = c := by simpa [Part.written] using hc
      decide

/-! ## Reading a part in front of other text -/

/-- An inner pair of braces is read up to the brace that closes it. -/
theorem afterConstraint?_of_balanced_zero (h : Balanced 0 cs) (rest : List Char) :
    afterConstraint? true (cs ++ '\x7d' :: rest) = afterConstraint? false rest := by
  generalize hn : 0 = n at h
  induction h with
  | nil => rfl
  | plain hc _ ih =>
    obtain ⟨hopen, hclose⟩ := isNoBrace_iff.mp hc
    rw [List.cons_append, afterConstraint?, if_neg hclose, if_neg hopen]
    exact ih hn
  | braces => exact absurd hn (by simp)

/-- **A constraint with balanced braces is read up to the brace that closes it.** -/
theorem afterConstraint?_of_balanced (h : Balanced 1 cs) (rest : List Char) :
    afterConstraint? false (cs ++ '\x7d' :: rest) = some rest := by
  generalize hn : 1 = n at h
  induction h with
  | nil => rfl
  | plain hc _ ih =>
    obtain ⟨hopen, hclose⟩ := isNoBrace_iff.mp hc
    rw [List.cons_append, afterConstraint?, if_neg hclose, if_neg hopen]
    exact ih hn
  | braces hinner _ _ ih =>
    obtain rfl := Nat.succ.inj hn
    rw [List.cons_append, List.append_assoc, List.cons_append, afterConstraint?,
      if_neg (by decide), if_pos rfl, afterConstraint?_of_balanced_zero hinner]
    exact ih hn

theorem afterMark_writtenMark (h : Apart rest) (optional : Bool) :
    afterMark (writtenMark optional ++ rest) = rest := by
  cases optional with
  | true => rfl
  | false =>
    cases rest with
    | nil => rfl
    | cons c cs => simp [writtenMark, afterMark, (h c rfl).2.2]

theorem afterBraces_writtenConstraint (hconstraint : ∀ text ∈ constraint, Balanced 1 text)
    (hrest : ∀ c ∈ rest.head?, c ≠ '\x7b') :
    afterBraces (writtenConstraint constraint ++ rest) = rest := by
  cases constraint with
  | none =>
    cases rest with
    | nil => rfl
    | cons c cs => simp [writtenConstraint, afterBraces, hrest c rfl]
  | some text =>
    rw [writtenConstraint, List.cons_append, List.append_assoc, List.singleton_append,
      afterBraces, afterConstraint?_of_balanced (hconstraint text rfl), Option.getD_some]

/-- A question mark, or what is behind the parameter, begins no constraint and is in no name. -/
theorem head?_writtenMark_append (h : Apart rest) (optional : Bool) :
    ∀ c ∈ (writtenMark optional ++ rest).head?, isWordChar c = false ∧ c ≠ '\x7b' := by
  intro c hc
  cases optional with
  | true =>
    obtain rfl : '?' = c := by simpa [writtenMark] using hc
    decide
  | false => exact (h c hc).imp_right And.left

theorem head?_behindName_append (h : Apart rest) (constraint : Option (List Char))
    (optional : Bool) :
    ∀ c ∈ (writtenConstraint constraint ++ (writtenMark optional ++ rest)).head?,
      isWordChar c = false := by
  intro c hc
  cases constraint with
  | none => exact (head?_writtenMark_append h optional c hc).1
  | some text =>
    obtain rfl : '\x7b' = c := by simpa [writtenConstraint] using hc
    decide

theorem takeWhile_append_of_head? {b : Char → Bool} (hcs : ∀ c ∈ cs, b c = true)
    (hrest : ∀ c ∈ rest.head?, b c = false) : (cs ++ rest).takeWhile b = cs := by
  rw [List.takeWhile_append_of_pos hcs]
  cases rest with
  | nil => simp
  | cons c rest => simp [hrest c rfl]

theorem dropWhile_append_of_head? {b : Char → Bool} (hcs : ∀ c ∈ cs, b c = true)
    (hrest : ∀ c ∈ rest.head?, b c = false) : (cs ++ rest).dropWhile b = rest := by
  rw [List.dropWhile_append_of_pos hcs]
  cases rest with
  | nil => simp
  | cons c rest => simp [hrest c rfl]

theorem pieces_literal_append (h : ':' ∉ text) (rest : List Char) :
    pieces (text ++ rest) = text.map .char ++ pieces rest := by
  induction text with
  | nil => rfl
  | cons c cs ih =>
    rw [List.mem_cons, not_or] at h
    rw [List.cons_append, pieces, if_neg fun hc => h.1 hc.1.symm, ih h.2]
    rfl

/-- **A parameter is read as far as it is written.** -/
theorem pieces_parameter_append
    (h : (Part.parameter name constraint optional).WellFormed) (hrest : Apart rest) :
    pieces ((Part.parameter name constraint optional).written ++ rest) =
      .parameter name :: pieces rest := by
  obtain ⟨hne, hword, hbalanced⟩ := h
  have hbehind := head?_behindName_append hrest constraint optional
  have hconstraint := afterBraces_writtenConstraint hbalanced fun c hc =>
    (head?_writtenMark_append hrest optional c hc).2
  rw [Part.written, List.cons_append, List.append_assoc, List.append_assoc, pieces,
    takeWhile_append_of_head? hword hbehind, dropWhile_append_of_head? hword hbehind,
    if_pos ⟨rfl, hne⟩, afterName_eq, hconstraint, afterMark_writtenMark hrest]

/-- **The pieces of a path are those of its parts.** -/
theorem normalizeChars_writtenParts (h : Grammatical ps) :
    normalizeChars (writtenParts ps) = normalizedParts ps := by
  unfold normalizeChars
  induction ps with
  | nil => rw [writtenParts, normalizedParts, List.flatMap_nil, pieces]; rfl
  | cons p ps ih =>
    have hps := ih h.tail
    rw [writtenParts_cons, normalizedParts_cons]
    cases p with
    | literal text =>
      rw [Part.written, pieces_literal_append h.head.2, List.flatMap_append, List.flatMap_map]
      exact congrArg₂ (· ++ ·) (List.flatMap_singleton' text) hps
    | parameter name constraint optional =>
      rw [pieces_parameter_append h.head h.apart, List.flatMap_cons]
      exact congrArg (_ ++ ·) hps

/-! ## One way to write a path -/

theorem Part.written_ne_nil (h : p.WellFormed) : p.written ≠ [] := by
  cases p with
  | literal text => exact h.1
  | parameter name constraint optional => exact List.cons_ne_nil _ _

/-- No literal text begins like a parameter. -/
theorem literal_append_ne (h : (Part.literal text).WellFormed) : text ++ rest ≠ ':' :: rest' := by
  intro heq
  obtain ⟨hne, hcolon⟩ := h
  cases text with
  | nil => exact hne rfl
  | cons c cs =>
    obtain ⟨rfl, -⟩ := List.cons.inj heq
    exact hcolon List.mem_cons_self

/-- A literal text is what is written before the next colon. -/
theorem takeWhile_of_literal (h : Grammatical (.literal text :: ps)) :
    (text ++ writtenParts ps).takeWhile (· != ':') = text := by
  refine takeWhile_append_of_head? (fun c hc => ?_) fun c hc => ?_
  · rw [bne_iff_ne]
    rintro rfl
    exact h.head.2 hc
  · rw [h.head?_of_literal c hc, bne_self_eq_false]

theorem writtenMark_append_inj (h : Apart rest) (h' : Apart rest')
    (heq : writtenMark optional ++ rest = writtenMark optional' ++ rest') :
    optional = optional' ∧ rest = rest' := by
  have hrest : rest = rest' := by
    rw [← afterMark_writtenMark h optional, heq, afterMark_writtenMark h']
  subst hrest
  have hmark := List.append_cancel_right heq
  cases optional <;> cases optional' <;> simp [writtenMark] at hmark ⊢

theorem writtenConstraint_append_inj (h : ∀ text ∈ constraint, Balanced 1 text)
    (h' : ∀ text ∈ constraint', Balanced 1 text) (hrest : ∀ c ∈ rest.head?, c ≠ '\x7b')
    (hrest' : ∀ c ∈ rest'.head?, c ≠ '\x7b')
    (heq : writtenConstraint constraint ++ rest = writtenConstraint constraint' ++ rest') :
    constraint = constraint' ∧ rest = rest' := by
  have hsame : rest = rest' := by
    rw [← afterBraces_writtenConstraint h hrest, heq, afterBraces_writtenConstraint h' hrest']
  subst hsame
  have hwritten := List.append_cancel_right heq
  cases constraint <;> cases constraint' <;> simp_all [writtenConstraint]

/-- A parameter and what is behind it can be told apart. -/
theorem written_parameter_append_inj {name' : List Char}
    (h : (Part.parameter name constraint optional).WellFormed) (hrest : Apart rest)
    (h' : (Part.parameter name' constraint' optional').WellFormed) (hrest' : Apart rest')
    (heq : (Part.parameter name constraint optional).written ++ rest =
      (Part.parameter name' constraint' optional').written ++ rest') :
    Part.parameter name constraint optional = .parameter name' constraint' optional' ∧
      rest = rest' := by
  simp only [Part.written, List.cons_append, List.append_assoc, List.cons.injEq, true_and] at heq
  have hbehind := head?_behindName_append hrest constraint optional
  have hbehind' := head?_behindName_append hrest' constraint' optional'
  have hname : name = name' := by
    rw [← takeWhile_append_of_head? h.2.1 hbehind, heq,
      takeWhile_append_of_head? h'.2.1 hbehind']
  subst hname
  obtain ⟨rfl, hmark⟩ := writtenConstraint_append_inj h.2.2 h'.2.2
    (fun c hc => (head?_writtenMark_append hrest optional c hc).2)
    (fun c hc => (head?_writtenMark_append hrest' optional' c hc).2)
    (List.append_cancel_left heq)
  obtain ⟨rfl, rfl⟩ := writtenMark_append_inj hrest hrest' hmark
  exact ⟨rfl, rfl⟩

/-- **What is written by the grammar is written by it in one way.** -/
theorem Grammatical.unique {qs : List Part} (h : Grammatical ps) (h' : Grammatical qs)
    (heq : writtenParts ps = writtenParts qs) : ps = qs := by
  induction ps generalizing qs with
  | nil =>
    cases qs with
    | nil => rfl
    | cons q qs =>
      rw [writtenParts_cons, writtenParts, List.flatMap_nil, eq_comm, List.append_eq_nil_iff] at heq
      exact absurd heq.1 (Part.written_ne_nil h'.head)
  | cons p ps ih =>
    cases qs with
    | nil =>
      rw [writtenParts_cons, writtenParts, writtenParts, List.flatMap_nil,
        List.append_eq_nil_iff] at heq
      exact absurd heq.1 (Part.written_ne_nil h.head)
    | cons q qs =>
      rw [writtenParts_cons, writtenParts_cons] at heq
      cases p with
      | literal text =>
        cases q with
        | literal text' =>
          obtain rfl : text = text' := by
            rw [← takeWhile_of_literal h, ← takeWhile_of_literal h']
            exact congrArg _ heq
          rw [ih h.tail h'.tail (List.append_cancel_left heq)]
        | parameter name constraint optional => exact absurd heq (literal_append_ne h.head)
      | parameter name constraint optional =>
        cases q with
        | literal text => exact absurd heq.symm (literal_append_ne h'.head)
        | parameter name' constraint' optional' =>
          obtain ⟨hq, hrest⟩ := written_parameter_append_inj h.head h.apart h'.head h'.apart heq
          rw [hq, ih h.tail h'.tail hrest]

/-- **A normalized path keeps the literal texts of the path and has the name of each parameter in
braces.** No other parts are written as this path. -/
theorem normalize_of_grammatical (h : Grammatical ps) :
    normalize (String.ofList (writtenParts ps)) = String.ofList (normalizedParts ps) ∧
      ∀ qs, Grammatical qs → writtenParts qs = writtenParts ps → qs = ps := by
  refine ⟨?_, fun qs hqs heq => hqs.unique h heq⟩
  rw [normalize, String.toList_ofList, normalizeChars_writtenParts h]

/-- Two parameters in one segment, a constraint with braces, a colon, a slash and a question mark in
it, and a question mark that belongs to the parameter. -/
def datedParts : List Part :=
  [.literal "/posts/".toList, .parameter "from".toList none false,
    .parameter "to".toList (some "[0-9]\x7b4\x7d:[/?]".toList) true, .literal ".json".toList]

/-- Text without braces in front of balanced text. -/
theorem Balanced.plain_append {n : Nat} (hcs : ∀ c ∈ cs, isNoBrace c = true)
    (h : Balanced n rest) : Balanced n (cs ++ rest) := by
  induction cs with
  | nil => exact h
  | cons c cs ih =>
    rw [List.forall_mem_cons] at hcs
    exact .plain hcs.1 (ih hcs.2)

theorem grammatical_dated : Grammatical datedParts := by
  have hinner : Balanced 0 ("4".toList ++ []) :=
    .plain_append (List.all_eq_true.mp (by decide)) .nil
  have hbehind : Balanced 1 (":[/?]".toList ++ []) :=
    .plain_append (List.all_eq_true.mp (by decide)) .nil
  have hconstraint : Balanced 1 ("[0-9]".toList ++ "\x7b4\x7d:[/?]".toList) :=
    .plain_append (List.all_eq_true.mp (by decide)) (.braces hinner hbehind)
  have hjson : Apart ".json".toList := by
    intro c hc
    obtain rfl : '.' = c := Option.some.inj hc
    decide
  constructor
  · rw [datedParts, List.forall_mem_cons, List.forall_mem_cons, List.forall_mem_cons,
      List.forall_mem_singleton]
    refine ⟨⟨by decide, by decide⟩, ⟨by decide, List.all_eq_true.mp (by decide), nofun⟩,
      ⟨by decide, List.all_eq_true.mp (by decide), ?_⟩, by decide, by decide⟩
    rintro text ⟨⟩
    exact hconstraint
  · exact .cons_cons trivial (.cons_cons trivial (.cons_cons hjson (.singleton _)))

theorem normalize_of_grammatical_dated :
    Grammatical datedParts ∧
      normalize "/posts/:from:to\x7b[0-9]\x7b4\x7d:[/?]\x7d?.json" =
        "/posts/\x7bfrom\x7d\x7bto\x7d.json" :=
  ⟨grammatical_dated, (normalize_of_grammatical grammatical_dated).1⟩

end Routebook.Path
