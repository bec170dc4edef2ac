import Routebook.Json.Reader
import Routebook.Json.Writer
import Routebook.Proofs.Json.Token

/-!
# Values read back

A value written by `pretty` is read back if it nests no deeper than a reader goes, and refused
otherwise (`read?_pretty`). The text and the value meet in the middle: `tokens` is what the text is
read as (`reads_prettyChars`) and what the value is read from (`readValue?_tokens`).

Nothing in a document is a number, and a number's text need not be one, so values without numbers
are enough.
-/

namespace Routebook.Json

/-- A value without numbers. -/
inductive NumberFree : Json → Prop where
  | null : NumberFree .null
  | bool (b : Bool) : NumberFree (.bool b)
  | string (s : String) : NumberFree (.string s)
  | array {xs : List Json} (h : ∀ x ∈ xs, NumberFree x) : NumberFree (.array xs)
  | object {fs : List (String × Json)} (h : ∀ f ∈ fs, NumberFree f.2) : NumberFree (.object fs)

/-! ## The tokens of a value -/

mutual
def tokens : Json → List Token
  | .null => [.null]
  | .bool b => [.bool b]
  | .number t => [.number t]
  | .string s => [.string s]
  | .array [] => [.openArray, .closeArray]
  | .array (x :: xs) => .openArray :: (tokens x ++ itemTokens xs)
  | .object [] => [.openObject, .closeObject]
  | .object ((k, x) :: fs) => .openObject :: .string k :: .colon :: (tokens x ++ fieldTokens fs)
/-- What follows an item up to the end of its array. -/
def itemTokens : List Json → List Token
  | [] => [.closeArray]
  | x :: xs => .comma :: (tokens x ++ itemTokens xs)
/-- What follows a field up to the end of its object. -/
def fieldTokens : List (String × Json) → List Token
  | [] => [.closeObject]
  | (k, x) :: fs => .comma :: .string k :: .colon :: (tokens x ++ fieldTokens fs)
end

/-! ## Text to tokens -/

section

variable {rest : List Char} {ts : List Token}

theorem Reads.newLine (indent : Nat) (h : Reads rest ts) :
    Reads (newLine indent ++ rest) ts := by
  refine Reads.blanks (fun c hc => ?_) h
  rcases List.mem_cons.mp hc with rfl | hc
  · rfl
  · rw [List.eq_of_mem_replicate hc]
    rfl

theorem reads_prettyItems {indent : Nat} {xs : List Json}
    (hx : ∀ x ∈ xs, ∀ rest ts, Reads rest ts →
      Reads (prettyChars indent x ++ rest) (x.tokens ++ ts))
    (h : Reads rest (.closeArray :: ts)) :
    Reads (prettyItems indent xs ++ rest) (itemTokens xs ++ ts) := by
  induction xs with
  | nil => exact h
  | cons x xs ih =>
    have htail := ih fun y hy => hx y (List.mem_cons_of_mem _ hy)
    have := ((hx x List.mem_cons_self _ _ htail).newLine indent).token (t := .comma) rfl
    simpa [prettyItems, itemTokens, Token.text] using this

theorem reads_prettyFields {indent : Nat} {fs : List (String × Json)}
    (hf : ∀ f ∈ fs, ∀ rest ts, Reads rest ts →
      Reads (prettyChars indent f.2 ++ rest) (f.2.tokens ++ ts))
    (h : Reads rest (.closeObject :: ts)) :
    Reads (prettyFields indent fs ++ rest) (fieldTokens fs ++ ts) := by
  induction fs with
  | nil => exact h
  | cons f fs ih =>
    obtain ⟨k, x⟩ := f
    have htail := ih fun g hg => hf g (List.mem_cons_of_mem _ hg)
    have hvalue := ((hf (k, x) List.mem_cons_self _ _ htail).blank (c := ' ') rfl).token
      (t := .colon) rfl
    have := ((hvalue.token (t := .string k) rfl).newLine indent).token (t := .comma) rfl
    simpa [prettyFields, fieldTokens, Token.text] using this

theorem reads_prettyChars {j : Json} (hj : j.NumberFree) (indent : Nat) (h : Reads rest ts) :
    Reads (prettyChars indent j ++ rest) (j.tokens ++ ts) := by
  induction hj generalizing indent rest ts with
  | null => exact h.token (t := .null) rfl
  | bool b => exact h.token (t := .bool b) rfl
  | string s => exact h.token (t := .string s) rfl
  | @array xs hxs ih =>
    cases xs with
    | nil => exact (h.token (t := .closeArray) rfl).token (t := .openArray) rfl
    | cons x xs =>
      have hclose := (h.token (t := .closeArray) rfl).newLine indent
      have hitems := reads_prettyItems
        (fun y hy rest ts => ih y (List.mem_cons_of_mem _ hy) (indent + 1)) hclose
      have := ((ih x List.mem_cons_self (indent + 1) hitems).newLine (indent + 1)).token
        (t := .openArray) rfl
      simpa [prettyChars, tokens, Token.text] using this
  | @object fs hfs ih =>
    cases fs with
    | nil => exact (h.token (t := .closeObject) rfl).token (t := .openObject) rfl
    | cons f fs =>
      obtain ⟨k, x⟩ := f
      have hclose := (h.token (t := .closeObject) rfl).newLine indent
      have hfields := reads_prettyFields
        (fun g hg rest ts => ih g (List.mem_cons_of_mem _ hg) (indent + 1)) hclose
      have hvalue := ((ih (k, x) List.mem_cons_self (indent + 1) hfields).blank (c := ' ')
        rfl).token (t := .colon) rfl
      have := ((hvalue.token (t := .string k) rfl).newLine (indent + 1)).token
        (t := .openObject) rfl
      simpa [prettyChars, tokens, Token.text] using this

theorem readTokens?_prettyChars {j : Json} (hj : j.NumberFree) :
    readTokens? (prettyChars 0 j) = some j.tokens := by
  have := (reads_prettyChars hj 0 .nil).readTokens?
  simpa using this

end

/-! ## Tokens to a value -/

section

variable {rest : List Token}

/-- No value begins with a closing mark. -/
theorem tokens_eq_cons (j : Json) :
    ∃ t ts, j.tokens = t :: ts ∧ t ≠ .closeArray ∧ t ≠ .closeObject := by
  cases j with
  | array xs => cases xs <;> exact ⟨_, _, rfl, by decide, by decide⟩
  | object fs =>
    cases fs with
    | nil => exact ⟨_, _, rfl, by decide, by decide⟩
    | cons f fs => exact ⟨_, _, rfl, by decide, by decide⟩
  | _ => exact ⟨_, _, rfl, by simp, by simp⟩

/-- What `readItems?` gives for the items of an array, if each is read back. Two units of fuel for
each token are enough: one for the value it begins and one for the list that the value is in. -/
theorem readItems?_tokens {xs : List Json} {x : Json} {n : Nat}
    (hx : ∀ y ∈ x :: xs, ∀ rest n, 2 * y.tokens.length ≤ n + 1 →
      readValue? n (y.tokens ++ rest) = some (y, rest))
    (hn : 2 * (x.tokens ++ itemTokens xs).length ≤ n) :
    readItems? n (x.tokens ++ (itemTokens xs ++ rest)) = some (x :: xs, rest) := by
  induction xs generalizing x n with
  | nil =>
    cases n with
    | zero => simp [itemTokens] at hn
    | succ n =>
      have hlen : 2 * x.tokens.length ≤ n + 1 := by
        simp only [itemTokens, List.length_append, List.length_cons, List.length_nil] at hn
        omega
      rw [readItems?, hx x List.mem_cons_self _ n hlen]
      rfl
  | cons y ys ih =>
    cases n with
    | zero => simp [itemTokens] at hn
    | succ n =>
      simp only [itemTokens, List.length_append, List.length_cons] at hn
      have hlen : 2 * x.tokens.length ≤ n + 1 := by omega
      have hrest : 2 * (y.tokens ++ itemTokens ys).length ≤ n := by
        rw [List.length_append]
        omega
      rw [readItems?, hx x List.mem_cons_self _ n hlen]
      simp only [itemTokens, List.cons_append, List.append_assoc]
      rw [ih (fun z hz => hx z (List.mem_cons_of_mem _ hz)) hrest]
      rfl

theorem readFields?_tokens {fs : List (String × Json)} {f : String × Json} {n : Nat}
    (hf : ∀ g ∈ f :: fs, ∀ rest n, 2 * g.2.tokens.length ≤ n + 1 →
      readValue? n (g.2.tokens ++ rest) = some (g.2, rest))
    (hn : 2 * (f.2.tokens ++ fieldTokens fs).length + 4 ≤ n) :
    readFields? n (.string f.1 :: .colon :: (f.2.tokens ++ (fieldTokens fs ++ rest))) =
      some (f :: fs, rest) := by
  induction fs generalizing f n with
  | nil =>
    cases n with
    | zero => simp at hn
    | succ n =>
      have hlen : 2 * f.2.tokens.length ≤ n + 1 := by
        simp only [fieldTokens, List.length_append, List.length_cons, List.length_nil] at hn
        omega
      rw [readFields?, hf f List.mem_cons_self _ n hlen]
      rfl
  | cons g gs ih =>
    cases n with
    | zero => simp at hn
    | succ n =>
      simp only [fieldTokens, List.length_append, List.length_cons] at hn
      have hlen : 2 * f.2.tokens.length ≤ n + 1 := by omega
      have hrest : 2 * (g.2.tokens ++ fieldTokens gs).length + 4 ≤ n := by
        rw [List.length_append]
        omega
      rw [readFields?, hf f List.mem_cons_self _ n hlen]
      simp only [fieldTokens, List.cons_append, List.append_assoc]
      rw [ih (fun h hh => hf h (List.mem_cons_of_mem _ hh)) hrest]
      rfl

/-- A value has a token, so there is a step to read it with. -/
theorem not_length_tokens_le (j : Json) : ¬2 * j.tokens.length ≤ 0 + 1 := by
  obtain ⟨t, ts, ht, -⟩ := tokens_eq_cons j
  rw [ht, List.length_cons]
  omega

/-- **A value is read back from its tokens.** -/
theorem readValue?_tokens {j : Json} (hj : j.NumberFree) {n : Nat}
    (hn : 2 * j.tokens.length ≤ n + 1) : readValue? n (j.tokens ++ rest) = some (j, rest) := by
  induction hj generalizing n rest with
  | null | bool b | string s =>
    cases n with
    | zero => exact absurd hn (not_length_tokens_le _)
    | succ n => rfl
  | @array xs hxs ih =>
    cases n with
    | zero => exact absurd hn (not_length_tokens_le _)
    | succ n =>
      cases xs with
      | nil => rfl
      | cons x xs =>
        simp only [tokens, List.length_cons] at hn
        have hitems : readItems? n (x.tokens ++ (itemTokens xs ++ rest)) = some (x :: xs, rest) :=
          readItems?_tokens (fun y hy rest n h => ih y hy h) (by omega)
        -- The reader looks for the end of the array first, and no item begins like it.
        obtain ⟨t, ts, ht, hclose, -⟩ := tokens_eq_cons x
        simp only [tokens, List.cons_append, List.append_assoc, ht] at hitems ⊢
        rw [readValue?]
        · rw [hitems]
          rfl
        · exact fun rest h => hclose (List.cons.inj h).1
  | @object fs hfs ih =>
    cases n with
    | zero => exact absurd hn (not_length_tokens_le _)
    | succ n =>
      cases fs with
      | nil => rfl
      | cons f fs =>
        simp only [tokens, List.length_cons] at hn
        have hfields : readFields? n
            (.string f.1 :: .colon :: (f.2.tokens ++ (fieldTokens fs ++ rest))) =
              some (f :: fs, rest) :=
          readFields?_tokens (fun g hg rest n h => ih g hg h) (by omega)
        simp only [tokens, List.cons_append, List.append_assoc]
        rw [readValue?, hfields]
        · rfl
        · simp

end

/-- **A value that nests no deeper than a reader goes is read back from its text.** A value that
nests deeper is refused. -/
theorem read?_pretty {j : Json} (hj : j.NumberFree) :
    read? j.pretty = if j.depth ≤ depthLimit then some j else none := by
  have htokens : readTokens? j.pretty.toList = some j.tokens := by
    rw [pretty, String.toList_ofList]
    exact readTokens?_prettyChars hj
  have hvalue : readValue? (2 * j.tokens.length + 1) j.tokens = some (j, []) := by
    rw [← List.append_nil j.tokens]
    exact readValue?_tokens hj (by simp only [List.append_nil]; omega)
  rw [read?, htokens]
  show ofTokens? j.tokens = _
  rw [ofTokens?, hvalue]

end Routebook.Json
