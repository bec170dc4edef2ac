import Routebook.Json.Token

/-!
# Tokens read back

What `Token.text` writes, `readToken?` reads, whatever follows it (`readToken?_text`). Numbers are
the exception: a number ends where its text stops, so the next character can go on with it.

`Reads` says what the tokens of a text are, with all fuel that is enough for it.
-/

namespace Routebook.Json

/-! ## Strings -/

theorem hexNumber?_low : ∀ n < 0x20,
    Text.hexNumber? ['0', '0', Nat.digitChar (n / 16), Nat.digitChar (n % 16)] = some n := by
  decide

theorem readString?_escapeChar (c : Char) (rest : List Char) :
    readString? (escapeChar c ++ rest) = (readString? rest).map fun (s, r) => (c :: s, r) := by
  unfold escapeChar
  split
  · next h => subst h; simp [readString?, simpleEscape?]
  split
  · next h => subst h; simp [readString?, simpleEscape?]
  split
  · next h => subst h; simp [readString?, simpleEscape?]
  split
  · next h => subst h; simp [readString?, simpleEscape?]
  split
  · next h => subst h; simp [readString?, simpleEscape?]
  split
  · next h => subst h; simp [readString?, simpleEscape?]
  split
  · next h => subst h; simp [readString?, simpleEscape?]
  split
  · next h =>
    have hlow : Text.isLowSurrogate c.toNat = false := by
      simp [Text.isLowSurrogate]
      omega
    have hhigh : Text.isHighSurrogate c.toNat = false := by
      simp [Text.isHighSurrogate]
      omega
    simp [readString?, hexNumber?_low c.toNat h, hlow, hhigh]
  · next hquote hslash _ _ _ _ _ hcontrol => simp [readString?, hslash, hcontrol]

/-- **A string is read back as it was written.** -/
theorem readString?_flatMap_escapeChar (cs rest : List Char) :
    readString? (cs.flatMap escapeChar ++ '"' :: rest) = some (cs, rest) := by
  induction cs with
  | nil => simp [readString?]
  | cons c cs ih =>
    rw [List.flatMap_cons, List.append_assoc, readString?_escapeChar, ih]
    rfl

/-! ## Tokens -/

/-- A token that shows its own end. -/
def Token.endsItself : Token → Bool
  | number _ => false
  | _ => true

theorem readToken?_text {t : Token} (h : t.endsItself = true) (rest : List Char) :
    readToken? (t.text ++ rest) = some (t, rest) := by
  cases t with
  | number x => cases h
  | bool b => cases b <;> rfl
  | string s =>
    rw [Token.text, stringText, List.cons_append, List.append_assoc, readToken?]
    rw [List.singleton_append, readString?_flatMap_escapeChar]
    simp
  | _ => rfl

/-- A token's text begins with a character that is no blank. -/
theorem text_eq_cons {t : Token} (h : t.endsItself = true) :
    ∃ c cs, t.text = c :: cs ∧ isBlank c = false := by
  cases t with
  | number x => cases h
  | bool b => cases b <;> exact ⟨_, _, rfl, rfl⟩
  | _ => exact ⟨_, _, rfl, rfl⟩

/-! ## Texts -/

/-- Some tokens are those of a text, with any fuel that is enough for its length. -/
def Reads (cs : List Char) (ts : List Token) : Prop :=
  ∀ n, cs.length < n → readTokensWithin? n cs = some ts

namespace Reads

variable {cs rest : List Char} {ts : List Token} {t : Token}

theorem readTokens? (h : Reads cs ts) : readTokens? cs = some ts := h _ (Nat.lt_succ_self _)

theorem nil : Reads [] [] := by
  intro n hn
  cases n with
  | zero => exact absurd hn (Nat.not_lt_zero _)
  | succ n => rfl

theorem blank {c : Char} (hc : isBlank c = true) (h : Reads rest ts) : Reads (c :: rest) ts := by
  intro n hn
  cases n with
  | zero => exact absurd hn (Nat.not_lt_zero _)
  | succ n =>
    -- A blank costs no fuel: it is dropped before the next token is read.
    have := h (n + 1) (Nat.lt_of_succ_lt hn)
    rw [readTokensWithin?] at this ⊢
    rw [List.dropWhile_cons, if_pos hc, this]

theorem blanks (hcs : ∀ c ∈ cs, isBlank c = true) (h : Reads rest ts) : Reads (cs ++ rest) ts := by
  induction cs with
  | nil => exact h
  | cons c cs ih =>
    exact (ih fun d hd => hcs d (List.mem_cons_of_mem _ hd)).blank (hcs c List.mem_cons_self)

theorem token (ht : t.endsItself = true) (h : Reads rest ts) :
    Reads (t.text ++ rest) (t :: ts) := by
  obtain ⟨c, cs, htext, hc⟩ := text_eq_cons ht
  have hread := readToken?_text ht rest
  rw [htext, List.cons_append] at hread ⊢
  intro n hn
  cases n with
  | zero => exact absurd hn (Nat.not_lt_zero _)
  | succ n =>
    have hrest : rest.length < n := by
      simp only [List.length_cons, List.length_append] at hn
      omega
    rw [readTokensWithin?, List.dropWhile_cons, if_neg (by simp [hc])]
    simp only [hread, h n hrest, bind, Option.bind, pure]

end Reads

end Routebook.Json
