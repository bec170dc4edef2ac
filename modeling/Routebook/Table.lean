/-!
# Tables in order of insertion

A list of keys with their values, each key at most once if it was built by `insert`. **A key keeps
the place at which it was first inserted,** whatever is inserted under it later.
-/

namespace Routebook

abbrev Table (α : Type) := List (String × α)

namespace Table

variable {α : Type}

def keys (t : Table α) : List String := t.map Prod.fst

def get? (t : Table α) (key : String) : Option α := List.lookup key t

/-- Put a value under a key: in its place if it is there, and at the end otherwise. -/
def insert (key : String) (value : α) : Table α → Table α
  | [] => [(key, value)]
  | (k, v) :: t => if k = key then (k, value) :: t else (k, v) :: insert key value t

/-- Change the value under a key, or put one there that is made from nothing. -/
def update (key : String) (f : Option α → α) (t : Table α) : Table α :=
  t.insert key (f (t.get? key))

/-- Entries inserted one after another. -/
def ofEntries (entries : List (String × α)) : Table α :=
  entries.foldl (fun t e => t.insert e.1 e.2) []

theorem keys_insert (key : String) (value : α) (t : Table α) :
    (t.insert key value).keys = if key ∈ t.keys then t.keys else t.keys ++ [key] := by
  induction t with
  | nil => simp [insert, keys]
  | cons e t ih =>
    obtain ⟨k, v⟩ := e
    by_cases h : k = key
    · simp [insert, keys, h]
    · have h' : ¬ key = k := fun e => h e.symm
      simp only [insert, h, if_false, keys, List.map_cons, List.mem_cons, h', false_or] at ih ⊢
      rw [ih]
      split <;> rename_i hm <;> simp [hm]

theorem get?_cons (k key : String) (v : α) (t : Table α) :
    get? ((k, v) :: t) key = if key = k then some v else get? t key := by
  by_cases h : key = k
  · simp [get?, h]
  · have hb : (key == k) = false := by simpa using h
    simp [get?, List.lookup_cons, hb, h]

theorem get?_insert (key other : String) (value : α) (t : Table α) :
    (t.insert key value).get? other = if other = key then some value else t.get? other := by
  induction t with
  | nil => simp only [insert, get?_cons]
  | cons e t ih =>
    obtain ⟨k, v⟩ := e
    by_cases h : k = key
    · subst h
      simp only [insert, if_true, get?_cons]
      split <;> simp_all
    · simp only [insert, h, if_false, get?_cons, ih]
      by_cases ho : other = k
      · have : ¬ other = key := fun e => h (ho.symm.trans e)
        simp [ho, h]
      · simp [ho]

end Table

end Routebook
