import Routebook.Document.Build

/-!
# Tables that are filled step by step

A table is filled by updates, and an update at a key that is there leaves every key in its place.
So **the keys of a table are the keys of its updates in the order of their first occurrence**
(`keys_foldl_update`), whatever the updates put there. Two tables with the same keys in the same
order and the same value at each are equal (`ext_get?`); for tables of path items the operations at
each path and method are enough (`Paths.ext_slot`).
-/

namespace Routebook

/-! ## First occurrences -/

section FirstOccurrences

variable {α : Type} [DecidableEq α] {a : α} {seen seen' as bs : List α}

theorem mem_firstOccurrences : a ∈ firstOccurrences seen as ↔ a ∈ as ∧ a ∉ seen := by
  induction as generalizing seen with
  | nil => simp [firstOccurrences]
  | cons b as ih =>
    by_cases hb : b ∈ seen
    · rw [firstOccurrences, if_pos hb, ih, List.mem_cons]
      refine ⟨fun ⟨h, hs⟩ => ⟨Or.inr h, hs⟩, fun ⟨h, hs⟩ => ⟨?_, hs⟩⟩
      rcases h with rfl | h
      · exact absurd hb hs
      · exact h
    · rw [firstOccurrences, if_neg hb, List.mem_cons, ih, List.mem_cons, List.mem_cons, not_or]
      constructor
      · rintro (rfl | ⟨h, _, hs⟩)
        · exact ⟨Or.inl rfl, hb⟩
        · exact ⟨Or.inr h, hs⟩
      · rintro ⟨rfl | h, hs⟩
        · exact Or.inl rfl
        · by_cases hab : a = b
          · exact Or.inl hab
          · exact Or.inr ⟨h, hab, hs⟩

theorem nodup_firstOccurrences (seen as : List α) : (firstOccurrences seen as).Nodup := by
  induction as generalizing seen with
  | nil => exact List.nodup_nil
  | cons b as ih =>
    by_cases hb : b ∈ seen
    · rw [firstOccurrences, if_pos hb]
      exact ih seen
    · rw [firstOccurrences, if_neg hb, List.nodup_cons]
      exact ⟨fun h => (mem_firstOccurrences.mp h).2 List.mem_cons_self, ih _⟩

/-- In what order the elements were seen does not matter. -/
theorem firstOccurrences_congr (h : ∀ a, a ∈ seen ↔ a ∈ seen') :
    firstOccurrences seen as = firstOccurrences seen' as := by
  induction as generalizing seen seen' with
  | nil => rfl
  | cons b as ih =>
    have hcons : ∀ a, a ∈ b :: seen ↔ a ∈ b :: seen' := by
      intro a
      rw [List.mem_cons, List.mem_cons, h]
    rw [firstOccurrences, firstOccurrences, ih h, ih hcons]
    by_cases hb : b ∈ seen
    · rw [if_pos hb, if_pos ((h b).mp hb)]
    · rw [if_neg hb, if_neg fun hb' => hb ((h b).mpr hb')]

theorem firstOccurrences_eq_nil (h : ∀ a ∈ as, a ∈ seen) : firstOccurrences seen as = [] := by
  rw [List.eq_nil_iff_forall_not_mem]
  intro a ha
  obtain ⟨has, hseen⟩ := mem_firstOccurrences.mp ha
  exact hseen (h a has)

theorem firstOccurrences_of_nodup (h : as.Nodup) (hs : ∀ a ∈ as, a ∉ seen) :
    firstOccurrences seen as = as := by
  induction as generalizing seen with
  | nil => rfl
  | cons b as ih =>
    obtain ⟨hb, has⟩ := List.nodup_cons.mp h
    rw [firstOccurrences, if_neg (hs b List.mem_cons_self), ih has]
    intro a ha
    rw [List.mem_cons, not_or]
    exact ⟨fun he => hb (he ▸ ha), hs a (List.mem_cons_of_mem _ ha)⟩

/-- What the elements are called does not matter, as long as they are told apart. -/
theorem firstOccurrences_map {β : Type} [DecidableEq β] {f : α → β} (hf : Function.Injective f) :
    firstOccurrences (seen.map f) (as.map f) = (firstOccurrences seen as).map f := by
  induction as generalizing seen with
  | nil => rfl
  | cons a as ih =>
    have hmem : f a ∈ seen.map f ↔ a ∈ seen := by
      refine ⟨fun h => ?_, List.mem_map_of_mem⟩
      obtain ⟨b, hb, hba⟩ := List.mem_map.mp h
      exact hf hba ▸ hb
    rw [List.map_cons, firstOccurrences, firstOccurrences, ih]
    by_cases ha : a ∈ seen
    · rw [if_pos ha, if_pos (hmem.mpr ha)]
    · rw [if_neg ha, if_neg fun h => ha (hmem.mp h), List.map_cons, ← ih, List.map_cons]

/-- One more element at the end of a list without repetition. -/
theorem append_firstOccurrences_cons :
    as ++ firstOccurrences as (a :: bs) =
      (if a ∈ as then as else as ++ [a]) ++
        firstOccurrences (if a ∈ as then as else as ++ [a]) bs := by
  by_cases ha : a ∈ as
  · simp only [firstOccurrences, if_pos ha]
  · simp only [firstOccurrences, if_neg ha, List.append_assoc, List.singleton_append]
    have hend : ∀ x, x ∈ a :: as ↔ x ∈ as ++ [a] := by
      intro x
      rw [List.mem_cons, List.mem_append, List.mem_singleton, or_comm]
    rw [firstOccurrences_congr hend]

end FirstOccurrences

/-! ## Tables -/

namespace Table

variable {α β : Type} {t t' : Table α} {key other : String}

theorem get?_eq_none_iff : t.get? key = none ↔ key ∉ t.keys := by
  induction t with
  | nil => simp [get?, keys]
  | cons e t ih =>
    obtain ⟨k, v⟩ := e
    rw [get?_cons]
    by_cases h : key = k
    · simp [h, keys]
    · simp only [keys] at ih
      simp [h, keys, ih]

theorem keys_update (key : String) (f : Option α → α) (t : Table α) :
    (t.update key f).keys = if key ∈ t.keys then t.keys else t.keys ++ [key] := keys_insert ..

theorem get?_update (key other : String) (f : Option α → α) (t : Table α) :
    (t.update key f).get? other = if other = key then some (f (t.get? key)) else t.get? other :=
  get?_insert ..

theorem keys_foldl_update (key : β → String) (f : β → Option α → α) (bs : List β) (t : Table α) :
    (bs.foldl (fun t b => t.update (key b) (f b)) t).keys =
      t.keys ++ firstOccurrences t.keys (bs.map key) := by
  induction bs generalizing t with
  | nil => simp [firstOccurrences]
  | cons b bs ih =>
    rw [List.foldl_cons, ih, List.map_cons, append_firstOccurrences_cons, keys_update]

theorem nodup_keys_update {f : Option α → α} (h : t.keys.Nodup) : (t.update key f).keys.Nodup := by
  rw [keys_update]
  split
  · exact h
  · next hk => exact List.nodup_append.mpr ⟨h, by simp, fun a ha b hb => by
      rw [List.mem_singleton.mp hb]
      exact fun he => hk (he ▸ ha)⟩

theorem insert_insert (key : String) (first second : α) (t : Table α) :
    (t.insert key first).insert key second = t.insert key second := by
  induction t with
  | nil => simp [insert]
  | cons e t ih =>
    obtain ⟨k, v⟩ := e
    by_cases h : k = key
    · simp [insert, h]
    · simp [insert, h, ih]

/-- Two changes of one value are one change. -/
theorem update_update (key : String) (f g : Option α → α) (t : Table α) :
    (t.update key f).update key g = t.update key fun old => g (some (f old)) := by
  rw [update, get?_update, if_pos rfl, update, insert_insert, update]

/-- What some updates leave under a key is made by those at the key alone. -/
theorem get?_foldl_update (key : β → String) (f : β → Option α → α) (bs : List β) (t : Table α)
    (other : String) :
    (bs.foldl (fun t b => t.update (key b) (f b)) t).get? other =
      (bs.filter fun b => key b = other).foldl (fun old b => some (f b old)) (t.get? other) := by
  induction bs generalizing t with
  | nil => rfl
  | cons b bs ih =>
    rw [List.foldl_cons, ih, get?_update, List.filter_cons]
    by_cases h : key b = other
    · simp [h]
    · simp [h, Ne.symm h]

theorem keys_map (f : String → α → β) (t : Table α) :
    keys (t.map fun e => (e.1, f e.1 e.2)) = t.keys := by
  rw [keys, List.map_map]
  rfl

theorem get?_map (f : String → α → β) (t : Table α) (key : String) :
    get? (t.map fun e => (e.1, f e.1 e.2)) key = (t.get? key).map (f key) := by
  induction t with
  | nil => rfl
  | cons e t ih =>
    obtain ⟨k, v⟩ := e
    rw [List.map_cons, get?_cons, get?_cons, ih]
    by_cases h : key = k
    · simp [h]
    · simp [h]

/-- A table is its keys and what is under them. -/
theorem ext_get? (ht : t.keys.Nodup) (hkeys : t.keys = t'.keys)
    (hget : ∀ key, t.get? key = t'.get? key) : t = t' := by
  induction t generalizing t' with
  | nil =>
    cases t' with
    | nil => rfl
    | cons e t' => simp [keys] at hkeys
  | cons e t ih =>
    cases t' with
    | nil => simp [keys] at hkeys
    | cons e' t' =>
      obtain ⟨k, v⟩ := e
      obtain ⟨k', v'⟩ := e'
      obtain ⟨hkk, htail⟩ := List.cons.inj hkeys
      obtain rfl : k = k' := hkk
      have htail : keys t = keys t' := htail
      obtain ⟨hk, ht⟩ := List.nodup_cons.mp ht
      have hv := hget k
      rw [get?_cons, get?_cons, if_pos rfl, if_pos rfl] at hv
      obtain rfl := Option.some.inj hv
      have hrest : ∀ key, get? t key = get? t' key := by
        intro key
        -- Below its first entry a table without repetition has nothing under that entry's key.
        by_cases hkey : key = k
        · rw [hkey, get?_eq_none_iff.mpr hk, get?_eq_none_iff.mpr (htail ▸ hk)]
        · have := hget key
          rwa [get?_cons, get?_cons, if_neg hkey, if_neg hkey] at this
      rw [ih ht htail hrest]

theorem insert_of_not_mem {value : α} (h : key ∉ t.keys) :
    t.insert key value = t ++ [(key, value)] := by
  induction t with
  | nil => rfl
  | cons e t ih =>
    obtain ⟨k, v⟩ := e
    have hk : k ≠ key := fun he => h (he ▸ List.mem_cons_self)
    rw [insert, if_neg hk, ih fun ht => h (List.mem_cons_of_mem _ ht), List.cons_append]

theorem mem_of_mem_insert {value : α} {e : String × α} (h : e ∈ t.insert key value) :
    e = (key, value) ∨ e ∈ t := by
  induction t with
  | nil => exact Or.inl (List.mem_singleton.mp h)
  | cons d t ih =>
    obtain ⟨k, v⟩ := d
    rw [insert] at h
    by_cases hk : k = key
    · rw [if_pos hk, hk, List.mem_cons] at h
      exact h.imp_right (List.mem_cons_of_mem _)
    · rw [if_neg hk, List.mem_cons] at h
      rcases h with rfl | h
      · exact Or.inr List.mem_cons_self
      · exact (ih h).imp_right (List.mem_cons_of_mem _)

theorem mem_of_get? {value : α} (h : t.get? key = some value) : (key, value) ∈ t := by
  obtain ⟨before, after, rfl, -⟩ := List.lookup_eq_some_iff.mp h
  exact List.mem_append_right _ List.mem_cons_self

theorem get?_of_mem {value : α} (ht : t.keys.Nodup) (h : (key, value) ∈ t) :
    t.get? key = some value := by
  induction t with
  | nil => exact absurd h List.not_mem_nil
  | cons e t ih =>
    obtain ⟨k, v⟩ := e
    obtain ⟨hk, ht⟩ := List.nodup_cons.mp ht
    rw [get?_cons]
    rcases List.mem_cons.mp h with he | he
    · obtain ⟨rfl, rfl⟩ := Prod.mk.inj he
      rw [if_pos rfl]
    · have hkey : key ∈ keys t := List.mem_map_of_mem he
      rw [if_neg fun heq : key = k => hk (heq ▸ hkey), ih ht he]

theorem foldl_insert_of_nodup {es : List (String × α)} (h : (keys (t ++ es)).Nodup) :
    es.foldl (fun t e => t.insert e.1 e.2) t = t ++ es := by
  induction es generalizing t with
  | nil => exact (List.append_nil t).symm
  | cons e es ih =>
    have hnew : e.1 ∉ t.keys := by
      intro he
      rw [keys, List.map_append, List.map_cons] at h
      exact (List.nodup_append.mp h).2.2 e.1 he e.1 List.mem_cons_self rfl
    have happend : t ++ e :: es = t ++ [e] ++ es := by rw [List.append_assoc, List.singleton_append]
    rw [List.foldl_cons, insert_of_not_mem hnew, ih (happend ▸ h), ← happend]

/-- Entries without repetition are the table that is made from them. -/
theorem ofEntries_of_nodup {es : List (String × α)} (h : (keys es).Nodup) : ofEntries es = es :=
  foldl_insert_of_nodup (t := []) h

theorem nodup_keys_ofEntries (es : List (String × α)) : (ofEntries es).keys.Nodup := by
  suffices h : ∀ t : Table α, t.keys.Nodup → (es.foldl (fun t e => t.insert e.1 e.2) t).keys.Nodup
    from h [] List.nodup_nil
  induction es with
  | nil => exact fun _ h => h
  | cons e es ih => exact fun t h => ih _ (nodup_keys_update (f := fun _ => e.2) h)

theorem mem_of_mem_ofEntries {es : List (String × α)} {e : String × α} (h : e ∈ ofEntries es) :
    e ∈ es := by
  suffices hgen : ∀ t : Table α, e ∈ es.foldl (fun t e => t.insert e.1 e.2) t → e ∈ t ∨ e ∈ es
    from (hgen [] h).resolve_left List.not_mem_nil
  clear h
  induction es with
  | nil => exact fun _ => Or.inl
  | cons d es ih =>
    intro t ht
    rcases ih _ ht with ht | he
    · rcases mem_of_mem_insert ht with rfl | ht
      · exact Or.inr List.mem_cons_self
      · exact Or.inl ht
    · exact Or.inr (List.mem_cons_of_mem _ he)

/-! ### Tables whose values have a property -/

/-- A table without repetition whose values have a property. -/
structure Keyed (P : α → Prop) (t : Table α) : Prop where
  nodup : t.keys.Nodup
  values : ∀ e ∈ t, P e.2

namespace Keyed

variable {P : α → Prop} {Q : β → Prop}

theorem nil : Keyed P [] := ⟨List.nodup_nil, fun _ he => absurd he List.not_mem_nil⟩

theorem imp (h : t.Keyed P) {P' : α → Prop} (himp : ∀ a, P a → P' a) : t.Keyed P' :=
  ⟨h.nodup, fun e he => himp e.2 (h.values e he)⟩

theorem map (h : t.Keyed P) {f : String → α → β} (hf : ∀ k a, P a → Q (f k a)) :
    Keyed Q (t.map fun e => (e.1, f e.1 e.2)) := by
  constructor
  · rw [keys, List.map_map]
    exact h.nodup
  · intro d hd
    obtain ⟨e, he, rfl⟩ := List.mem_map.mp hd
    exact hf e.1 e.2 (h.values e he)

theorem get? (h : t.Keyed P) {value : α} (hv : t.get? key = some value) : P value :=
  h.values _ (mem_of_get? hv)

theorem update (h : t.Keyed P) {f : Option α → α} (hnone : P (f none))
    (hsome : ∀ a, P a → P (f (some a))) : (t.update key f).Keyed P := by
  refine ⟨nodup_keys_update h.nodup, fun e he => ?_⟩
  rcases mem_of_mem_insert he with rfl | he
  · cases hold : t.get? key with
    | none => exact hnone
    | some a => exact hsome a (h.get? hold)
  · exact h.values e he

theorem ofEntries {es : List (String × α)} (h : ∀ e ∈ es, P e.2) : (ofEntries es).Keyed P :=
  ⟨nodup_keys_ofEntries es, fun e he => h e (mem_of_mem_ofEntries he)⟩

end Keyed

end Table

/-! ## Operations by path and method -/

namespace Paths

/-- The operation at a path and a method. -/
def slot (ps : Paths) (path : String) (m : Method) : Option Operation :=
  (Table.get? ps path).bind fun item => item.operation? m

theorem ext_slot {ps qs : Paths} (hps : (Table.keys ps).Nodup)
    (hkeys : Table.keys ps = Table.keys qs) (hslot : ∀ path m, ps.slot path m = qs.slot path m) :
    ps = qs := by
  refine Table.ext_get? hps hkeys fun path => ?_
  cases hp : Table.get? ps path with
  | none =>
    rw [Table.get?_eq_none_iff, hkeys, ← Table.get?_eq_none_iff] at hp
    exact hp.symm
  | some item =>
    cases hq : Table.get? qs path with
    | none =>
      rw [Table.get?_eq_none_iff, ← hkeys, ← Table.get?_eq_none_iff, hp] at hq
      exact absurd hq (by simp)
    | some item' =>
      refine congrArg some (PathItem.ext_operation fun m => ?_)
      have hm := hslot path m
      rwa [slot, slot, hp, hq] at hm

end Paths

end Routebook
