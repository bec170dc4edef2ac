import Routebook.TypeExpr.Basic

/-!
# What a substitution changes

A substitution looks for references without arguments, and at nothing of them but their names
(`TypeExpr.bare`). So **two substitutions do the same to a type exactly if they do the same to these
references** (`substitute_eq_substitute_iff`), and one leaves it as it is exactly if none of the
names is bound to anything but itself (`substitute_eq_self_iff`): it does not matter whose names
they are, nor in what scope they stand. The references of the result are those of what is put in
their places (`bare_substitute`).

A replacement is not looked into again by the substitution that puts it there, but it is by the
next one. So **two substitutions one after the other are one** (`substitute_substitute`), which
puts in the place of a name what the second makes of what the first puts there.
-/

namespace Routebook

/-- A member with its type substituted. -/
def Member.substitute {σ : Type} (b : TypeExpr.Bindings σ) (x : Member (TypeExpr σ)) :
    Member (TypeExpr σ) := ⟨x.name, x.optional, x.type.substitute b⟩

namespace TypeExpr

variable {σ : Type} {b b' : Bindings σ}

mutual
/-- The references without arguments in a type, with their scopes. -/
def bare : TypeExpr σ → List (String × σ)
  | array t => t.bare
  | tuple ts | union ts | intersection ts | imported _ _ ts _ => bareOfList ts
  | object ms => bareOfMembers ms
  | reference n [] a => [(n, a)]
  | reference _ (t :: ts) _ => t.bare ++ bareOfList ts
  | keyword _ | literal _ | query .. | other _ => []
def bareOfList : List (TypeExpr σ) → List (String × σ)
  | [] => []
  | t :: ts => t.bare ++ bareOfList ts
def bareOfMembers : List (Member (TypeExpr σ)) → List (String × σ)
  | [] => []
  | ⟨_, _, t⟩ :: ms => t.bare ++ bareOfMembers ms
end

/-- What a substitution puts in the place of a reference without arguments. -/
def stand (b : Bindings σ) (r : String × σ) : TypeExpr σ := (b r.1).getD (.reference r.1 [] r.2)

/-- Whether a substitution puts another type in the place of a reference. -/
def Replaces (b : Bindings σ) (r : String × σ) : Prop :=
  ∃ t, b r.1 = some t ∧ t ≠ .reference r.1 [] r.2

/-- Whether a substitution would replace a reference of a type. -/
def Captured (b : Bindings σ) (t : TypeExpr σ) : Prop := ∃ r ∈ t.bare, Replaces b r

theorem stand_eq_reference_iff {r : String × σ} :
    stand b r = .reference r.1 [] r.2 ↔ ¬ Replaces b r := by
  rw [stand, Replaces]
  cases b r.1 with
  | none => simp
  | some t => simp

/-! ## Two substitutions -/

mutual
/-- **Two substitutions do the same to a type exactly if they put the same in the place of each of
its references without arguments.** -/
theorem substitute_eq_substitute_iff : ∀ t : TypeExpr σ,
    t.substitute b = t.substitute b' ↔ ∀ r ∈ t.bare, stand b r = stand b' r
  | keyword _ | literal _ | query .. | other _ => by simp [substitute, bare]
  | array t => by simpa [substitute, bare] using substitute_eq_substitute_iff t
  | tuple ts => by simpa [substitute, bare] using substituteList_eq_substituteList_iff ts
  | union ts => by simpa [substitute, bare] using substituteList_eq_substituteList_iff ts
  | intersection ts => by simpa [substitute, bare] using substituteList_eq_substituteList_iff ts
  | imported _ _ ts _ => by simpa [substitute, bare] using substituteList_eq_substituteList_iff ts
  | object ms => by simpa [substitute, bare] using substituteMembers_eq_substituteMembers_iff ms
  | reference n [] a => by simp [substitute, bare, stand]
  | reference n (t :: ts) a => by
    have hargs := substituteList_eq_substituteList_iff (t :: ts)
    rw [substituteList, substituteList, bareOfList] at hargs
    simpa [substitute, bare] using hargs
theorem substituteList_eq_substituteList_iff : ∀ ts : List (TypeExpr σ),
    substituteList b ts = substituteList b' ts ↔ ∀ r ∈ bareOfList ts, stand b r = stand b' r
  | [] => by simp [substituteList, bareOfList]
  | t :: ts => by
    rw [substituteList, substituteList, bareOfList, List.cons.injEq,
      substitute_eq_substitute_iff t, substituteList_eq_substituteList_iff ts,
      List.forall_mem_append]
theorem substituteMembers_eq_substituteMembers_iff : ∀ ms : List (Member (TypeExpr σ)),
    substituteMembers b ms = substituteMembers b' ms ↔
      ∀ r ∈ bareOfMembers ms, stand b r = stand b' r
  | [] => by simp [substituteMembers, bareOfMembers]
  | ⟨n, o, t⟩ :: ms => by
    rw [substituteMembers, substituteMembers, bareOfMembers, List.cons.injEq, Member.mk.injEq,
      substitute_eq_substitute_iff t, substituteMembers_eq_substituteMembers_iff ms,
      List.forall_mem_append]
    simp
end

mutual
/-- Nothing is changed where nothing is bound. -/
theorem substitute_unbound : ∀ t : TypeExpr σ, t.substitute (fun _ => none) = t
  | keyword _ | literal _ | query .. | other _ => rfl
  | array t => by rw [substitute, substitute_unbound t]
  | tuple ts => by rw [substitute, substituteList_unbound ts]
  | union ts => by rw [substitute, substituteList_unbound ts]
  | intersection ts => by rw [substitute, substituteList_unbound ts]
  | imported _ _ ts _ => by rw [substitute, substituteList_unbound ts]
  | object ms => by rw [substitute, substituteMembers_unbound ms]
  | reference _ [] _ => rfl
  | reference _ (t :: ts) _ => by rw [substitute, substitute_unbound t, substituteList_unbound ts]
theorem substituteList_unbound :
    ∀ ts : List (TypeExpr σ), substituteList (fun _ => none) ts = ts
  | [] => rfl
  | t :: ts => by rw [substituteList, substitute_unbound t, substituteList_unbound ts]
theorem substituteMembers_unbound :
    ∀ ms : List (Member (TypeExpr σ)), substituteMembers (fun _ => none) ms = ms
  | [] => rfl
  | ⟨_, _, t⟩ :: ms => by
    rw [substituteMembers, substitute_unbound t, substituteMembers_unbound ms]
end

/-- **A substitution leaves a type as it is unless it captures a reference of it.** -/
theorem substitute_eq_self_iff {t : TypeExpr σ} : t.substitute b = t ↔ ¬ Captured b t := by
  have hself : t.substitute b = t.substitute (fun _ => none) ↔ _ := substitute_eq_substitute_iff t
  rw [substitute_unbound t] at hself
  refine hself.trans ⟨?_, fun h r hr => ?_⟩
  · rintro h ⟨r, hr, hreplaces⟩
    exact stand_eq_reference_iff.mp (h r hr) hreplaces
  · exact stand_eq_reference_iff.mpr fun hreplaces => h ⟨r, hr, hreplaces⟩

mutual
/-- The references without arguments after a substitution are those of what it puts in their
places. -/
theorem bare_substitute : ∀ t : TypeExpr σ,
    (t.substitute b).bare = t.bare.flatMap fun r => (stand b r).bare
  | keyword _ | literal _ | query .. | other _ => rfl
  | array t => by simpa [substitute, bare] using bare_substitute t
  | tuple ts => by simpa [substitute, bare] using bareOfList_substituteList ts
  | union ts => by simpa [substitute, bare] using bareOfList_substituteList ts
  | intersection ts => by simpa [substitute, bare] using bareOfList_substituteList ts
  | imported _ _ ts _ => by simpa [substitute, bare] using bareOfList_substituteList ts
  | object ms => by simpa [substitute, bare] using bareOfMembers_substituteMembers ms
  | reference n [] a => by simp [substitute, bare, stand]
  | reference _ (t :: ts) _ => by
    rw [substitute, bare, bare, List.flatMap_append, bare_substitute t,
      bareOfList_substituteList ts]
theorem bareOfList_substituteList : ∀ ts : List (TypeExpr σ),
    bareOfList (substituteList b ts) = (bareOfList ts).flatMap fun r => (stand b r).bare
  | [] => rfl
  | t :: ts => by
    rw [substituteList, bareOfList, bareOfList, List.flatMap_append, bare_substitute t,
      bareOfList_substituteList ts]
theorem bareOfMembers_substituteMembers : ∀ ms : List (Member (TypeExpr σ)),
    bareOfMembers (substituteMembers b ms) = (bareOfMembers ms).flatMap fun r => (stand b r).bare
  | [] => rfl
  | ⟨_, _, t⟩ :: ms => by
    rw [substituteMembers, bareOfMembers, bareOfMembers, List.flatMap_append, bare_substitute t,
      bareOfMembers_substituteMembers ms]
end

/-! ## One after another -/

/-- One set of bindings after another. What the first binds a name to is substituted by the second,
which binds the other names. -/
def Bindings.andThen (s r : Bindings σ) : Bindings σ := fun n =>
  match s n with
  | some t => some (t.substitute r)
  | none => r n

theorem stand_andThen (s r : Bindings σ) (x : String × σ) :
    stand (s.andThen r) x = (stand s x).substitute r := by
  rw [stand, stand, Bindings.andThen]
  cases s x.1 <;> rfl

mutual
theorem substitute_substitute (s r : Bindings σ) : ∀ t : TypeExpr σ,
    (t.substitute s).substitute r = t.substitute (s.andThen r)
  | keyword _ | literal _ | query .. | other _ => rfl
  | array t => by
    rw [substitute, substitute, substitute, substitute_substitute s r t]
  | tuple ts => by
    rw [substitute, substitute, substitute, substituteList_substituteList s r ts]
  | union ts => by
    rw [substitute, substitute, substitute, substituteList_substituteList s r ts]
  | intersection ts => by
    rw [substitute, substitute, substitute, substituteList_substituteList s r ts]
  | imported _ _ ts _ => by
    rw [substitute, substitute, substitute, substituteList_substituteList s r ts]
  | object ms => by
    rw [substitute, substitute, substitute, substituteMembers_substituteMembers s r ms]
  -- What the first puts in the place of a name is what the second gets to see.
  | reference n [] a => (stand_andThen s r (n, a)).symm
  | reference _ (t :: ts) _ => by
    rw [substitute, substitute, substitute, substitute_substitute s r t,
      substituteList_substituteList s r ts]
theorem substituteList_substituteList (s r : Bindings σ) : ∀ ts : List (TypeExpr σ),
    substituteList r (substituteList s ts) = substituteList (s.andThen r) ts
  | [] => rfl
  | t :: ts => by
    rw [substituteList, substituteList, substituteList, substitute_substitute s r t,
      substituteList_substituteList s r ts]
theorem substituteMembers_substituteMembers (s r : Bindings σ) :
    ∀ ms : List (Member (TypeExpr σ)),
      substituteMembers r (substituteMembers s ms) = substituteMembers (s.andThen r) ms
  | [] => rfl
  | ⟨_, _, t⟩ :: ms => by
    rw [substituteMembers, substituteMembers, substituteMembers, substitute_substitute s r t,
      substituteMembers_substituteMembers s r ms]
end

/-- **Substitutions compose, and look at no names but those of references without arguments.** Where
nothing is bound, nothing is changed, so that such a substitution can be left out. -/
theorem substitutions_compose :
    (∀ (t : TypeExpr σ) (s r : Bindings σ),
      (t.substitute s).substitute r = t.substitute (s.andThen r)) ∧
      (∀ (t : TypeExpr σ) (s s' : Bindings σ), (∀ x ∈ t.bare, s x.1 = s' x.1) →
        t.substitute s = t.substitute s') ∧
      ∀ t : TypeExpr σ, t.substitute (fun _ => none) = t := by
  refine ⟨fun t s r => substitute_substitute s r t, fun t s s' h => ?_, substitute_unbound⟩
  exact (substitute_eq_substitute_iff t).mpr fun x hx => by rw [stand, stand, h x hx]

/-- Only `T` stands without arguments in `Box<T>[]`, so it does not matter what `Box` is bound to.
What `T` is bound to is substituted in turn. -/
theorem substitutions_compose_box :
    let box : TypeExpr Nat := array (reference "Box" [reference "T" [] 0] 0)
    let s : Bindings Nat := fun n => if n = "T" then some (reference "U" [] 1) else none
    let s' : Bindings Nat := fun n => if n = "Box" then some (keyword .never) else s n
    let r : Bindings Nat := fun n => if n = "U" then some (keyword .string) else none
    (∀ x ∈ box.bare, s x.1 = s' x.1) ∧ box.substitute s = box.substitute s' ∧
      (box.substitute s').substitute r = array (reference "Box" [keyword .string] 0) := by
  intro box s s' r
  have hbare : ∀ x ∈ box.bare, s x.1 = s' x.1 := by simp [box, s, s', bare, bareOfList]
  obtain ⟨hcompose, hcongr, -⟩ := @substitutions_compose Nat
  have hs := hcongr box s s' hbare
  refine ⟨hbare, hs, ?_⟩
  rw [← hs, hcompose]
  rfl

end TypeExpr

end Routebook
