import Mathlib
import Routebook.Proofs.Merge.Manual
import Routebook.Proofs.Session.Analysis
import Routebook.Proofs.Table

/-!
# What a scan of the source finds

`Expr.calls` goes through a syntax tree from the outside in, and `Program.routes` sorts what it
finds and drops repetitions. Neither the way through the tree nor the sorting shows in the result.
**A route is found if and only if a call that registers it occurs in the tree**, at whatever depth
and in whatever kind of expression; each is found once; and they stand in the order in which their
paths are first written (`Program.routes_of_registrations`).
-/

namespace Routebook.Source

/-! ## What occurs in a tree -/

namespace Expr

/-- The expressions that an expression is put together from. -/
def parts : Expr → List Expr
  | .name _ | .string _ | .number _ | .boolean _ => []
  | .template _ ss => ss.map Prod.snd
  | .array es => es
  | .object ps => ps.flatMap fun p => p.computed ++ [p.value]
  | .member e _ => [e]
  | .element e key => e :: key
  | .call f as => f :: as.map Argument.value
  | .construct f as => f :: as.map Argument.value
  | .wrapped before e after => before ++ e :: after
  | .other es => es

/-- An expression is another one, or a part of it, or a part of a part, and so on. -/
inductive OccursIn (e : Expr) : Expr → Prop where
  | itself : OccursIn e e
  | part {f g : Expr} (h : OccursIn e f) (hf : f ∈ g.parts) : OccursIn e g

theorem callsOfAll_eq_flatMap (es : List Expr) : callsOfAll es = es.flatMap calls := by
  induction es with
  | nil => rfl
  | cons e es ih => rw [callsOfAll, ih, List.flatMap_cons]

theorem substitutionCalls_eq_flatMap (ss : List (String × Expr)) :
    substitutionCalls ss = (ss.map Prod.snd).flatMap calls := by
  induction ss with
  | nil => rfl
  | cons s ss ih => rw [substitutionCalls, ih, List.map_cons, List.flatMap_cons]

theorem propertyCalls_eq_flatMap (ps : List (Property Expr)) :
    propertyCalls ps = (ps.flatMap fun p => p.computed ++ [p.value]).flatMap calls := by
  induction ps with
  | nil => rfl
  | cons p ps ih =>
    rw [propertyCalls, ih, callsOfAll_eq_flatMap, List.flatMap_cons, List.flatMap_append,
      List.flatMap_append, List.flatMap_singleton]

theorem argumentCalls_eq_flatMap (as : List (Argument Expr)) :
    argumentCalls as = (as.map Argument.value).flatMap calls := by
  induction as with
  | nil => rfl
  | cons a as ih => rw [argumentCalls, ih, List.map_cons, List.flatMap_cons]

/-- What is met in an expression: itself, if it is a call, and what is met in its parts. -/
theorem mem_calls_iff_parts {e : Expr} {c : Call} :
    c ∈ e.calls ↔ e = .call c.callee c.args ∨ ∃ f ∈ e.parts, c ∈ f.calls := by
  rw [← List.mem_flatMap]
  cases e with
  | call f as =>
    obtain ⟨callee, args⟩ := c
    simp [calls, parts, argumentCalls_eq_flatMap, eq_comm]
  | _ =>
    simp [calls, parts, callsOfAll_eq_flatMap, substitutionCalls_eq_flatMap,
      propertyCalls_eq_flatMap, argumentCalls_eq_flatMap]

theorem sizeOf_lt_of_mem_map {α β : Type} [SizeOf α] [SizeOf β] {g : α → β} {as : List α} {b : β}
    (hg : ∀ a, sizeOf (g a) < sizeOf a) (h : b ∈ as.map g) : sizeOf b < sizeOf as := by
  obtain ⟨a, ha, rfl⟩ := List.mem_map.mp h
  exact (hg a).trans (List.sizeOf_lt_of_mem ha)

theorem sizeOf_value_lt (a : Argument Expr) : sizeOf a.value < sizeOf a := by
  cases a
  simp only [Argument.mk.sizeOf_spec]
  omega

theorem sizeOf_lt_of_mem_property {p : Property Expr} {f : Expr}
    (h : f ∈ p.computed ++ [p.value]) : sizeOf f < sizeOf p := by
  obtain ⟨name, computed, value⟩ := p
  simp only [Property.mk.sizeOf_spec]
  rcases List.mem_append.mp h with h | h
  · have hlist : sizeOf f < sizeOf computed := List.sizeOf_lt_of_mem h
    omega
  · obtain rfl := List.mem_singleton.mp h
    omega

theorem sizeOf_lt_of_mem_parts {e f : Expr} (h : f ∈ e.parts) : sizeOf f < sizeOf e := by
  cases e with
  | name _ | string _ | number _ | boolean _ => exact absurd h List.not_mem_nil
  | template _ ss =>
    have hlist := sizeOf_lt_of_mem_map (fun s => by cases s; simp) h
    simp only [template.sizeOf_spec]
    omega
  | array es | other es =>
    have hlist : sizeOf f < sizeOf es := List.sizeOf_lt_of_mem h
    simp only [array.sizeOf_spec, other.sizeOf_spec]
    omega
  | object ps =>
    obtain ⟨p, hp, hf⟩ := List.mem_flatMap.mp h
    have hlist := (sizeOf_lt_of_mem_property hf).trans (List.sizeOf_lt_of_mem hp)
    simp only [object.sizeOf_spec]
    omega
  | member owner _ =>
    obtain rfl := List.mem_singleton.mp h
    simp only [member.sizeOf_spec]
    omega
  | element owner key =>
    have hlist : sizeOf f < sizeOf (owner :: key) := List.sizeOf_lt_of_mem h
    simpa only [element.sizeOf_spec, List.cons.sizeOf_spec] using hlist
  | call callee as | construct callee as =>
    simp only [call.sizeOf_spec, construct.sizeOf_spec]
    obtain rfl | hf := List.mem_cons.mp h
    · omega
    · have hlist := sizeOf_lt_of_mem_map sizeOf_value_lt hf
      omega
  | wrapped before inside after =>
    simp only [wrapped.sizeOf_spec]
    rcases List.mem_append.mp h with hf | hf
    · have hlist := List.sizeOf_lt_of_mem hf
      omega
    · have hlist := List.sizeOf_lt_of_mem hf
      simp only [List.cons.sizeOf_spec] at hlist
      omega

/-- **The calls that are met are the calls that occur.** -/
theorem mem_calls_iff {e : Expr} {c : Call} :
    c ∈ e.calls ↔ (Expr.call c.callee c.args).OccursIn e := by
  constructor
  · intro h
    induction hsize : sizeOf e using Nat.strong_induction_on generalizing e with
    | h n ih =>
      obtain rfl | ⟨f, hf, hc⟩ := mem_calls_iff_parts.mp h
      · exact .itself
      · exact .part (ih _ (hsize ▸ sizeOf_lt_of_mem_parts hf) hc rfl) hf
  · intro h
    induction h with
    | itself => exact mem_calls_iff_parts.mpr (.inl rfl)
    | part _ hf ih => exact mem_calls_iff_parts.mpr (.inr ⟨_, hf, ih⟩)

/-! ## What a call registers -/

/-- Around an expression stand parentheses, casts and assertions, or nothing. -/
inductive Wraps : Expr → Expr → Prop where
  | nothing (e : Expr) : Wraps e e
  | wrapped (before after : List Expr) {e f : Expr} (h : Wraps e f) :
      Wraps (.wrapped before e after) f

/-- A string literal with this text or a template with nothing else in it, in whatever parentheses
and casts. -/
def Spells (e : Expr) (text : String) : Prop :=
  e.Wraps (.string text) ∨ e.Wraps (.template [text] [])

theorem inner_eq_member_iff {e owner : Expr} {property : String} :
    e.inner = .member owner property ↔ e.Wraps (.member owner property) := by
  constructor
  · intro h
    fun_induction inner e with
    | case1 before e after ih => exact .wrapped before after (ih h)
    | case2 e _ => exact h ▸ .nothing e
  · intro h
    generalize hf : Expr.member owner property = f at h
    induction h with
    | nothing e => rw [← hf, inner]; exact fun _ _ _ h => nomatch h
    | wrapped before after _ ih => rw [inner, ih hf]

theorem text?_eq_some_iff {e : Expr} {text : String} : e.text? = some text ↔ e.Spells text := by
  constructor
  · intro h
    fun_induction text? e with
    | case1 s => exact .inl (Option.some.inj h ▸ .nothing _)
    | case2 s => exact .inr (Option.some.inj h ▸ .nothing _)
    | case3 before e after ih =>
      exact (ih h).imp (.wrapped before after) (.wrapped before after)
    | case4 => cases h
  · have hwraps : ∀ f : Expr, e.Wraps f → f.text? = some text → e.text? = some text := by
      intro f h hf
      induction h with
      | nothing e => exact hf
      | wrapped before after _ ih => rw [text?, ih hf]
    rintro (h | h)
    · exact hwraps _ h rfl
    · exact hwraps _ h rfl

end Expr

/-- A call registers a route with the path written at a place: it calls the member named like the
method, and its first argument is the path. -/
structure Call.RegistersAt (c : Call) (r : FoundRoute) (place : Nat) : Prop where
  callee : ∃ owner, c.callee.Wraps (.member owner r.method.lower)
  path : ∃ value, c.args.head? = some ⟨place, false, value⟩ ∧ value.Spells r.path
  rooted : r.path.toList.head? = some '/' ∨ r.path.toList.head? = some '*'

theorem Call.registersAt_iff {c : Call} {r : FoundRoute} {place : Nat} :
    c.RegistersAt r place ↔ c.route? = some r ∧ c.position = place := by
  constructor
  · rintro ⟨⟨owner, hcallee⟩, ⟨value, hargs, hspells⟩, hrooted⟩
    have hroute : c.route? = some r := by
      simp [route?, Expr.inner_eq_member_iff.mpr hcallee, Method.ofLower?_lower, firstArgument?,
        hargs, Option.filter_some, Expr.text?_eq_some_iff.mpr hspells, hrooted]
    exact ⟨hroute, by simp [position, hargs]⟩
  · rintro ⟨hroute, rfl⟩
    rw [route?] at hroute
    split at hroute
    next owner property hcallee =>
      obtain ⟨m, hm, hroute⟩ := Option.bind_eq_some_iff.mp hroute
      obtain ⟨a, ha, hroute⟩ := Option.bind_eq_some_iff.mp hroute
      obtain ⟨text, htext, hroute⟩ := Option.bind_eq_some_iff.mp hroute
      obtain ⟨_, hrooted, hroute⟩ := Option.bind_eq_some_iff.mp hroute
      obtain rfl := Option.some.inj hroute
      obtain rfl := Method.ofLower?_eq_some.mp hm
      obtain ⟨hargs, hspread⟩ := Option.filter_eq_some_iff.mp ha
      obtain ⟨start, spread, value⟩ := a
      obtain rfl : spread = false := by simpa using hspread
      have hplace : c.position = start := by simp [position, hargs]
      refine ⟨⟨owner, Expr.inner_eq_member_iff.mp hcallee⟩,
        ⟨value, hplace ▸ hargs, Expr.text?_eq_some_iff.mp htext⟩, by_contra fun h => ?_⟩
      simp [guard, if_neg h] at hrooted
    next => cases hroute

/-- Somewhere in a file a route is registered, with the path written at a place. -/
def Program.RegistersAt (p : Program) (r : FoundRoute) (place : Nat) : Prop :=
  ∃ s ∈ p.statements, ∃ e ∈ s.parts, ∃ c : Call,
    (Expr.call c.callee c.args).OccursIn e ∧ c.RegistersAt r place

/-- The place of a route is the first at which it is registered. -/
def Program.FirstAt (p : Program) (r : FoundRoute) (place : Nat) : Prop :=
  IsLeast {n | p.RegistersAt r n} place

/-! ## From the calls to the routes -/

/-- The routes that calls register, in the order in which the calls are met. -/
def Program.found (p : Program) : List (Nat × FoundRoute) :=
  p.calls.filterMap fun c => c.route?.map fun r => (c.position, r)

theorem Program.mem_found_iff {p : Program} {r : FoundRoute} {place : Nat} :
    (place, r) ∈ p.found ↔ p.RegistersAt r place := by
  have hcall : ∀ c : Call, (c.route?.map fun r => (c.position, r)) = some (place, r) ↔
      c.RegistersAt r place := by
    intro c
    rw [Call.registersAt_iff]
    simp [and_comm]
  simp only [found, calls, List.mem_filterMap, hcall, List.mem_flatMap,
    Expr.callsOfAll_eq_flatMap, Expr.mem_calls_iff, RegistersAt]
  grind

/-- In a list in order, whatever stands behind an element for the first time is nowhere in front of
it. -/
theorem pairwise_firstOccurrences {α : Type} [DecidableEq α] {l : List (Nat × α)}
    (h : l.Pairwise fun x y => x.1 ≤ y.1) (seen : List α) :
    (firstOccurrences seen (l.map Prod.snd)).Pairwise fun a b =>
      ∀ m, (m, b) ∈ l → ∃ n ≤ m, (n, a) ∈ l := by
  induction l generalizing seen with
  | nil => exact .nil
  | cons x l ih =>
    obtain ⟨n, a⟩ := x
    obtain ⟨hle, hl⟩ := List.pairwise_cons.mp h
    -- What comes later differs from this element, so its places are places in the rest.
    have hrest : ∀ seen : List α, a ∈ seen →
        (firstOccurrences seen (l.map Prod.snd)).Pairwise fun b c =>
          ∀ m, (m, c) ∈ (n, a) :: l → ∃ n' ≤ m, (n', b) ∈ (n, a) :: l := by
      intro seen ha
      refine (ih hl seen).imp_of_mem fun {b c} _ hc hbc m hm => ?_
      obtain heq | hm := List.mem_cons.mp hm
      · obtain rfl := (Prod.mk.inj heq).2
        exact absurd ha (mem_firstOccurrences.mp hc).2
      · obtain ⟨n', hn', hb⟩ := hbc m hm
        exact ⟨n', hn', List.mem_cons_of_mem _ hb⟩
    rw [List.map_cons, firstOccurrences]
    split
    next ha => exact hrest seen ha
    next ha =>
      refine .cons (fun b _ m hm => ⟨n, ?_, List.mem_cons_self⟩)
        (hrest (a :: seen) List.mem_cons_self)
      obtain heq | hm := List.mem_cons.mp hm
      · exact (Prod.mk.inj heq).1.ge
      · exact hle _ hm

theorem Program.mem_routes_iff {p : Program} {r : FoundRoute} :
    r ∈ p.routes ↔ ∃ place, p.RegistersAt r place := by
  rw [routes, mem_firstOccurrences, List.mem_map]
  simp only [List.mem_mergeSort, ← mem_found_iff, List.not_mem_nil, not_false_eq_true, and_true]
  exact ⟨fun ⟨⟨n, _⟩, h, rfl⟩ => ⟨n, h⟩, fun ⟨n, h⟩ => ⟨(n, r), h, rfl⟩⟩

theorem Program.nodup_routes (p : Program) : p.routes.Nodup := nodup_firstOccurrences ..

/-- One route is first registered where another one is, or before it. -/
def Program.NoLater (p : Program) (r q : FoundRoute) : Prop :=
  ∃ n m, p.FirstAt r n ∧ p.FirstAt q m ∧ n ≤ m

theorem Program.exists_firstAt {p : Program} {r : FoundRoute} (h : ∃ n, p.RegistersAt r n) :
    ∃ n, p.FirstAt r n := by
  classical
  exact ⟨Nat.find h, Nat.find_spec h, fun _ hn => Nat.find_min' h hn⟩

theorem Program.NoLater.of_registersAt {p : Program} {r q : FoundRoute}
    (hq : ∃ m, p.RegistersAt q m) (h : ∀ m, p.RegistersAt q m → ∃ n ≤ m, p.RegistersAt r n) :
    p.NoLater r q := by
  obtain ⟨m, hm⟩ := exists_firstAt hq
  obtain ⟨n', hn', hplace⟩ := h m hm.1
  obtain ⟨n, hn⟩ := exists_firstAt ⟨n', hplace⟩
  exact ⟨n, m, hn, hm, (hn.2 hplace).trans hn'⟩

theorem Program.pairwise_routes (p : Program) : p.routes.Pairwise p.NoLater := by
  let le (a b : Nat × FoundRoute) : Bool := decide (a.1 ≤ b.1)
  have htrans : ∀ a b c, le a b = true → le b c = true → le a c = true := by
    intro a b c
    simp only [le, decide_eq_true_eq]
    omega
  have htotal : ∀ a b, (le a b || le b a) = true := by
    intro a b
    simp only [le, Bool.or_eq_true, decide_eq_true_eq]
    omega
  have hsorted : (p.found.mergeSort le).Pairwise fun x y => x.1 ≤ y.1 := by
    simpa [le] using List.pairwise_mergeSort htrans htotal p.found
  refine (pairwise_firstOccurrences hsorted []).imp_of_mem fun {r q} _ hq hrq => ?_
  simp only [List.mem_mergeSort, mem_found_iff] at hrq
  exact .of_registersAt (mem_routes_iff.mp hq) hrq

/-- **A scan finds exactly the routes that calls in the file register**, wherever in the file they
stand, each once, and in the order in which their paths are first written. Where no two routes are
written at one place, this leaves no choice: how the calls are met does not matter. -/
theorem Program.routes_of_registrations (p : Program) :
    (∀ r, r ∈ p.routes ↔ ∃ place, p.RegistersAt r place) ∧
      p.routes.Nodup ∧
      p.routes.Pairwise p.NoLater ∧
      ((∀ r q place, p.RegistersAt r place → p.RegistersAt q place → r = q) →
        ∀ rs : List FoundRoute, (∀ r, r ∈ rs ↔ ∃ place, p.RegistersAt r place) → rs.Nodup →
          rs.Pairwise p.NoLater → rs = p.routes) := by
  refine ⟨fun r => mem_routes_iff, p.nodup_routes, p.pairwise_routes, ?_⟩
  intro hplaces rs hmem hnodup hordered
  have hperm : rs.Perm p.routes :=
    (List.perm_ext_iff_of_nodup hnodup p.nodup_routes).mpr fun r => by
      rw [hmem, mem_routes_iff]
  refine hperm.eq_of_pairwise (fun r q _ _ hrq hqr => ?_) hordered p.pairwise_routes
  obtain ⟨n, m, hn, hm, hle⟩ := hrq
  obtain ⟨m', n', hm', hn', hle'⟩ := hqr
  obtain rfl := hn.unique hn'
  obtain rfl := hm.unique hm'
  obtain rfl := le_antisymm hle hle'
  exact hplaces r q n hn.1 hm.1

/-- A chain whose links are met last to first, a call in an argument, a cast, a method of a class
and a route that is registered twice. -/
def registeringFiles : Disk.Files :=
  ⟨[], [(["a.ts"], .file <|
      "new Hono().get('/a',wrap(b.post(('/b' as string),h))).put('/c',h).get('/a',h);" ++
      "class K \x7b m() \x7b app.patch(`*`,h); map.get('key') \x7d \x7d")]⟩

theorem Program.routes_of_registrations_chain :
    ∃ p, Session.readProgram registeringFiles ⟨"a.ts"⟩ = .ok p ∧
      (∀ r q place, p.RegistersAt r place → p.RegistersAt q place → r = q) ∧
      p.routes = [⟨.get, "/a"⟩, ⟨.post, "/b"⟩, ⟨.put, "/c"⟩, ⟨.patch, "*"⟩] := by
  let rs : List FoundRoute := [⟨.get, "/a"⟩, ⟨.post, "/b"⟩, ⟨.put, "/c"⟩, ⟨.patch, "*"⟩]
  let found : List (Nat × FoundRoute) := [(70, ⟨.get, "/a"⟩), (58, ⟨.put, "/c"⟩),
    (15, ⟨.get, "/a"⟩), (32, ⟨.post, "/b"⟩), (104, ⟨.patch, "*"⟩)]
  have hread : (Session.readProgram registeringFiles ⟨"a.ts"⟩).toOption.map Program.found =
      some found := by
    decide +kernel
  obtain ⟨p, hp, hfound⟩ := Session.exists_program_of_map hread
  have hregisters : ∀ r n, p.RegistersAt r n ↔ (n, r) ∈ found := by
    intro r n
    rw [← mem_found_iff, hfound]
  have hplaces : ∀ r q place, p.RegistersAt r place → p.RegistersAt q place → r = q := by
    have htold : ∀ x ∈ found, ∀ y ∈ found, x.1 = y.1 → x.2 = y.2 := by decide
    intro r q place hr hq
    exact htold _ ((hregisters r place).mp hr) _ ((hregisters q place).mp hq) rfl
  have hmem : ∀ r, r ∈ rs ↔ ∃ place, p.RegistersAt r place := by
    intro r
    simp only [hregisters, rs, found, List.mem_cons, List.not_mem_nil, Prod.mk.injEq, or_false]
    grind
  have hordered : rs.Pairwise p.NoLater := by
    have hfirst : rs.Pairwise fun r q =>
        ∀ y ∈ found, y.2 = q → ∃ x ∈ found, x.2 = r ∧ x.1 ≤ y.1 := by
      decide
    refine hfirst.imp_of_mem fun {r q} _ hq h => .of_registersAt ((hmem q).mp hq) fun m hm => ?_
    obtain ⟨x, hx, rfl, hle⟩ := h _ ((hregisters q m).mp hm) rfl
    exact ⟨x.1, hle, (hregisters x.2 x.1).mpr hx⟩
  exact ⟨p, hp, hplaces,
    (p.routes_of_registrations.2.2.2 hplaces rs hmem (by decide) hordered).symm⟩

end Routebook.Source
