import Mathlib
import Routebook.Proofs.Route.Markers

/-!
# The order of the markers

Of several markers of one route the last one in the text should count. The calls are met in another
order than that of the text, though: the last link of a chain is the outermost call, and so it comes
before the links it is written behind. **The last marker in the text counts, unless a link before it
in its chain documents the same route** (`RouteDocs.get?_ofFiles_written`): then it is the earlier
link that counts. Among statements, files and calls inside arguments the text's order is kept.
-/

namespace Routebook

open Source
open Disk (Files Path)

/-! ## The calls in the order of the text -/

mutual
/-- The calls in an expression as they are written: a call stands behind its callee, in front of its
arguments. -/
def Source.Expr.written : Expr → List Call
  | .name _ | .string _ | .number _ | .boolean _ => []
  | .template _ ss => writtenInSubstitutions ss
  | .array es => writtenInAll es
  | .object ps => writtenInProperties ps
  | .member e _ => e.written
  | .element e key => e.written ++ writtenInAll key
  | .call f as => f.written ++ [⟨f, as⟩] ++ writtenInArguments as
  | .construct f as => f.written ++ writtenInArguments as
  | .wrapped before e after => writtenInAll before ++ e.written ++ writtenInAll after
  | .other es => writtenInAll es
def Source.writtenInAll : List Expr → List Call
  | [] => []
  | e :: es => e.written ++ writtenInAll es
def Source.writtenInSubstitutions : List (String × Expr) → List Call
  | [] => []
  | (_, e) :: ss => e.written ++ writtenInSubstitutions ss
def Source.writtenInProperties : List (Property Expr) → List Call
  | [] => []
  | ⟨_, computed, value⟩ :: ps =>
    writtenInAll computed ++ value.written ++ writtenInProperties ps
def Source.writtenInArguments : List (Argument Expr) → List Call
  | [] => []
  | ⟨_, _, value⟩ :: as => value.written ++ writtenInArguments as
end

def Source.Program.written (p : Program) : List Call :=
  p.statements.flatMap fun s => writtenInAll s.parts

/-- The programs of some files, in order. A file that cannot be read has none. -/
def Source.programsIn (fs : Files) (paths : List Path) : List Program :=
  paths.filterMap fun p => (Session.readProgram fs p).toOption

/-- The calls in some files as they are written, file by file. -/
def Source.writtenInFiles (fs : Files) (paths : List Path) : List Call :=
  (programsIn fs paths).flatMap Program.written

/-! ## The last call that tells something -/

section LastSpeaker

variable {β : Type} (tells : Call → Option β)

/-- The last of some calls that tells anything. -/
def lastSpeaker? (cs : List Call) : Option Call := cs.reverse.find? fun c => (tells c).isSome

/-- A call gives way to the last speaker in its callee, which is what it is chained to, and this one
gives way in turn. -/
inductive GivesWay : Call → Call → Prop where
  | never (c : Call) (h : lastSpeaker? tells c.callee.written = none) : GivesWay c c
  | toLink (c : Call) {link d : Call} (h : lastSpeaker? tells c.callee.written = some link)
      (hlink : GivesWay link d) : GivesWay c d

/-- What the calls as they are met make of the calls as they are written: the last speaker in the
text, or a link it gives way to. -/
def Settles (met written : List Call) : Prop :=
  match lastSpeaker? tells written with
  | none => lastSpeaker? tells met = none
  | some c => ∃ d, GivesWay tells c d ∧ lastSpeaker? tells met = some d

variable {tells}

theorem lastSpeaker?_append (cs ds : List Call) :
    lastSpeaker? tells (cs ++ ds) = (lastSpeaker? tells ds).or (lastSpeaker? tells cs) := by
  rw [lastSpeaker?, List.reverse_append, List.find?_append]
  rfl

theorem lastSpeaker?_singleton (c : Call) :
    lastSpeaker? tells [c] = if (tells c).isSome then some c else none := by
  rw [lastSpeaker?, List.reverse_singleton, List.find?_singleton]

theorem lastSpeaker?_eq_none {cs : List Call} :
    lastSpeaker? tells cs = none ↔ ∀ c ∈ cs, tells c = none := by
  simp [lastSpeaker?]

/-- Who gives way to whom is a function: of two who hold a call's place, one is the other. -/
theorem GivesWay.unique {c d d' : Call} (h : GivesWay tells c d) (h' : GivesWay tells c d') :
    d = d' := by
  induction h with
  | never c hnone =>
    cases h' with
    | never _ _ => rfl
    | toLink _ hsome _ => exact absurd (hnone.symm.trans hsome) (by simp)
  | toLink c hsome _ ih =>
    cases h' with
    | never _ hnone => exact absurd (hnone.symm.trans hsome) (by simp)
    | toLink _ hsome' hlink' =>
      obtain rfl := Option.some.inj (hsome.symm.trans hsome')
      exact ih hlink'

namespace Settles

theorem of_none {met written : List Call} (hwritten : lastSpeaker? tells written = none)
    (hmet : lastSpeaker? tells met = none) : Settles tells met written := by
  rw [Settles, hwritten]
  exact hmet

theorem of_some {met written : List Call} {c d : Call}
    (hwritten : lastSpeaker? tells written = some c) (hway : GivesWay tells c d)
    (hmet : lastSpeaker? tells met = some d) : Settles tells met written := by
  rw [Settles, hwritten]
  exact ⟨d, hway, hmet⟩

theorem cases {met written : List Call} (h : Settles tells met written) :
    (lastSpeaker? tells written = none ∧ lastSpeaker? tells met = none) ∨
      ∃ c d, lastSpeaker? tells written = some c ∧ GivesWay tells c d ∧
        lastSpeaker? tells met = some d := by
  rw [Settles] at h
  cases hwritten : lastSpeaker? tells written with
  | none => exact .inl ⟨rfl, by rwa [hwritten] at h⟩
  | some c =>
    rw [hwritten] at h
    obtain ⟨d, hway, hmet⟩ := h
    exact .inr ⟨c, d, rfl, hway, hmet⟩

theorem nil : Settles tells [] [] := of_none rfl rfl

theorem append {met met' written written' : List Call} (h : Settles tells met written)
    (h' : Settles tells met' written') : Settles tells (met ++ met') (written ++ written') := by
  obtain ⟨hwritten', hmet'⟩ | ⟨c, d, hwritten', hway, hmet'⟩ := h'.cases
  · rw [Settles, lastSpeaker?_append, lastSpeaker?_append, hwritten', hmet']
    exact h
  · refine of_some ?_ hway ?_
    · rw [lastSpeaker?_append, hwritten', Option.some_or]
    · rw [lastSpeaker?_append, hmet', Option.some_or]

/-- Where the order of the text is turned around: a call is met before its callee. -/
theorem link (c : Call) (h : Settles tells c.callee.calls c.callee.written) :
    Settles tells (c :: c.callee.calls) (c.callee.written ++ [c]) := by
  have hmet : lastSpeaker? tells (c :: c.callee.calls) =
      (lastSpeaker? tells c.callee.calls).or (lastSpeaker? tells [c]) := lastSpeaker?_append [c] _
  have hwritten : lastSpeaker? tells (c.callee.written ++ [c]) =
      (lastSpeaker? tells [c]).or (lastSpeaker? tells c.callee.written) :=
    lastSpeaker?_append _ _
  rw [lastSpeaker?_singleton] at hmet hwritten
  obtain ⟨hnone, hcalls⟩ | ⟨earlier, d, hearlier, hway, hcalls⟩ := h.cases
  · rw [hnone] at hwritten
    rw [hcalls, Option.none_or] at hmet
    cases hspeaks : (tells c).isSome with
    | false =>
      rw [hspeaks] at hmet hwritten
      exact of_none hwritten hmet
    | true =>
      rw [hspeaks] at hmet hwritten
      exact of_some hwritten (.never c hnone) hmet
  · rw [hcalls, Option.some_or] at hmet
    rw [hearlier] at hwritten
    cases hspeaks : (tells c).isSome with
    | false =>
      rw [hspeaks] at hwritten
      exact of_some hwritten hway hmet
    | true =>
      rw [hspeaks] at hwritten
      exact of_some hwritten (.toLink c hearlier hway) hmet

end Settles

end LastSpeaker

/-! ## What is met against what is written -/

section Traversal

variable {β : Type} (tells : Call → Option β)

mutual
theorem settles_calls : ∀ e : Expr, Settles tells e.calls e.written
  | .name _ | .string _ | .number _ | .boolean _ => .nil
  | .template _ ss => settles_substitutionCalls ss
  | .array es => settles_callsOfAll es
  | .object ps => settles_propertyCalls ps
  | .member e _ => settles_calls e
  | .element e key => (settles_calls e).append (settles_callsOfAll key)
  | .call f as => by
    have hlink := Settles.link ⟨f, as⟩ (settles_calls f)
    simpa only [Expr.calls, Expr.written, List.cons_append] using
      hlink.append (settles_argumentCalls as)
  | .construct f as => (settles_calls f).append (settles_argumentCalls as)
  | .wrapped before e after =>
    ((settles_callsOfAll before).append (settles_calls e)).append (settles_callsOfAll after)
  | .other es => settles_callsOfAll es
theorem settles_callsOfAll : ∀ es : List Expr, Settles tells (callsOfAll es) (writtenInAll es)
  | [] => .nil
  | e :: es => (settles_calls e).append (settles_callsOfAll es)
theorem settles_substitutionCalls : ∀ ss : List (String × Expr),
    Settles tells (substitutionCalls ss) (writtenInSubstitutions ss)
  | [] => .nil
  | (_, e) :: ss => (settles_calls e).append (settles_substitutionCalls ss)
theorem settles_propertyCalls : ∀ ps : List (Property Expr),
    Settles tells (propertyCalls ps) (writtenInProperties ps)
  | [] => .nil
  | ⟨_, computed, value⟩ :: ps =>
    ((settles_callsOfAll computed).append (settles_calls value)).append (settles_propertyCalls ps)
theorem settles_argumentCalls : ∀ as : List (Argument Expr),
    Settles tells (argumentCalls as) (writtenInArguments as)
  | [] => .nil
  | ⟨_, _, value⟩ :: as => (settles_calls value).append (settles_argumentCalls as)
end

theorem settles_flatMap {α : Type} {met written : α → List Call}
    (h : ∀ a, Settles tells (met a) (written a)) (as : List α) :
    Settles tells (as.flatMap met) (as.flatMap written) := by
  induction as with
  | nil => exact .nil
  | cons a as ih =>
    rw [List.flatMap_cons, List.flatMap_cons]
    exact (h a).append ih

end Traversal

/-! ## What a call tells of a route -/

/-- Whether anything is documented: a text that is not blank, a tag, or whether the route is
deprecated. -/
def RouteDoc.Meaningful (d : RouteDoc) : Prop :=
  (∃ s, d.summary = some s ∧ Text.isAllBlank s.toList = false) ∨
    (∃ s, d.description = some s ∧ Text.isAllBlank s.toList = false) ∨
    (∃ t ts, d.tags = some (t :: ts)) ∨ ∃ b, d.deprecated = some b

theorem isNone_filter_isAllBlank (o : Option String) :
    (o.filter fun s => !Text.isAllBlank s.toList).isNone = false ↔
      ∃ s, o = some s ∧ Text.isAllBlank s.toList = false := by
  cases o with
  | none => simp
  | some s => simp [Option.filter_some]

theorem RouteDoc.meaningful_iff (d : RouteDoc) :
    d.Meaningful ↔ d.normalized.isEmpty = false := by
  obtain ⟨summary, description, tags, deprecated⟩ := d
  have htags : (tags.filter fun ts => !ts.isEmpty).isNone = false ↔
      ∃ t ts, tags = some (t :: ts) := by
    cases tags with
    | none => simp
    | some ts => cases ts <;> simp [Option.filter_some]
  have hdeprecated : deprecated.isNone = false ↔ ∃ b, deprecated = some b := by
    cases deprecated <;> simp
  simp only [Meaningful, normalized, isEmpty, Bool.and_eq_false_iff, isNone_filter_isAllBlank,
    htags, hdeprecated, or_assoc]

instance (d : RouteDoc) : Decidable d.Meaningful := decidable_of_iff _ d.meaningful_iff.symm

/-- What a call documents of a route, if it registers the route with a marker that has a meaningful
field. Blank texts and empty lists of tags are left out. -/
def Source.Call.documents? (marker : String) (r : FoundRoute) (c : Call) : Option RouteDoc :=
  (c.marker? marker).bind fun e =>
    if e.1 = r ∧ e.2.Meaningful then some e.2.normalized else none

section Documents

variable (marker : String) (r : FoundRoute)

theorem Source.Call.documents?_isSome (c : Call) :
    (c.documents? marker r).isSome =
      (c.marker? marker).any fun e => e.1 = r && !e.2.normalized.isEmpty := by
  rw [documents?]
  cases c.marker? marker with
  | none => rfl
  | some e =>
    have hmeaningful := e.2.meaningful_iff
    by_cases h : e.1 = r ∧ e.2.Meaningful
    · simp [h, hmeaningful.mp h.2]
    · rw [Option.bind_some, if_neg h, Option.any_some, eq_comm]
      simpa [hmeaningful] using h

/-- The last marker that says anything, read off the calls themselves. -/
theorem last?_filterMap_marker? (cs : List Call) :
    ((Markers.last? (cs.filterMap (Call.marker? marker)) r).map RouteDoc.normalized) =
      (lastSpeaker? (Call.documents? marker r) cs).bind (Call.documents? marker r) := by
  rw [Markers.last?, lastSpeaker?, ← List.filterMap_reverse, List.find?_filterMap]
  simp only [Call.documents?_isSome]
  cases hfind : cs.reverse.find? fun c =>
      (c.marker? marker).any fun e => e.1 = r && !e.2.normalized.isEmpty with
  | none => rfl
  | some c =>
    have hc := List.find?_some hfind
    rw [Option.any_eq_true] at hc
    obtain ⟨e, he, hsaid⟩ := hc
    rw [Bool.and_eq_true, decide_eq_true_eq, Bool.not_eq_true'] at hsaid
    rw [Option.bind_some, Option.bind_some, Call.documents?, he, Option.bind_some,
      if_pos ⟨hsaid.1, e.2.meaningful_iff.mpr hsaid.2⟩]
    rfl

end Documents

/-! ## The marker that counts -/

theorem Markers.ofFiles_eq_filterMap (fs : Files) (marker : String) (paths : List Path) :
    Markers.ofFiles fs marker paths =
      ((programsIn fs paths).flatMap Program.calls).filterMap (Call.marker? marker) := by
  rw [Markers.ofFiles, List.filterMap_flatMap]
  induction paths with
  | nil => rfl
  | cons p paths ih =>
    rw [List.flatMap_cons, ih, programsIn, programsIn, List.filterMap_cons]
    cases Session.readProgram fs p with
    | error e => rfl
    | ok program => rfl

theorem settles_writtenInFiles {β : Type} (tells : Call → Option β) (fs : Files)
    (paths : List Path) :
    Settles tells ((programsIn fs paths).flatMap Program.calls) (writtenInFiles fs paths) := by
  refine settles_flatMap tells (fun program => ?_) (programsIn fs paths)
  exact settles_flatMap tells (fun s => settles_callsOfAll tells s.parts) program.statements

theorem RouteDocs.ofFiles_filter_isOk (fs : Files) (marker : String) (paths : List Path) :
    ofFiles fs marker (paths.filter fun p => (Session.readProgram fs p).isOk) =
      ofFiles fs marker paths := by
  rw [ofFiles, ofFiles, List.foldl_filter]
  refine congrArg (fun f => paths.foldl f empty) (funext fun docs => funext fun p => ?_)
  cases Session.readProgram fs p with
  | ok program => rfl
  | error e => rfl

/-- **The last marker in the text counts, unless a link before it in its chain documents the same
route.** Without a meaningful marker nothing is known of a route. Where the last one gives way, what
counts is what the link says that it gives way to. Files that cannot be read might as well not be
listed. -/
theorem RouteDocs.get?_ofFiles_written (fs : Files) (marker : String) (paths : List Path)
    (r : FoundRoute) :
    let documents? := Call.documents? marker r
    let last? := lastSpeaker? documents? (writtenInFiles fs paths)
    (last? = none → (ofFiles fs marker paths).get? r = none) ∧
      (∀ c, last? = some c → (∀ link ∈ c.callee.written, documents? link = none) →
        (ofFiles fs marker paths).get? r = documents? c) ∧
      (∀ c, last? = some c →
        ∃ d, GivesWay documents? c d ∧ (ofFiles fs marker paths).get? r = documents? d) ∧
      ofFiles fs marker (paths.filter fun p => (Session.readProgram fs p).isOk) =
        ofFiles fs marker paths := by
  intro documents? last?
  have hget : (ofFiles fs marker paths).get? r =
      (lastSpeaker? documents? ((programsIn fs paths).flatMap Program.calls)).bind documents? := by
    rw [get?_ofFiles, Markers.ofFiles_eq_filterMap, last?_filterMap_marker?]
  have hway : ∀ c, last? = some c →
      ∃ d, GivesWay documents? c d ∧ (ofFiles fs marker paths).get? r = documents? d := by
    intro c hc
    obtain ⟨hnone, -⟩ | ⟨c', d, hc', hd, hmet⟩ :=
      (settles_writtenInFiles documents? fs paths).cases
    · exact absurd (hnone.symm.trans hc) (by simp)
    · obtain rfl := Option.some.inj (hc'.symm.trans hc)
      exact ⟨d, hd, by rw [hget, hmet, Option.bind_some]⟩
  refine ⟨fun hnone => ?_, fun c hc hlinks => ?_, hway, ofFiles_filter_isOk fs marker paths⟩
  · obtain ⟨-, hmet⟩ | ⟨c, -, hc, -⟩ := (settles_writtenInFiles documents? fs paths).cases
    · rw [hget, hmet, Option.bind_none]
    · exact absurd (hnone.symm.trans hc) (by simp)
  · obtain ⟨d, hd, hdocs⟩ := hway c hc
    rw [hdocs, hd.unique (.never c (lastSpeaker?_eq_none.mpr hlinks))]

/-! ### Nested calls, a chain and a file that cannot be read -/

section Documented

/-- One route is documented by a call and by a call inside that one, another by two links of a
chain. -/
def documentedFiles : Files :=
  ⟨[], [(["a.ts"], .file <|
      "a.get('/a',d(\x7bsummary:'1'\x7d),b.get('/a',d(\x7bsummary:'2'\x7d)));" ++
      "a.get('/b',d(\x7bsummary:'1'\x7d)).get('/b',d(\x7bsummary:'2'\x7d))"),
    (["torn.ts"], .file "a(")]⟩

def RouteDoc.summarized (s : String) : RouteDoc := { RouteDoc.empty with summary := some s }

theorem RouteDocs.get?_ofFiles_written_chain :
    let docs := ofFiles documentedFiles "d" [⟨"torn.ts"⟩, ⟨"a.ts"⟩]
    let written := writtenInFiles documentedFiles [⟨"torn.ts"⟩, ⟨"a.ts"⟩]
    let ofA? := Call.documents? "d" ⟨.get, "/a"⟩
    let ofB? := Call.documents? "d" ⟨.get, "/b"⟩
    (∃ c, lastSpeaker? ofA? written = some c ∧ ofA? c = some (.summarized "2") ∧
      docs.get? ⟨.get, "/a"⟩ = ofA? c) ∧
    (∃ c d, lastSpeaker? ofB? written = some c ∧ ofB? c = some (.summarized "2") ∧
      GivesWay ofB? c d ∧ docs.get? ⟨.get, "/b"⟩ = ofB? d ∧ ofB? d = some (.summarized "1")) ∧
    ofFiles documentedFiles "d" [⟨"a.ts"⟩] = docs := by
  intro docs written ofA? ofB?
  -- One evaluation for all that is read off the files.
  obtain ⟨hlast, hsecond, hfirst, hread⟩ :
      ((lastSpeaker? ofA? written).any fun c => decide (ofA? c = some (.summarized "2")) &&
        c.callee.written.all fun link => ofA? link = none) = true ∧
      (lastSpeaker? ofB? written).bind ofB? = some (.summarized "2") ∧
      docs.get? ⟨.get, "/b"⟩ = some (.summarized "1") ∧
      [⟨"torn.ts"⟩, ⟨"a.ts"⟩].filter (fun p => (Session.readProgram documentedFiles p).isOk) =
        [⟨"a.ts"⟩] := by
    decide +kernel
  have hall := get?_ofFiles_written documentedFiles "d" [⟨"torn.ts"⟩, ⟨"a.ts"⟩]
  refine ⟨?_, ?_, ?_⟩
  · obtain ⟨c, hc, hlast⟩ := Option.any_eq_true _ _ |>.mp hlast
    rw [Bool.and_eq_true, decide_eq_true_eq, List.all_eq_true] at hlast
    exact ⟨c, hc, hlast.1, (hall ⟨.get, "/a"⟩).2.1 c hc fun link hlink =>
      of_decide_eq_true (hlast.2 link hlink)⟩
  · obtain ⟨c, hc, hdoc⟩ := Option.bind_eq_some_iff.mp hsecond
    obtain ⟨d, hway, hget⟩ := (hall ⟨.get, "/b"⟩).2.2.1 c hc
    exact ⟨c, d, hc, hdoc, hway, hget, hget.symm.trans hfirst⟩
  · have hfilter := (hall ⟨.get, "/a"⟩).2.2.2
    rw [hread] at hfilter
    exact hfilter

end Documented

end Routebook
