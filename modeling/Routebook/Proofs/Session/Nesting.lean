import Routebook.Proofs.Session.Termination

/-!
# How deep interfaces are nested

While the parents of an interface are resolved, the interface is on the list of those that are being
expanded, and a type that is met there may put another one on it. **The list never has an entry
twice, and every call leaves it as it was** (`expansion_ends`). So interfaces are nested no deeper
than there are entries for them.

An entry is a module and the name by which the interface is *called*, which is not always the name
it is declared under: an import may give it another one, and a namespace another one still. So an
interface may be expanded inside itself, once for each of its names. Only where every interface is
on the list under the name of an interface of its module is there no nesting deeper than the number
of interfaces.
-/

namespace Routebook
namespace Session

open Disk (Files)
open Analysis (Ends)

variable {fs : Files} {s s' s₀ s₁ s₂ : Session} {t u p : TypeExpr ModuleId} {names : List String}

/-! ## Nested calls -/

/-- A type names an interface that is not being expanded. What has been loaded for it is in the last
session, and the parents are as the arguments make them. -/
inductive NamesFreeInterface (fs : Files) (s : Session) (t : TypeExpr ModuleId) :
    ModuleId × String → List (TypeExpr ModuleId) → Session → Prop where
  | intro {target : ModuleId} {name : String} {args parents : List (TypeExpr ModuleId)}
    {ps : List (TypeParameter ModuleId)} {members : List (Member (TypeExpr ModuleId))}
    {s₁ : Session}
    (hnames : NamesDeclaration fs s t target name args (.interface ps parents members) s₁)
    (hfree : s₁.expanding.contains (target, name) = false) :
    NamesFreeInterface fs s t (target, name) (parents.map (·.substitute (bind ps args))) s₁

/-- What is expanded on the way to the shape of a type, in which session and inside which
interfaces, innermost first: the type itself, what it is expanded to, and the same for the parents
of an interface. The limit on the steps is left out, so some of this may not be reached. -/
inductive Visits (fs : Files) :
    List (ModuleId × String) → Session → TypeExpr ModuleId →
      List (ModuleId × String) → Session → TypeExpr ModuleId → Prop where
  | refl {opened : List (ModuleId × String)} {s : Session} {t : TypeExpr ModuleId} :
    Visits fs opened s t opened s t
  | next {opened opened' : List (ModuleId × String)} {s s₁ s' : Session}
    {t next u : TypeExpr ModuleId} (hexpand : expand t fs s = some (some next, s₁))
    (h : Visits fs opened s₁ next opened' s' u) : Visits fs opened s t opened' s' u
  | parent {opened opened' : List (ModuleId × String)} {s s₁ s₂ s' : Session}
    {t p u : TypeExpr ModuleId} {key : ModuleId × String}
    {before after shapes : List (TypeExpr ModuleId)}
    (hnames : NamesFreeInterface fs s t key (before ++ p :: after) s₁)
    (hbefore : (before.mapM resolve).on fs (s₁.enter key) = some (shapes, s₂))
    (h : Visits fs (key :: opened) s₂ p opened' s' u) : Visits fs opened s t opened' s' u

/-! ## What nested calls find -/

/-- Inside some interfaces a type is met in a session that began as another one. -/
structure Nested (names : List String) (s₀ : Session) (opened : List (ModuleId × String))
    (s : Session) (t : TypeExpr ModuleId) : Prop where
  expanding : s.expanding = opened ++ s₀.expanding
  pushed : Pushed s₀.expanding (s.enterable names) opened
  callsAmong : s.CallsAmong names t

namespace Nested

variable {opened opened' : List (ModuleId × String)} {key : ModuleId × String}

theorem start (s : Session) (t : TypeExpr ModuleId) : Nested t.called s [] s t where
  expanding := rfl
  pushed := .nil _ _
  callsAmong := callsAmong_called s t

theorem later (h : Nested names s₀ opened s t) (hs' : Later fs s s') (hu : s'.CallsAmong names u) :
    Nested names s₀ opened s' u where
  expanding := hs'.expanding.trans h.expanding
  pushed := h.pushed.mono hs'.extends_.enterable_subset
  callsAmong := hu

/-- A step of a type leaves the interfaces as they were. -/
theorem next (h : Nested names s₀ opened s t) (hexpand : expand t fs s = some (some u, s₁)) :
    Nested names s₀ opened s₁ u := by
  obtain ⟨hlater, hu⟩ := (ends_expand (preserved_callsAmong names) h.callsAmong).of_on hexpand
  exact h.later hlater (hu u rfl)

/-- Inside an interface there is one more, and it was not there before. -/
theorem enter (h : Nested names s₀ opened s t) (hkey : key ∈ s.enterable names)
    (hfree : s.expanding.contains key = false) (hp : s.CallsAmong names p) :
    Nested names s₀ (key :: opened) (s.enter key) p where
  expanding := congrArg (key :: ·) h.expanding
  pushed := h.pushed.push hkey (h.expanding ▸ by simpa using hfree)
  callsAmong := hp

/-- A parent is met inside one more interface. -/
theorem parent (h : Nested names s₀ opened s t) {before after shapes : List (TypeExpr ModuleId)}
    (hnames : NamesFreeInterface fs s t key (before ++ p :: after) s₁)
    (hbefore : (before.mapM resolve).on fs (s₁.enter key) = some (shapes, s₂)) :
    Nested names s₀ (key :: opened) s₂ p := by
  have hK := preserved_callsAmong names
  generalize hparents : before ++ p :: after = parents at hnames
  obtain ⟨hnames, hfree⟩ := hnames
  obtain ⟨hs₁, ⟨declared, hd⟩, rfl, hn⟩ := later_of_namesDeclaration hnames
  have ht : CallsAmong names s₁ t := hK.later hs₁.extends_ h.callsAmong
  have hcalls : ∀ q ∈ before ++ p :: after, CallsAmong names s₁ q := by
    intro q hq
    rw [hparents] at hq
    obtain ⟨parent, hparent, rfl⟩ := List.mem_map.mp hq
    exact hK.parent hd (hK.args ht) hparent
  have hentered := (h.later hs₁ ht).enter (mem_enterable hd (ht.mem_of_mem_called hn)) hfree
    (hcalls p (List.mem_append_right _ List.mem_cons_self))
  -- The parents before this one may have loaded modules.
  have hloaded := (ends_mapM_resolve hK
    (fun q hq => hK.later (extends_enter s₁ _) (hcalls q (List.mem_append_left _ hq)))
    fun q s' _ hq => ends_resolveWithin hK resolveLimit hq).of_on hbefore
  exact hentered.later hloaded.1 (hK.later hloaded.1.extends_ hentered.callsAmong)

end Nested

theorem Visits.nested {opened opened' : List (ModuleId × String)}
    (h : Visits fs opened s t opened' s' u) (ht : Nested names s₀ opened s t) :
    Nested names s₀ opened' s' u := by
  induction h with
  | refl => exact ht
  | next hexpand _ ih => exact ih (ht.next hexpand)
  | parent hnames hbefore _ ih => exact ih (ht.parent hnames hbefore)

/-- **Looking up, expanding and resolving end, whatever the files and the declarations are, and
leave the list of interfaces that are being expanded as it was.** On the way the list has no entry
twice, and it is no longer than there are modules with an interface times names that are used. It is
no longer than there are interfaces if every interface on it is there under the name of one that its
module declares. -/
theorem expansion_ends (fs : Files) (s : Session) (t : TypeExpr ModuleId) :
    (∀ m n, (lookup m n).Ends fs s fun _ s' => s'.expanding = s.expanding) ∧
      Ends (expand t) fs s (fun _ s' => s'.expanding = s.expanding) ∧
      (∀ k, Ends (resolveWithin k t) fs s fun _ s' => s'.expanding = s.expanding) ∧
      ∀ opened s' u, Visits fs [] s t opened s' u →
        s'.expanding = opened ++ s.expanding ∧
          (s.expanding.Nodup → s'.expanding.Nodup) ∧
          opened.length ≤ (s'.enterable t.called).card ∧
          ((∀ key ∈ opened, key ∈ s'.interfaces) →
            opened.length ≤ s'.interfaces.toFinset.card) := by
  have hK := preserved_callsAmong t.called
  have ht := callsAmong_called s t
  refine ⟨fun m n => ?_, ?_, fun k => ?_, fun opened s' u h => ?_⟩
  · exact (ends_lookupWithin _ m n).imp fun _ _ h => h.1.expanding
  · exact (ends_expand hK ht).imp fun _ _ h => h.1.expanding
  · exact (ends_resolveWithin hK k ht).imp fun _ _ h => h.1.expanding
  · have hnested := h.nested (.start s t)
    refine ⟨hnested.expanding, fun hs => ?_, hnested.pushed.length_le, fun hdeclared => ?_⟩
    · rw [hnested.expanding]
      exact hnested.pushed.nodup_append hs
    · have hpushed : Pushed s.expanding s'.interfaces.toFinset opened :=
        { hnested.pushed with mem := fun key hkey => List.mem_toFinset.mpr (hdeclared key hkey) }
      exact hpushed.length_le

/-- Two interfaces that extend each other. -/
def circularSession : Session :=
  { Session.start .empty with
    modules := [{ Module.empty ⟨"circle.ts"⟩ with
      declarations := [("Odd", .interface [] [.reference "Even" [] 0] []),
        ("Even", .interface [] [.reference "Odd" [] 0] [])] }] }

theorem expansion_ends_circular :
    let s' := (circularSession.enter (0, "Odd")).enter (0, "Even")
    let opened : List (ModuleId × String) := [(0, "Even"), (0, "Odd")]
    Visits ⟨[], []⟩ [] circularSession (.reference "Odd" [] 0) opened s' (.reference "Odd" [] 0) ∧
      (∀ key ∈ opened, key ∈ s'.interfaces) ∧ s'.expanding = opened ∧
      opened.length ≤ s'.interfaces.toFinset.card := by
  intro s' opened
  have hodd : NamesDeclaration ⟨[], []⟩ circularSession (.reference "Odd" [] 0) 0 "Odd" []
      (.interface [] [.reference "Even" [] 0] []) circularSession := .reference (by cbv)
  have heven : NamesDeclaration ⟨[], []⟩ (circularSession.enter (0, "Odd"))
      (.reference "Even" [] 0) 0 "Even" [] (.interface [] [.reference "Odd" [] 0] [])
      (circularSession.enter (0, "Odd")) := .reference (by cbv)
  have hparent : NamesFreeInterface ⟨[], []⟩ circularSession (.reference "Odd" [] 0) (0, "Odd")
      ([] ++ [.reference "Even" [] 0]) circularSession := .intro hodd rfl
  have hgrandparent : NamesFreeInterface ⟨[], []⟩ (circularSession.enter (0, "Odd"))
      (.reference "Even" [] 0) (0, "Even") ([] ++ [.reference "Odd" [] 0])
      (circularSession.enter (0, "Odd")) := .intro heven rfl
  have hvisits : Visits ⟨[], []⟩ [] circularSession (.reference "Odd" [] 0) opened s'
      (.reference "Odd" [] 0) := .parent hparent rfl (.parent hgrandparent rfl .refl)
  have hdeclared : ∀ key ∈ opened, key ∈ s'.interfaces := by decide
  obtain ⟨hexpanding, -, -, hdepth⟩ :=
    (expansion_ends ⟨[], []⟩ circularSession (.reference "Odd" [] 0)).2.2.2 opened s' _ hvisits
  exact ⟨hvisits, hdeclared, hexpanding, hdepth hdeclared⟩

end Session
end Routebook
