import Mathlib.Data.List.Nodup
import Routebook.Proofs.Session.Correspondence

/-!
# Numbers of modules

A session gives its modules the numbers of their places, and **every declaration mentions only the
module it stands in** (`Numbered`). So a session corresponds to itself, each number to itself
(`Correspondence.same`), and what analyses do to two corresponding sessions they do to one. This
holds as well of sessions of which more is known, if adding a file keeps it (`Invariant`).
-/

namespace Routebook

open Disk (Files Path)

namespace Session

variable {fs : Files} {s s' : Session} {m id : ModuleId}

/-! ## Numbers of modules -/

/-- Modules under the numbers of their places, each known by one key, and each in the scope of its
own number. -/
structure Numbered (s : Session) : Prop where
  numbers : s.locations.map Prod.snd = List.range s.modules.length
  keys : (s.locations.map Prod.fst).Nodup
  modules : ∀ (m : ModuleId) (x : Module), s.modules[m]? = some x →
    x.Corresponds (fun a b _ => a = m ∧ b = m) x

theorem numbered_start (aliases : PathAliases) : (Session.start aliases).Numbered :=
  ⟨rfl, List.nodup_nil, fun m x hx => absurd hx (by simp [Session.start])⟩

theorem Numbered.lt_of_location? (h : s.Numbered) {key : List String}
    (hid : s.locations.lookup key = some id) : id < s.modules.length := by
  obtain ⟨before, after, hlocations, -⟩ := List.lookup_eq_some_iff.mp hid
  have hmem : id ∈ s.locations.map Prod.snd := by
    rw [hlocations]
    simp
  rw [h.numbers] at hmem
  exact List.mem_range.mp hmem

theorem Numbered.lt_of_location (h : s.Numbered) {key : List String}
    (hm : (key, m) ∈ s.locations) : m < s.modules.length :=
  List.mem_range.mp (h.numbers ▸ List.mem_map_of_mem hm)

/-- Every module has a key. -/
theorem Numbered.exists_location (h : s.Numbered) (hm : m < s.modules.length) :
    ∃ key x, (key, m) ∈ s.locations ∧ s.modules[m]? = some x := by
  have hmem : m ∈ s.locations.map Prod.snd := h.numbers ▸ List.mem_range.mpr hm
  obtain ⟨⟨key, n⟩, hkey, rfl⟩ := List.mem_map.mp hmem
  exact ⟨key, _, hkey, List.getElem?_eq_getElem hm⟩

/-- A key is the key of one module, and a module has one key. -/
theorem Numbered.key_eq_iff (h : s.Numbered) {key key' : List String}
    (hm : (key, m) ∈ s.locations) (hid : (key', id) ∈ s.locations) : key = key' ↔ m = id := by
  have hnumbers : (s.locations.map Prod.snd).Nodup := h.numbers ▸ List.nodup_range
  constructor
  · intro he
    exact congrArg Prod.snd (List.inj_on_of_nodup_map h.keys hm hid he)
  · intro he
    exact congrArg Prod.fst (List.inj_on_of_nodup_map hnumbers hm hid he)

/-- Adding a file keeps the numbers, and the number it gives is that of a module. -/
theorem Numbered.of_addFile (h : s.Numbered) {p : Path} {r : Except Error ModuleId}
    (hadd : (addFile p).on fs s = some (r, s')) :
    s'.Numbered ∧ ∀ id, r = .ok id → id < s'.modules.length := by
  rcases addFile_cases hadd with
    ⟨id, hid, rfl, rfl⟩ | ⟨e, -, -, rfl, rfl⟩ | ⟨program, hnew, -, rfl, rfl⟩
  · refine ⟨h, fun id' hr => ?_⟩
    obtain rfl := Except.ok.inj hr
    exact h.lt_of_location? hid
  · exact ⟨h, nofun⟩
  · refine ⟨⟨?_, ?_, ?_⟩, fun id' hr => ?_⟩
    · simp only [List.map_append, List.map_cons, List.map_nil, h.numbers, List.length_append,
        List.length_singleton, List.range_succ]
    · rw [List.map_append, List.nodup_append]
      refine ⟨h.keys, by simp, fun key hkey new hnewKey he => ?_⟩
      -- The key of the new module leads to no module so far.
      obtain ⟨known, hmem, rfl⟩ := List.mem_map.mp hkey
      rw [List.map_singleton, List.mem_singleton] at hnewKey
      have hne := List.lookup_eq_none_iff.mp hnew known hmem
      rw [he, hnewKey] at hne
      exact absurd hne (by simp)
    · intro m x hx
      rcases Nat.lt_trichotomy m s.modules.length with hlt | rfl | hgt
      · rw [List.getElem?_append_left hlt] at hx
        exact h.modules m x hx
      · rw [List.getElem?_concat_length] at hx
        obtain rfl := Option.some.inj hx
        exact Module.corresponds_ofProgram (fun _ => ⟨rfl, rfl⟩) p p program
      · have hlength : (s.modules ++ [Module.ofProgram s.modules.length p program]).length ≤ m := by
          rw [List.length_append, List.length_singleton]
          omega
        rw [List.getElem?_eq_none hlength] at hx
        exact absurd hx (by simp)
    · obtain rfl := Except.ok.inj hr
      simp

/-! ## Invariants -/

/-- Something that is known of numbered sessions, however many files are added. -/
structure Invariant (fs : Files) where
  holds : Session → Prop
  numbered : ∀ {s : Session}, holds s → s.Numbered
  addFile : ∀ {s s' : Session} {p : Path} {r : Except Error ModuleId}, holds s →
    (Session.addFile p).on fs s = some (r, s') → holds s'
  enter : ∀ {s : Session} (name : ModuleId × String), holds s → holds (s.enter name)
  leave : ∀ {s : Session}, holds s → holds s.leave

theorem Invariant.of_loadSpecifier (I : Invariant fs) (h : I.holds s) {specifier : String}
    {r : Option ModuleId} (hload : (loadSpecifier m specifier).on fs s = some (r, s')) :
    I.holds s' ∧ ∀ id, r = some id → id < s'.modules.length := by
  rcases loadSpecifier_cases hload with
    ⟨-, rfl, rfl⟩ | ⟨p, -, ⟨e, hadd, rfl⟩ | ⟨id, hadd, rfl⟩⟩
  · exact ⟨h, nofun⟩
  · exact ⟨I.addFile h hadd, nofun⟩
  · obtain ⟨-, hid⟩ := (I.numbered h).of_addFile hadd
    exact ⟨I.addFile h hadd, fun id' hr => Option.some.inj hr ▸ hid id rfl⟩

/-- Being numbered, and nothing more. -/
def numbered (fs : Files) : Invariant fs where
  holds := Numbered
  numbered h := h
  addFile h hadd := (h.of_addFile hadd).1
  enter _ h := ⟨h.numbers, h.keys, h.modules⟩
  leave h := ⟨h.numbers, h.keys, h.modules⟩

end Session

/-! ## A session beside itself -/

namespace Correspondence

open Session (Invariant)

variable {fs : Files}

/-- A numbered session corresponds to itself, each number of a module to itself. -/
def same (I : Invariant fs) : Correspondence fs where
  sessions w := w.2 = w.1 ∧ I.holds w.1
  ids w m n _ := n = m ∧ m < w.1.modules.length ∧ m < w.2.modules.length
  ids_of_extends := by
    rintro w w₁ m n o hw ⟨rfl, hleft, hright⟩
    exact ⟨rfl, Nat.lt_of_lt_of_le hleft hw.left.modules.length_le,
      Nat.lt_of_lt_of_le hright hw.right.modules.length_le⟩
  ids_unique := by
    rintro w m n o m' n' o' - ⟨rfl, -, -⟩ ⟨rfl, -, -⟩
    exact Iff.rfl
  modules := by
    rintro ⟨s, s'⟩ m n o ⟨hs, hholds⟩ ⟨hn, hm, -⟩
    obtain rfl : s' = s := hs
    obtain rfl : n = m := hn
    have hx := List.getElem?_eq_getElem hm
    refine ⟨_, _, hx, hx, ?_, fun _ _ => ⟨rfl, hm, hm⟩⟩
    refine ((I.numbered hholds).modules n _ hx).of_impliedAt ⟨?_, ?_⟩
    · rintro a b ⟨rfl, rfl⟩
      exact ⟨rfl, hm, hm⟩
    · rintro specifier - a b ⟨rfl, rfl⟩
      exact ⟨rfl, hm, hm⟩
  load := by
    rintro ⟨s, s'⟩ m n specifier r s₁ ⟨hs, hholds⟩ ⟨hn, -, -⟩ hload
    obtain rfl : s' = s := hs
    obtain rfl : n = m := hn
    obtain ⟨hs₁, hr⟩ := I.of_loadSpecifier hholds hload
    refine ⟨r, s₁, hload, ⟨rfl, hs₁⟩, ?_⟩
    cases r with
    | none => exact .none
    | some id => exact .some ⟨rfl, hr id rfl, hr id rfl⟩
  enter := by
    rintro s s' m n o name ⟨hs, hholds⟩ ⟨hn, -, -⟩
    obtain rfl : s' = s := hs
    obtain rfl : n = m := hn
    exact ⟨rfl, I.enter _ hholds⟩
  leave := by
    rintro s s' ⟨hs, hholds⟩
    obtain rfl : s' = s := hs
    exact ⟨rfl, I.leave hholds⟩

/-- Adding a file keeps a session as it is beside itself. -/
theorem adds_same (I : Invariant fs) (p : Path) : (same I).Adds p := by
  refine adds_of_addFile ?_
  rintro ⟨s, s'⟩ r s₁ ⟨hs, hholds⟩ hadd
  obtain rfl : s' = s := hs
  obtain ⟨-, hr⟩ := (I.numbered hholds).of_addFile hadd
  refine ⟨r, s₁, hadd, ⟨rfl, I.addFile hholds hadd⟩, ?_⟩
  cases r with
  | error e => exact .none
  | ok id => exact .some ⟨rfl, hr id rfl, hr id rfl⟩

end Correspondence

end Routebook
