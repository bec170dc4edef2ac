import Routebook.Generate.Basic
import Routebook.Proofs.Disk.Files

/-!
# What a step of a run comes to

A step that succeeds is a chain of steps that succeed, each in the workspace that the one before it
leaves (`perform_bind_eq_ok`). For every kind of step there is one lemma that says when it succeeds
and what it leaves; **only writing changes the files** (`perform_writeFile_eq_ok`), and only an
analysis changes the session.
-/

namespace Routebook
namespace Generation

open Disk (Files Path)

variable {α β : Type} {w w' : Workspace}

/-! ## Chains of steps -/

theorem perform_bind (w : Workspace) (x : Generation α) (f : α → Generation β) :
    w.perform (x >>= f) = (w.perform x).bind fun r =>
      match r with
      | (.ok a, w₁) => w₁.perform (f a)
      | (.error e, w₁) => some (.error e, w₁) := by
  show (w.perform x).bind (fun r => ExceptT.bindCont f r.1 r.2) = _
  congr 1
  funext ⟨r, w₁⟩
  cases r <;> rfl

theorem perform_bind_eq_ok {x : Generation α} {f : α → Generation β} {b : β} :
    w.perform (x >>= f) = some (.ok b, w') ↔
      ∃ a w₁, w.perform x = some (.ok a, w₁) ∧ w₁.perform (f a) = some (.ok b, w') := by
  rw [perform_bind, Option.bind_eq_some_iff]
  constructor
  · rintro ⟨⟨r, w₁⟩, hx, h⟩
    cases r with
    | ok a => exact ⟨a, w₁, hx, h⟩
    | error e => exact absurd (Prod.mk.inj (Option.some.inj h)).1 (by simp)
  · rintro ⟨a, w₁, hx, h⟩
    exact ⟨(.ok a, w₁), hx, h⟩

theorem perform_bind_of_ok {x : Generation α} {f : α → Generation β} {a : α}
    (h : w.perform x = some (.ok a, w')) : w.perform (x >>= f) = w'.perform (f a) := by
  rw [perform_bind, h, Option.bind_some]

theorem perform_bind_of_error {x : Generation α} {f : α → Generation β} {e : Failure}
    (h : w.perform x = some (.error e, w')) : w.perform (x >>= f) = some (.error e, w') := by
  rw [perform_bind, h, Option.bind_some]

/-- A chain stops at the first step that fails. -/
theorem perform_bind_cases {x : Generation α} {f : α → Generation β} {r : Except Failure β}
    (h : w.perform (x >>= f) = some (r, w')) :
    (∃ e, w.perform x = some (.error e, w') ∧ r = .error e) ∨
      ∃ a w₁, w.perform x = some (.ok a, w₁) ∧ w₁.perform (f a) = some (r, w') := by
  rw [perform_bind, Option.bind_eq_some_iff] at h
  obtain ⟨⟨r₁, w₁⟩, hx, h⟩ := h
  cases r₁ with
  | ok a => exact .inr ⟨a, w₁, hx, h⟩
  | error e =>
    obtain ⟨rfl, rfl⟩ := Prod.mk.inj (Option.some.inj h)
    exact .inl ⟨e, hx, rfl⟩

theorem perform_pure_eq_ok {a b : α} :
    w.perform (pure a : Generation α) = some (.ok b, w') ↔ b = a ∧ w' = w := by
  show some (Except.ok a, w) = some (.ok b, w') ↔ _
  simp [eq_comm]

theorem perform_ofExcept_eq_ok {r : Except Error α} {a : α} :
    w.perform (ofExcept r) = some (.ok a, w') ↔ r = .ok a ∧ w' = w := by
  cases r with
  | ok b =>
    show some (Except.ok b, w) = some (.ok a, w') ↔ _
    simp [eq_comm]
  | error e =>
    show some (Except.error (Failure.ofError e), w) = some (.ok a, w') ↔ _
    simp

theorem perform_inside_eq_ok {purpose : String} {step : Generation α} {a : α} :
    w.perform (inside purpose step) = some (.ok a, w') ↔ w.perform step = some (.ok a, w') := by
  show (w.perform step).bind _ = _ ↔ _
  cases w.perform step with
  | none => simp
  | some r =>
    obtain ⟨r, w₁⟩ := r
    cases r with
    | ok b => exact Iff.rfl
    | error e => simp [pure]

theorem perform_inside_of_error {purpose : String} {step : Generation α} {e : Failure}
    (h : w.perform step = some (.error e, w')) :
    w.perform (inside purpose step) = some (.error (e.inside purpose), w') := by
  show (w.perform step).bind _ = _
  rw [h]
  rfl

theorem perform_analyse_eq_ok {x : Analysis α} {a : α} :
    w.perform (analyse x) = some (.ok a, w') ↔
      ∃ s, x.on w.files w.session = some (a, s) ∧ w' = { w with session := s } := by
  show (x.on w.files w.session).bind _ = _ ↔ _
  rw [Option.bind_eq_some_iff]
  constructor
  · rintro ⟨⟨b, s⟩, hx, h⟩
    obtain ⟨hb, hw⟩ := Prod.mk.inj (Option.some.inj h)
    obtain rfl := Except.ok.inj hb
    exact ⟨s, hx, hw.symm⟩
  · rintro ⟨s, hx, rfl⟩
    exact ⟨(a, s), hx, rfl⟩

theorem perform_get_eq_ok {a : Workspace} :
    w.perform (get : Generation Workspace) = some (.ok a, w') ↔ a = w ∧ w' = w := by
  show some (Except.ok w, w) = some (.ok a, w') ↔ _
  simp [eq_comm]

theorem perform_change_eq_ok {purpose : String} {files : Option Files} {u : Unit} :
    w.perform (change purpose files) = some (.ok u, w') ↔
      ∃ fs, files = some fs ∧ w' = { w with files := fs } := by
  cases files with
  | none =>
    show some (Except.error _, w) = some (.ok u, w') ↔ _
    simp
  | some fs =>
    show some (Except.ok _, _) = some (.ok u, w') ↔ _
    simp [eq_comm]

/-- Putting changed files in the place of the old succeeds or changes nothing. -/
theorem perform_change_cases {purpose : String} {files : Option Files} {r : Except Failure Unit}
    (h : w.perform (change purpose files) = some (r, w')) :
    (∃ fs, files = some fs ∧ r = .ok () ∧ w' = { w with files := fs }) ∨
      ∃ e, r = .error e ∧ w' = w := by
  cases files with
  | none =>
    obtain ⟨rfl, rfl⟩ := Prod.mk.inj (Option.some.inj h)
    exact .inr ⟨_, rfl, rfl⟩
  | some fs =>
    obtain ⟨rfl, rfl⟩ := Prod.mk.inj (Option.some.inj h)
    exact .inl ⟨fs, rfl, rfl, rfl⟩

/-! ## Writing -/

/-- Where the directories that a file is in can be made, writing it comes to putting it into them. -/
theorem perform_writeFile_of_directories {p : Path} {text : String} {dirs : Files}
    (h : w.files.makeDirectories? (p.parent?.getD ⟨""⟩) = some dirs) :
    w.perform (writeFile p text) = Workspace.perform { w with files := dirs }
      (change ("Failed to write to file: " ++ p.text) (dirs.write? p text)) := by
  cases hparent : p.parent? with
  | none =>
    -- Without a directory of its own a path is written as it stands.
    rw [hparent] at h
    obtain rfl : w.files = dirs := Option.some.inj h
    simp only [writeFile, hparent]
    rfl
  | some dir =>
    rw [hparent, Option.getD_some] at h
    simp only [writeFile, hparent]
    show w.perform (change _ (w.files.makeDirectories? dir) >>= fun _ => _) = _
    rw [h]
    rfl

theorem perform_writeFile_of_no_directories {p : Path} (text : String)
    (h : w.files.makeDirectories? (p.parent?.getD ⟨""⟩) = none) :
    ∃ e, w.perform (writeFile p text) = some (.error e, w) := by
  cases hparent : p.parent? with
  | none =>
    rw [hparent] at h
    exact absurd (h : some w.files = none) (Option.some_ne_none _)
  | some dir =>
    rw [hparent, Option.getD_some] at h
    simp only [writeFile, hparent]
    show ∃ e, w.perform (change _ (w.files.makeDirectories? dir) >>= fun _ => _) = _
    rw [h]
    exact ⟨_, rfl⟩

/-- Writing a file makes the directories it is in, then the file, and stops where one of the two is
not possible. -/
theorem perform_writeFile_cases {p : Path} {text : String} {r : Except Failure Unit}
    (h : w.perform (writeFile p text) = some (r, w')) :
    ((∃ e, r = .error e) ∧ w' = w) ∨
      ∃ dirs, w.files.makeDirectories? (p.parent?.getD ⟨""⟩) = some dirs ∧
        (((∃ e, r = .error e) ∧ w' = { w with files := dirs }) ∨
          ∃ fs, dirs.write? p text = some fs ∧ r = .ok () ∧ w' = { w with files := fs }) := by
  cases hdirs : w.files.makeDirectories? (p.parent?.getD ⟨""⟩) with
  | none =>
    obtain ⟨e, he⟩ := perform_writeFile_of_no_directories text hdirs
    obtain ⟨rfl, rfl⟩ := Prod.mk.inj (Option.some.inj (he.symm.trans h))
    exact .inl ⟨⟨e, rfl⟩, rfl⟩
  | some dirs =>
    rw [perform_writeFile_of_directories hdirs] at h
    rcases perform_change_cases h with ⟨fs, hfs, hr, hw⟩ | ⟨e, hr, hw⟩
    · exact .inr ⟨dirs, rfl, .inr ⟨fs, hfs, hr, hw⟩⟩
    · exact .inr ⟨dirs, rfl, .inl ⟨⟨e, hr⟩, hw⟩⟩

/-- Whether it succeeds or not, writing a file changes nothing but the file, and what it adds to the
files are directories. -/
theorem extendsBut_of_writeFile {p : Path} {text : String} {r : Except Failure Unit}
    (h : w.perform (writeFile p text) = some (r, w')) :
    w'.session = w.session ∧ w'.files.ExtendsBut p w.files := by
  rcases perform_writeFile_cases h with ⟨-, rfl⟩ | ⟨dirs, hdirs, ⟨-, rfl⟩ | ⟨fs, hfs, -, rfl⟩⟩
  · exact ⟨rfl, (Files.Extends.refl _).extendsBut p⟩
  · exact ⟨rfl, (Files.extends_of_makeDirectories? hdirs).extendsBut p⟩
  · exact ⟨rfl, (Files.extendsBut_of_write? hfs).of_extends
      (Files.extends_of_makeDirectories? hdirs)⟩

/-- Writing a file includes it in the files, and changes nothing else. -/
theorem perform_writeFile_eq_ok {p : Path} {text : String} {u : Unit} :
    w.perform (writeFile p text) = some (.ok u, w') ↔
      ∃ fs, w.files.include? p text = some fs ∧ w' = { w with files := fs } := by
  rw [Files.include?]
  cases hdirs : w.files.makeDirectories? (p.parent?.getD ⟨""⟩) with
  | none =>
    obtain ⟨e, he⟩ := perform_writeFile_of_no_directories text hdirs
    simp [he]
  | some dirs =>
    rw [perform_writeFile_of_directories hdirs]
    exact perform_change_eq_ok

end Generation
end Routebook
