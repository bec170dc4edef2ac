import Routebook.Document.SchemaOf
import Routebook.Proofs.Session.Analysis

/-!
# Types that have a shape

Only names are expanded. A type with a shape of its own is its own resolution, in every session and
without a change to it (`resolve_of_shape`).
-/

namespace Routebook
namespace Session

open Disk (Files)

variable {t : TypeExpr ModuleId} {fs : Files} {s : Session}

theorem expand_of_shape (h : nameKey? t = none) : expand t fs s = some (none, s) := by
  rw [expand.eq_def]
  cases t with
  | reference n args m => simp [nameKey?] at h
  | imported specifier q args m => simp [nameKey?] at h
  | query n m => simp [nameKey?] at h
  | _ => rfl

theorem resolveWithin_of_shape (h : nameKey? t = none) (n : Nat) :
    resolveWithin n t fs s = some (t, s) := by
  rw [resolveWithin.eq_def]
  cases n with
  | zero => rfl
  | succ n => exact Analysis.on_bind (expand_of_shape h)

theorem resolve_of_shape (h : nameKey? t = none) : (resolve t).on fs s = some (t, s) :=
  resolveWithin_of_shape h resolveLimit

end Session
end Routebook
