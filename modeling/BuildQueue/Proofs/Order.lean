import BuildQueue.Ident
import Mathlib.Order.Defs.LinearOrder

/-!
# The order of identifiers

Identifiers are ordered by their numbers. The order is linear, and it is the one by which maps
keep their keys.
-/

namespace BuildQueue
namespace Ident

variable {entity : Entity} {a b : Ident entity}

theorem ext (same : a.number = b.number) : a = b := by
  cases a
  cases b
  exact congrArg _ same

theorem ext_iff : a = b ↔ a.number = b.number := ⟨congrArg number, ext⟩

theorem le_iff : a ≤ b ↔ a.number ≤ b.number := Iff.rfl

theorem lt_iff : a < b ↔ a.number < b.number := Iff.rfl

theorem compare_eq_lt_iff : compare a b = .lt ↔ a < b := by
  rw [compare_def, lt_iff]
  exact Std.compare_eq_lt

instance : LinearOrder (Ident entity) where
  le_refl a := Int.le_refl a.number
  le_trans _ _ _ := Int.le_trans
  lt_iff_le_not_ge _ _ := Int.lt_iff_le_and_not_ge
  le_antisymm _ _ below above := ext (Int.le_antisymm below above)
  le_total a b := Int.le_total a.number b.number
  toDecidableLE := inferInstance
  toDecidableLT := inferInstance
  compare_eq_compareOfLessAndEq a b := by
    change compareOfLessAndEq a.number b.number = _
    simp only [compareOfLessAndEq, lt_iff, ext_iff]

theorem lt_next (id : Ident entity) : id < id.next := Int.lt_succ id.number

theorem next_le_iff : a.next ≤ b ↔ a < b := Iff.rfl

end Ident
end BuildQueue
