/-!
# Identifiers

Rows are identified by integers. The kind of row is part of the type of an identifier, so the
number of a builder is never taken for the number of a request. Request numbers are given out in
increasing order: a larger one belongs to a newer request.
-/

namespace BuildQueue

open Std

/-- The kinds of rows that have identifiers. -/
inductive Entity where
  | request
  | buildset
  | builder
  | sourceStamp
  | change
deriving DecidableEq, Repr

/-- The identifier of a row of one kind. -/
structure Ident (entity : Entity) where
  number : Int
deriving DecidableEq, Repr, Inhabited

abbrev RequestId := Ident .request
abbrev BuildsetId := Ident .buildset
abbrev BuilderId := Ident .builder
abbrev SourceStampId := Ident .sourceStamp
abbrev ChangeId := Ident .change

namespace Ident

variable {entity : Entity}

instance : Ord (Ident entity) := ⟨fun a b => compare a.number b.number⟩
instance : LT (Ident entity) := ⟨fun a b => a.number < b.number⟩
instance : LE (Ident entity) := ⟨fun a b => a.number ≤ b.number⟩
instance : DecidableLT (Ident entity) := fun a b =>
  inferInstanceAs (Decidable (a.number < b.number))
instance : DecidableLE (Ident entity) := fun a b =>
  inferInstanceAs (Decidable (a.number ≤ b.number))

@[simp] theorem compare_def (a b : Ident entity) :
    compare a b = compare a.number b.number := rfl

instance : TransOrd (Ident entity) where
  eq_swap {a b} := by
    rw [compare_def, compare_def]
    exact OrientedCmp.eq_swap
  isLE_trans {a b c} h h' := by
    rw [compare_def] at *
    exact TransCmp.isLE_trans h h'

instance : LawfulEqOrd (Ident entity) where
  compare_self {a} := by
    rw [compare_def]
    exact ReflCmp.compare_self
  eq_of_compare {a b} h := by
    cases a; cases b
    rw [compare_def] at h
    exact congrArg _ (LawfulEqCmp.eq_of_compare h)

/-- The decimal digits of an identifier. -/
instance : ToString (Ident entity) := ⟨fun id => toString id.number⟩

/-- The identifier given out after this one. -/
def next (id : Ident entity) : Ident entity := ⟨id.number + 1⟩

end Ident
end BuildQueue
