import BuildQueue.SortedMap

/-!
# Counters

What the work of a session costs is counted. Counters that are shared are one value of type
`Counters`.
-/

namespace BuildQueue

open Std

/-- What is counted. -/
inductive Counter where
  | storeReads
  | storeWrites
  | claimsAttempted
  | claimsLost
  | requestsCollapsed
deriving DecidableEq, Repr

namespace Counter

/-- All counters. -/
def all : List Counter := [storeReads, storeWrites, claimsAttempted, claimsLost, requestsCollapsed]

/-- The name of a counter. -/
def name : Counter → String
  | storeReads => "store_reads"
  | storeWrites => "store_writes"
  | claimsAttempted => "claims_attempted"
  | claimsLost => "claims_lost"
  | requestsCollapsed => "requests_collapsed"

/-- The counter of a name. -/
def ofName? (name : String) : Option Counter := all.find? fun counter => counter.name == name

/-- The place of a counter among all counters. -/
def index : Counter → Nat
  | storeReads => 0
  | storeWrites => 1
  | claimsAttempted => 2
  | claimsLost => 3
  | requestsCollapsed => 4

instance : Ord Counter := ⟨fun a b => compare a.index b.index⟩

instance : TransOrd Counter where
  eq_swap {a b} := by cases a <;> cases b <;> rfl
  isLE_trans {a b c} := by cases a <;> cases b <;> cases c <;> decide

instance : LawfulEqOrd Counter where
  compare_self {a} := by cases a <;> rfl
  eq_of_compare {a b} := by cases a <;> cases b <;> decide

end Counter

/-- The counters that have been used, with their values. -/
abbrev Counters := SortedMap Counter Int

namespace Counters

/-- The value of a counter, zero if it was never used. -/
def value (counters : Counters) (counter : Counter) : Int := (counters.get? counter).getD 0

/-- Updates a counter that was used before; a counter that was not gets the first value. -/
def change (counters : Counters) (counter : Counter) (first : Int) (update : Int → Int) :
    Counters :=
  counters.insert counter ((counters.get? counter).elim first update)

/-- Adds to a counter. -/
def add (counters : Counters) (counter : Counter) (amount : Int) : Counters :=
  counters.change counter amount (· + amount)

/-- Adds one to a counter. -/
def increment (counters : Counters) (counter : Counter) : Counters := counters.add counter 1

@[simp] theorem value_empty (counter : Counter) : value ∅ counter = 0 := rfl

/-- An addition is seen in its own counter only. -/
theorem value_add (counters : Counters) (counter other : Counter) (amount : Int) :
    (counters.add counter amount).value other =
      counters.value other + if other = counter then amount else 0 := by
  unfold add change value
  rw [SortedMap.get?_insert]
  by_cases h : other = counter
  · subst h
    cases counters.get? other <;> simp
  · have hne : compare other counter ≠ .eq := fun heq => h (LawfulEqCmp.eq_of_compare heq)
    simp [h, hne]

end Counters
end BuildQueue
