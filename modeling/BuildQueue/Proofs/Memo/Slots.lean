import BuildQueue.Memo

/-!
# Slots of a memo table

What holds of every slot of a table is preserved by each operation, as long as it holds of the
slots that the operation creates. A look-up creates at most the slot of a new fill.
-/

namespace BuildQueue
namespace Memo

variable {κ ν : Type}

/-- A condition on keys and slots holds of every entry of a table. -/
def Every (condition : κ → Slot ν → Prop) (memo : Memo κ ν) : Prop :=
  ∀ entry ∈ memo.entries, condition entry.1 entry.2

variable {condition : κ → Slot ν → Prop} {memo : Memo κ ν}

theorem every_empty
    (place : κ → Nat)
    (entryLimit shards : Nat)
    (ttl : Option Nat) :
    Every condition (empty place entryLimit shards ttl) :=
  fun _ listed => absurd listed List.not_mem_nil

theorem mem_of_mem_dropFirst
    {p : κ × Slot ν → Bool}
    {count : Nat}
    {entries : List (κ × Slot ν)}
    {entry : κ × Slot ν}
    (kept : entry ∈ dropFirst p count entries) :
    entry ∈ entries := by
  induction entries generalizing count with
  | nil =>
      cases count <;> exact kept
  | cons first rest inductionHypothesis =>
      cases count with
      | zero => exact kept
      | succ count =>
          rw [dropFirst] at kept
          split at kept
          · exact List.mem_cons_of_mem _ (inductionHypothesis kept)
          · rcases List.mem_cons.1 kept with rfl | later
            · exact List.mem_cons_self
            · exact List.mem_cons_of_mem _ (inductionHypothesis later)

theorem Every.trim
    (every : Every condition memo)
    (index : Nat) :
    Every condition (memo.trim index) :=
  fun entry kept => every entry (mem_of_mem_dropFirst kept)

variable [DecidableEq κ]

theorem mem_of_slot?_eq_some
    {key : κ}
    {slot : Slot ν}
    (found : memo.slot? key = some slot) :
    (key, slot) ∈ memo.entries := by
  obtain ⟨before, after, split, -⟩ := List.lookup_eq_some_iff.1 found
  rw [split]
  simp

theorem condition_of_slot?
    (every : Every condition memo)
    {key : κ}
    {slot : Slot ν}
    (found : memo.slot? key = some slot) :
    condition key slot :=
  every (key, slot) (mem_of_slot?_eq_some found)

theorem Every.invalidate
    (every : Every condition memo)
    (key : κ) :
    Every condition (memo.invalidate key) :=
  fun entry kept => every entry (List.mem_filter.1 kept).1

theorem Every.put
    (every : Every condition memo)
    {key : κ}
    {slot : Slot ν}
    (new : condition key slot) :
    Every condition (memo.put key slot) := by
  intro entry listed
  rcases List.mem_append.1 listed with kept | put
  · exact every entry (List.mem_filter.1 kept).1
  · obtain rfl := List.mem_singleton.1 put
    exact new

theorem Every.touch
    (every : Every condition memo)
    (key : κ) :
    Every condition (memo.touch key) := by
  unfold Memo.touch
  split
  · exact every
  · next slot found => exact every.put (condition_of_slot? every found)

theorem Every.start
    (every : Every condition memo)
    {key : κ}
    (new : condition key (.waiting memo.nextGeneration)) :
    Every condition (memo.start key).2 :=
  (every.put new).trim _

@[simp] theorem nextGeneration_touch (memo : Memo κ ν) (key : κ) :
    (memo.touch key).nextGeneration = memo.nextGeneration := by
  unfold Memo.touch
  split <;> rfl

section Lookup

variable {now : Nat} {key : κ} {after : Memo κ ν}

/-- A hit gives a value that the table holds. -/
theorem Every.lookup_hit
    (every : Every condition memo)
    {value : ν}
    (found : memo.lookup now key = (.hit value, after)) :
    Every condition after ∧ after.nextGeneration = memo.nextGeneration ∧
      ∃ filledAt, condition key (.complete value filledAt) := by
  unfold lookup at found
  split at found
  · next kept filledAt held =>
    split at found
    · cases found
    · cases found
      exact ⟨every.touch key, nextGeneration_touch memo key, filledAt,
        condition_of_slot? every held⟩
  · cases found
  · cases found

/-- A look-up joins a fill whose slot the table holds. -/
theorem Every.lookup_joined
    (every : Every condition memo)
    {generation : Nat}
    (found : memo.lookup now key = (.joined generation, after)) :
    Every condition after ∧ after.nextGeneration = memo.nextGeneration ∧
      condition key (.waiting generation) := by
  unfold lookup at found
  split at found
  · next kept filledAt held =>
    split at found
    · cases found
    · cases found
  · next held =>
    cases found
    exact ⟨every.touch key, nextGeneration_touch memo key, condition_of_slot? every held⟩
  · cases found

/-- A look-up that starts a fill starts the next one. -/
theorem lookup_started
    {generation : Nat}
    (found : memo.lookup now key = (.started generation, after)) :
    generation = memo.nextGeneration ∧ after.nextGeneration = memo.nextGeneration + 1 ∧
      after = ((memo.touch key).start key).2 := by
  have same := nextGeneration_touch memo key
  unfold lookup at found
  split at found
  · next kept filledAt held =>
    split at found
    · cases found
      exact ⟨same, congrArg (· + 1) same, rfl⟩
    · cases found
  · cases found
  · cases found
    exact ⟨same, congrArg (· + 1) same, rfl⟩

/-- The slots after a look-up that started a fill. -/
theorem Every.lookup_started
    (every : Every condition memo)
    {generation : Nat}
    (found : memo.lookup now key = (.started generation, after))
    (new : condition key (.waiting generation)) :
    Every condition after := by
  obtain ⟨same, -, rfl⟩ := Memo.lookup_started found
  refine (every.touch key).start ?_
  rw [nextGeneration_touch, ← same]
  exact new

end Lookup

theorem slot?_of_owns
    {key : κ}
    {generation : Nat}
    (owned : memo.owns key generation) :
    memo.slot? key = some (.waiting generation) := by
  unfold owns at owned
  split at owned
  · next current waits =>
    obtain rfl : current = generation := eq_of_beq owned
    exact waits
  · cases owned

/-- The value of a fill is kept in no slot but the one that waits for this fill. -/
theorem Every.publish
    (every : Every condition memo)
    (now : Nat)
    {key : κ}
    (generation : Nat)
    {value : ν}
    (new : condition key (.waiting generation) → condition key (.complete value now)) :
    Every condition (memo.publish now key generation value) := by
  unfold Memo.publish
  split
  · next owned => exact every.put (new (condition_of_slot? every (slot?_of_owns owned)))
  · exact every

theorem Every.abandon
    (every : Every condition memo)
    (key : κ)
    (generation : Nat) :
    Every condition (memo.abandon key generation) := by
  unfold Memo.abandon
  split
  · exact every.invalidate key
  · exact every

@[simp] theorem nextGeneration_publish
    (now : Nat)
    (key : κ)
    (generation : Nat)
    (value : ν) :
    (memo.publish now key generation value).nextGeneration = memo.nextGeneration := by
  unfold publish
  split <;> rfl

@[simp] theorem nextGeneration_abandon
    (key : κ)
    (generation : Nat) :
    (memo.abandon key generation).nextGeneration = memo.nextGeneration := by
  unfold abandon
  split <;> rfl

end Memo
end BuildQueue
