import BuildQueue.Proofs.Pass.Searching
import Mathlib.Data.List.Sort

/-!
# A pass alone

A pass that is alone competes with nobody, so it skips all that it finds, in ascending order, until
a call fails. If none does then it skips exactly the pending requests that its new requests retire;
its view cache makes no difference, since it holds nothing but views of the requests in the store.
-/

namespace BuildQueue

open Script (Ensures)

namespace Ledger

/-- The ledger of one pass that has skipped some requests at some times. -/
def skipping (ids : List RequestId) (times : RequestId → Timestamp) : Ledger Unit :=
  fun id => if ids.contains id then some ((), .skipped (times id)) else none

variable {ids : List RequestId} {times : RequestId → Timestamp} {id : RequestId}

theorem skipping_eq_none_iff : skipping ids times id = none ↔ id ∉ ids := by
  simp [skipping]

theorem skipping_ne_held
    (ids : List RequestId)
    (times : RequestId → Timestamp)
    (id : RequestId)
    (who : Unit)
    (time : Timestamp) :
    skipping ids times id ≠ some (who, .held time) := by
  unfold skipping
  split <;> simp

end Ledger

/-- A store in which one pass has skipped some requests is marked by the ledger of that pass. -/
theorem Store.marked_skipping
    (base : Store)
    (ids : List RequestId)
    (times : RequestId → Timestamp) :
    base.marked (Ledger.skipping ids times) = base.skipAll ids times := by
  refine eq_of_get? base fun id => ?_
  rw [SortedMap.get?_mapValues, SortedMap.get?_mapValues]
  refine congrArg (Option.map · _) (funext fun request => ?_)
  rw [Ledger.row, Ledger.skipping]
  cases ids.contains id <;> rfl

/-- What a pass that was alone has made of a store when it returns some requests. -/
structure Skipped
    (base : Store)
    (policy : Policy Strategy)
    (newIds ids : List RequestId)
    (after : Store) : Prop where
  ascending : ids.Pairwise (· < ·)
  mem_iff : ∀ {id}, id ∈ ids ↔
    base.claimable id = true ∧ ∃ new ∈ newIds, base.Retires policy new id
  store : ∃ times, after = base.skipAll ids times

namespace Skipped

variable {base after : Store} {policy : Policy Strategy} {newIds ids : List RequestId}
  {id : RequestId}

/-- What a pass alone has skipped is complete. -/
theorem complete
    (skipped : Skipped base policy newIds ids after)
    (listed : id ∈ ids)
    {row : Request}
    (found : after.requests.get? id = some row) :
    row.complete = true := by
  obtain ⟨times, rfl⟩ := skipped.store
  rw [Store.get?_skipAll] at found
  obtain ⟨request, -, rfl⟩ := Option.map_eq_some_iff.1 found
  rw [if_pos (List.contains_iff_mem.2 listed)]
  rfl

/-- What a pass alone has not skipped is as it was. -/
theorem get?_of_notMem
    (skipped : Skipped base policy newIds ids after)
    (unlisted : id ∉ ids) :
    after.requests.get? id = base.requests.get? id := by
  obtain ⟨times, rfl⟩ := skipped.store
  exact Store.get?_skipAll_of_notMem unlisted

/-- Passes alone that have the same new requests skip the same, up to the times. -/
theorem unique
    (skipped : Skipped base policy newIds ids after)
    {otherNewIds otherIds : List RequestId}
    {otherAfter : Store}
    (others : Skipped base policy otherNewIds otherIds otherAfter)
    (same : ∀ new, new ∈ otherNewIds ↔ new ∈ newIds) :
    otherIds = ids ∧ otherAfter.untimed = after.untimed := by
  obtain rfl : otherIds = ids := by
    refine others.ascending.eq_of_mem_iff skipped.ascending fun id => ?_
    rw [others.mem_iff, skipped.mem_iff]
    simp only [same]
  obtain ⟨times, rfl⟩ := skipped.store
  obtain ⟨otherTimes, rfl⟩ := others.store
  refine ⟨rfl, ?_⟩
  rw [← Store.marked_skipping, ← Store.marked_skipping]
  refine Store.untimed_marked_eq (Ledger.skipping_ne_held _ _) (Ledger.skipping_ne_held _ _) ?_
  exact fun id => Ledger.skipping_eq_none_iff.trans Ledger.skipping_eq_none_iff.symm

end Skipped

namespace Course

variable {course : Course} {policy : Policy Strategy} {episode : Episode}

/-- How a pass alone ends: its first part has failed and nothing was changed, or it has skipped all
that the first part has found, or it broke off at one of these. -/
theorem collapse_cases
    (wellformed : episode.store.Wellformed)
    (lawful : course.Faulty → episode.store.Lawful)
    (standard : policy.IsStandard)
    (newIds : List RequestId) :
    let finding := (course.run (newIds.mapM (Pass.findRedundant policy)) episode).1
    let ended := course.run (Pass.collapse policy newIds) episode
    (∃ failure, finding = .error failure ∧ ended.1 = .error failure ∧ episode.Still ended.2) ∨
    ∃ found, finding = .ok found ∧
      (∀ id ∈ found.flatten, episode.store.claimable id = true) ∧
      OnResult
        (fun ids after => ids = Pass.ascending found.flatten ∧
          ∃ times, after.store = episode.store.skipAll (Pass.ascending found.flatten) times)
        (fun failure after => course.Faulty ∧ ∃ id ∈ Pass.ascending found.flatten,
          ∃ times earlier last, after.exchanges = earlier ++ last ∧
          Breaks failure id (episode.store.skipAll
            ((Pass.ascending found.flatten).filter (· < id)) times) last after.store)
        ended.1 ended.2 := by
  have finds := Pass.ensured_run (Pass.find_ensures_alone wellformed.toKeyed standard newIds :
    Ensures (alone course.Faulty) _ (newIds.mapM (Pass.findRedundant policy)).run episode)
  unfold Pass.collapse
  rw [run_bind]
  generalize course.run (newIds.mapM (Pass.findRedundant policy)) episode = finding at finds
  obtain ⟨found, later⟩ := finding
  cases found with
  | error failure => exact .inl ⟨failure, rfl, rfl, finds⟩
  | ok found =>
      obtain ⟨still, pending⟩ := finds
      have selects := Pass.ensured_run (Pass.select_ensures_alone lawful
        (Pass.pairwise_ascending found.flatten)
        (fun id listed => pending id (Pass.mem_ascending_iff.1 listed)) still.store)
      exact .inr ⟨found, rfl, pending, selects⟩

/-- A pass alone of which no call fails skips exactly the pending requests that its new requests
retire, unless it is hindered. -/
theorem collapse_skips
    (wellformed : episode.store.Wellformed)
    (clear : course.IsClear)
    (holds : episode.views.HoldsViews episode.store)
    (standard : policy.IsStandard)
    (newIds : List RequestId) :
    let ended := course.run (Pass.collapse policy newIds) episode
    (∃ failure, ended.1 = .error failure ∧ ∃ new ∈ newIds, Hindered episode.store False policy
      (fun old => episode.store.claimable old = true) new) ∨
    ∃ ids, ended.1 = .ok ids ∧ Skipped episode.store policy newIds ids ended.2.store := by
  have finds := @find_exactly course policy episode wellformed holds standard newIds
  have ends := @collapse_cases course policy episode wellformed
    (fun faulty => absurd faulty clear.not_faulty) standard newIds
  generalize course.run (Pass.collapse policy newIds) episode = ended at ends
  obtain ⟨result, after⟩ := ended
  rcases ends with ⟨failure, finding, rfl, -⟩ | ⟨found, finding, -, ends⟩
  · rcases finds with ⟨_, -, hindered⟩ | ⟨_, impossible, -⟩
    · exact .inl ⟨failure, rfl, eq_false clear.not_faulty ▸ hindered⟩
    · rw [finding] at impossible
      cases impossible
  · rcases finds with ⟨_, impossible, -⟩ | ⟨_, again, exactly⟩
    · rw [finding] at impossible
      cases impossible
    · rw [finding] at again
      cases again
      cases result with
      | error failure => exact absurd ends.1 clear.not_faulty
      | ok ids =>
          obtain ⟨rfl, skipped⟩ := ends
          refine .inr ⟨_, rfl, Pass.pairwise_ascending _, ?_, skipped⟩
          intro id
          rw [Pass.mem_ascending_iff, exactly]

end Course

namespace World

variable {world : World}

/-- A pass alone skips exactly the pending requests that its new requests retire, or it has an
excuse to fail. -/
theorem run_collapse_cases
    (wellformed : world.store.Wellformed)
    (clear : world.IsClear)
    (empty : world.views.entries = [])
    {policy : Policy Strategy}
    (standard : policy.IsStandard)
    (newIds : List RequestId) :
    (∃ failure, (world.run (Pass.collapse policy newIds)).1 = .error failure ∧
      ∃ new ∈ newIds, Excused world.store False new) ∨
    ∃ ids, (world.run (Pass.collapse policy newIds)).1 = .ok ids ∧
      Skipped world.store policy newIds ids (world.run (Pass.collapse policy newIds)).2.store := by
  obtain ⟨result, store⟩ := run_eq world (Pass.collapse policy newIds)
  rw [result, store]
  have skips := @Course.collapse_skips world.course policy (.start world.toSite world.views)
    wellformed clear.course (Memo.holdsViews_of_empty empty _) standard newIds
  rcases skips with ⟨failure, failed, new, listed, hindered⟩ | returned
  · exact .inl ⟨failure, failed, new, listed, hindered.excused⟩
  · exact .inr returned

/-- A pass alone returns, if its new requests are there and all views can be assembled. -/
theorem exists_skipped
    (wellformed : world.store.Wellformed)
    (clear : world.IsClear)
    (empty : world.views.entries = [])
    (assembles : world.store.Assembles)
    {policy : Policy Strategy}
    (standard : policy.IsStandard)
    {newIds : List RequestId}
    (known : ∀ new ∈ newIds, world.store.requests.contains new = true) :
    ∃ ids, (world.run (Pass.collapse policy newIds)).1 = .ok ids ∧
      Skipped world.store policy newIds ids
        (world.run (Pass.collapse policy newIds)).2.store := by
  rcases run_collapse_cases wellformed clear empty standard newIds with
    ⟨failure, -, new, listed, excused⟩ | returned
  · exact absurd excused (not_excused assembles (known new listed))
  · exact returned

end World
end BuildQueue
