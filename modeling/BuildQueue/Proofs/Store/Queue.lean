import BuildQueue.Proofs.Store.Batches
import BuildQueue.Proofs.Store.Links

/-!
# Queues of builders

The queue of a builder lists its pending requests in a strict order: by the time of submission,
those without one first, and by identifier. However the rows came into the store, what is in the
queue is just what can be claimed, so listing and claiming agree about what is pending.
-/

namespace BuildQueue

namespace Request

/-- The strict order of a queue. -/
inductive Precedes (first second : Request) : Prop where
  | undated (missing : first.submittedAt = none) {time : Timestamp}
      (dated : second.submittedAt = some time)
  | earlier {time later : Timestamp} (dated : first.submittedAt = some time)
      (datedToo : second.submittedAt = some later) (before : time < later)
  | sameTime (same : first.submittedAt = second.submittedAt) (below : first.id < second.id)

variable {first second third : Request}

theorem Precedes.ne (precedes : first.Precedes second) : first ≠ second := by
  rintro rfl
  cases precedes with
  | undated missing dated => rw [missing] at dated; cases dated
  | earlier dated datedToo before =>
      rw [dated] at datedToo
      cases datedToo
      exact Int.lt_irrefl _ before
  | sameTime same below => exact lt_irrefl _ below

/-- The comparison of a queue is lexicographic. -/
theorem queuedBefore_eq (first second : Request) :
    first.queuedBefore second =
      (compareLex (compareOn submittedAt) (compareOn id) first second).isLE := rfl

theorem queuedBefore_trans
    (earlier : first.queuedBefore second = true)
    (later : second.queuedBefore third = true) :
    first.queuedBefore third = true := by
  rw [queuedBefore_eq] at earlier later ⊢
  exact Std.TransCmp.isLE_trans earlier later

theorem queuedBefore_total (first second : Request) :
    (first.queuedBefore second || second.queuedBefore first) = true := by
  rw [queuedBefore_eq, queuedBefore_eq, Bool.or_eq_true, or_iff_not_imp_left]
  intro behind
  have ahead := Std.OrientedCmp.lt_of_not_isLE behind
  rw [ahead]
  rfl

/-- A request that is not behind another in the order of the queue comes strictly before it. -/
theorem precedes_of_queuedBefore
    (queued : first.queuedBefore second = true)
    (different : first.id ≠ second.id) :
    first.Precedes second := by
  unfold queuedBefore at queued
  cases dates : compare first.submittedAt second.submittedAt with
  | gt =>
      rw [dates] at queued
      cases queued
  | eq =>
      rw [dates] at queued
      refine .sameTime (Std.LawfulEqCmp.eq_of_compare dates) (Ident.compare_eq_lt_iff.1 ?_)
      cases ids : compare first.id second.id with
      | lt => rfl
      | eq => exact absurd (Std.LawfulEqCmp.eq_of_compare ids) different
      | gt =>
          rw [ids] at queued
          cases queued
  | lt =>
      cases dated : first.submittedAt with
      | none =>
          cases datedToo : second.submittedAt with
          | none =>
              rw [dated, datedToo] at dates
              cases dates
          | some later => exact .undated dated datedToo
      | some time =>
          cases datedToo : second.submittedAt with
          | none =>
              rw [dated, datedToo] at dates
              cases dates
          | some later =>
              rw [dated, datedToo] at dates
              exact .earlier dated datedToo (Int.compare_eq_lt.1 dates)

end Request

namespace Store

variable {store : Store}

/-- Every row of a store is listed once, and its identifier is no other row's. -/
theorem Keyed.pairwise_values (keyed : store.Keyed) :
    store.requests.values.Pairwise fun first second => first.id ≠ second.id := by
  rw [SortedMap.values, List.pairwise_map]
  refine store.requests.ascending.imp_of_mem fun {first second} firstListed secondListed below => ?_
  rw [keyed.own (SortedMap.get?_eq_some_iff.2 firstListed),
    keyed.own (SortedMap.get?_eq_some_iff.2 secondListed)]
  exact ne_of_lt (Ident.compare_eq_lt_iff.1 below)

/-- The queue of a builder lists its pending requests. -/
theorem Keyed.mem_pendingOf
    (keyed : store.Keyed)
    {builderId : BuilderId}
    {request : Request} :
    request ∈ store.pendingOf builderId ↔
      store.requests.get? request.id = some request ∧ request.builderId = builderId ∧
        request.isPending = true := by
  simp only [pendingOf, List.mem_mergeSort, List.mem_filter, Bool.and_eq_true, beq_iff_eq,
    SortedMap.mem_values_iff]
  constructor
  · rintro ⟨⟨id, found⟩, sameBuilder, pending⟩
    rw [keyed.own found]
    exact ⟨found, sameBuilder, pending⟩
  · rintro ⟨found, sameBuilder, pending⟩
    exact ⟨⟨_, found⟩, sameBuilder, pending⟩

/-- The queue of a builder is in its order. -/
theorem Keyed.pairwise_pendingOf
    (keyed : store.Keyed)
    (builderId : BuilderId) :
    (store.pendingOf builderId).Pairwise Request.Precedes := by
  have sorted : (store.pendingOf builderId).Pairwise fun first second =>
      first.queuedBefore second = true := by
    refine List.pairwise_mergeSort ?_ Request.queuedBefore_total _
    intro _ _ _
    exact Request.queuedBefore_trans
  have distinct : (store.pendingOf builderId).Pairwise fun first second =>
      first.id ≠ second.id :=
    (List.mergeSort_perm _ _).symm.pairwise (keyed.pairwise_values.filter _) Ne.symm
  exact (sorted.and distinct).imp fun both => Request.precedes_of_queuedBefore both.1 both.2

/-- A row is in the queue of its builder just if it waits. -/
theorem Keyed.mem_pendingOf_iff_waits
    (keyed : store.Keyed)
    {id : RequestId}
    {request : Request}
    (found : store.requests.get? id = some request) :
    request ∈ store.pendingOf request.builderId ↔ store.Waits id := by
  rw [keyed.mem_pendingOf, keyed.own found, Request.isPending_iff]
  constructor
  · rintro ⟨-, -, pending⟩
    exact ⟨request, found, pending⟩
  · rintro ⟨twin, twinFound, pending⟩
    obtain rfl : request = twin := Option.some.inj (found.symm.trans twinFound)
    exact ⟨found, rfl, pending⟩

/-- The queue of a builder is exactly what can be claimed. In every store, rows that were put in as
they are included, the queue of a builder lists each of its rows that is neither claimed nor
complete once and no other row, in strictly ascending order of the submission times, a missing one
coming first, and of the identifiers. A row is in the queue of its builder just if a claim of it
alone would be won. -/
theorem queue_exact
    (firstRequest : RequestId)
    (updates : List Update)
    (now : Timestamp) :
    let store := evolved firstRequest updates
    (∀ builderId, ∃ queue,
      store.perform now (.listUnclaimed builderId) = (.ok queue, store) ∧
      queue.Nodup ∧ queue.Pairwise Request.Precedes ∧
      ∀ request, request ∈ queue ↔
        (∃ id, store.requests.get? id = some request) ∧ request.builderId = builderId ∧
          request.claimed = false ∧ request.complete = false) ∧
    ∀ id request, store.requests.get? id = some request → ∀ time,
      ((∃ queue, store.perform now (.listUnclaimed request.builderId) = (.ok queue, store) ∧
          request ∈ queue) ↔
        (store.perform now (.claim [id] time)).1 = .ok true) := by
  intro store
  have keyed : store.Keyed := keyed_evolved firstRequest updates
  refine ⟨fun builderId => ⟨_, rfl, ?_, keyed.pairwise_pendingOf builderId, fun request => ?_⟩,
    fun id request found time => ?_⟩
  · exact (keyed.pairwise_pendingOf builderId).imp Request.Precedes.ne
  · rw [keyed.mem_pendingOf, Request.isPending_iff]
    refine and_congr_left fun _ => ⟨fun found => ⟨_, found⟩, ?_⟩
    rintro ⟨id, found⟩
    rw [keyed.own found]
    exact found
  · rw [claim_won_iff, List.forall_mem_singleton, ← keyed.mem_pendingOf_iff_waits found]
    constructor
    · rintro ⟨queue, listed, queued⟩
      cases listed
      exact queued
    · exact fun queued => ⟨_, rfl, queued⟩

/-- A row without a submission time that was put in can be claimed, and it is in the queue. -/
theorem queue_exact_undated :
    let row : Request := { Sample.early with submittedAt := none }
    let store := evolved ⟨1⟩
      [.operation (.add (.builder Sample.linux)), .insert row,
        .operation (.add (.buildset (Sample.submission [Sample.linux.id]) Sample.submittedAt))]
    store.requests.get? ⟨5⟩ = some row ∧
      (store.perform Sample.submittedAt (.claim [⟨5⟩] none)).1 = .ok true ∧
      ∃ queue, store.perform Sample.submittedAt (.listUnclaimed Sample.linux.id) =
        (.ok queue, store) ∧ row ∈ queue := by
  intro row store
  have found : store.requests.get? ⟨5⟩ = some row := rfl
  have won : (store.perform Sample.submittedAt (.claim [⟨5⟩] none)).1 = .ok true := rfl
  obtain ⟨-, listed⟩ := queue_exact ⟨1⟩ _ Sample.submittedAt
  exact ⟨found, won, (listed ⟨5⟩ row found none).2 won⟩

end Store
end BuildQueue
