import BuildQueue.Proofs.Store.Exchange
import BuildQueue.Proofs.Store.History

/-!
# The life of a request

A request is submitted pending, a claim starts it, a completion ends it, and a release takes the
claim back. In every store that submissions and calls reach the times and the outcome of a request
say the same as its flags, so a claim that is released leaves no trace.
-/

namespace BuildQueue

namespace Request

/-- The times and the outcome of the request agree with its flags, and it is claimed if it is
complete. -/
structure Lawful (request : Request) : Prop where
  claimedAt : request.claimedAt.isSome = request.claimed
  completeAt : request.completeAt.isSome = request.complete
  outcome : request.outcome.isSome = request.complete
  started : request.complete = true → request.claimed = true

variable {request : Request}

theorem isPending_iff : request.isPending = true ↔
    request.claimed = false ∧ request.complete = false := by
  simp [isPending]

/-- A pending request has neither a claim nor an outcome. -/
theorem Lawful.of_asSubmitted_eq
    (fresh : request.asSubmitted = request) :
    request.Lawful := by
  have claimed : request.claimed = false := (congrArg Request.claimed fresh).symm
  have claimedAt : request.claimedAt = none := (congrArg Request.claimedAt fresh).symm
  have complete : request.complete = false := (congrArg Request.complete fresh).symm
  have outcome : request.outcome = none := (congrArg Request.outcome fresh).symm
  have completeAt : request.completeAt = none := (congrArg Request.completeAt fresh).symm
  refine ⟨?_, ?_, ?_, fun done => ?_⟩
  · rw [claimed, claimedAt]
    rfl
  · rw [complete, completeAt]
    rfl
  · rw [complete, outcome]
    rfl
  · rw [complete] at done
    cases done

theorem Lawful.claim
    (lawful : request.Lawful)
    (time : Timestamp) :
    (request.claim time).Lawful :=
  ⟨rfl, lawful.completeAt, lawful.outcome, fun _ => rfl⟩

theorem Lawful.finish
    (lawful : request.Lawful)
    (claimed : request.claimed = true)
    (outcome : Outcome)
    (time : Timestamp) :
    (request.finish outcome time).Lawful :=
  ⟨lawful.claimedAt, rfl, rfl, fun _ => claimed⟩

theorem Lawful.release (lawful : request.Lawful) : request.release.Lawful := by
  unfold Request.release
  split
  · next held =>
    have incomplete : request.complete = false := by
      simpa using (Bool.and_eq_true_iff.1 held).2
    refine ⟨rfl, lawful.completeAt, lawful.outcome, fun done => ?_⟩
    rw [incomplete] at done
    cases done
  · exact lawful

/-- The release of a claim on a pending request restores it. -/
theorem Lawful.release_claim
    (lawful : request.Lawful)
    (pending : request.isPending = true)
    (time : Timestamp) :
    (request.claim time).release = request := by
  obtain ⟨claimed, complete⟩ := isPending_iff.1 pending
  have claimedAt : request.claimedAt = none := by
    have unset := lawful.claimedAt
    rw [claimed, Option.isSome_eq_false_iff] at unset
    exact Option.isNone_iff_eq_none.1 unset
  have held : ((request.claim time).claimed && !(request.claim time).complete) = true := by
    simp [Request.claim, complete]
  rw [Request.release, if_pos held]
  simp only [Request.claim]
  rw [← claimed, ← claimedAt]

end Request

namespace Store

/-- Every request of the store is lawful. -/
structure Lawful (store : Store) : Prop where
  row : ∀ {id request}, store.requests.get? id = some request → request.Lawful

variable {before after : Store}

/-- A change of some rows that keeps each of them lawful. -/
theorem Lawful.updateRequests
    (lawful : before.Lawful)
    (ids : List RequestId)
    {change : Request → Request}
    (kept : ∀ id ∈ ids, ∀ request, before.requests.get? id = some request →
      (change request).Lawful) :
    (before.updateRequests ids change).Lawful := by
  refine ⟨fun {id request} found => ?_⟩
  rw [get?_updateRequests] at found
  obtain ⟨old, oldFound, rfl⟩ := Option.map_eq_some_iff.1 found
  split
  · next listed => exact kept id listed old oldFound
  · exact lawful.row oldFound

/-- The claims of lawful requests that were pending leave no trace when they are released. -/
theorem release_claims
    {ids : List RequestId}
    (pending : ∀ id ∈ ids, before.claimable id = true)
    (lawful : ∀ id ∈ ids, ∀ request, before.requests.get? id = some request → request.Lawful)
    (time : Timestamp) :
    (before.updateRequests ids (·.claim time)).updateRequests ids Request.release = before := by
  refine @eq_of_get? before _ before.requests fun id => ?_
  rw [SortedMap.get?_mapValues, get?_updateRequests, Option.map_map]
  by_cases listed : id ∈ ids
  · obtain ⟨request, found, waits⟩ := claimable_iff.1 (pending id listed)
    rw [found]
    simp [listed, (lawful id listed request found).release_claim waits]
  · simp [listed, Function.comp_def]

/-- Exchanges keep requests lawful. -/
theorem Lawful.writes
    (lawful : before.Lawful)
    {exchange : Exchange}
    (writes : before.Writes exchange after) :
    after.Lawful := by
  cases writes with
  | nothing claims completes => exact lawful
  | claim ids time now pending =>
      exact lawful.updateRequests ids fun id listed request found => (lawful.row found).claim _
  | complete ids outcome time now held =>
      refine lawful.updateRequests ids fun id listed request found => ?_
      obtain ⟨twin, twinFound, claimed, -⟩ := held id listed
      obtain rfl : twin = request := Option.some.inj (twinFound.symm.trans found)
      exact (lawful.row found).finish claimed outcome _
  | release ids =>
      exact lawful.updateRequests ids fun id listed request found => (lawful.row found).release

/-- Operations keep requests lawful. -/
theorem Lawful.step
    (lawful : before.Lawful)
    {operation : Operation}
    {made : List Addition}
    (updates : before.Updates (.operation operation) made after) :
    after.Lawful := by
  cases updates with
  | builder builder => exact ⟨lawful.row⟩
  | change change known => exact ⟨lawful.row⟩
  | refused => exact lawful
  | call now call => exact lawful.writes (writes_perform before now call)
  | buildset now submits =>
      constructor
      intro id request found
      rcases submits.request_cases found with ⟨submittedAt, created, -⟩ | earlier
      · exact .of_asSubmitted_eq (asSubmitted_of_mem_newRequests created)
      · exact lawful.row earlier

/-- Every request of a store that some operations reach is lawful. -/
theorem lawful_reached
    (firstRequest : RequestId)
    (operations : List Operation) :
    (Store.reached firstRequest operations).Lawful :=
  List.foldlRecOn operations Store.apply ⟨fun found => by cases found⟩
    fun store lawful operation _ => lawful.step (store.updates (.operation operation))

end Store
end BuildQueue
