import BuildQueue.Proofs.Sample
import BuildQueue.Proofs.Store.Chronicle
import BuildQueue.Proofs.Store.Lifecycle

/-!
# The permanence of requests

Submissions and calls never take a request out of a store. What was submitted of it stays as it is,
and once the request is complete all of it does. What one operation keeps, any number of further
operations keep.
-/

namespace BuildQueue

namespace Request

/-- How a request may have changed meanwhile: what was submitted of it is the same, and if it was
complete then everything is. -/
structure Continues (request later : Request) : Prop where
  submitted : later.asSubmitted = request.asSubmitted
  final : request.complete = true → later = request

variable {request middle later : Request}

theorem Continues.refl (request : Request) : request.Continues request :=
  ⟨rfl, fun _ => rfl⟩

theorem Continues.trans
    (first : request.Continues middle)
    (second : middle.Continues later) :
    request.Continues later where
  submitted := second.submitted.trans first.submitted
  final done := by
    have same : middle = request := first.final done
    subst same
    exact second.final done

/-- As long as a request is not complete, its claim and its outcome may change. -/
theorem Continues.of_incomplete
    (submitted : later.asSubmitted = request.asSubmitted)
    (incomplete : request.complete = false) :
    request.Continues later :=
  ⟨submitted, by simp [incomplete]⟩

/-- The release of a claim leaves a complete request as it is. -/
theorem continues_release (request : Request) : request.Continues request.release where
  submitted := asSubmitted_release request
  final done := by simp [release, done]

end Request

namespace Store

variable {before after store : Store} {id : RequestId} {request : Request}

/-- A change of some rows continues a row if it does so wherever it is made. -/
theorem continues_updateRequests
    {ids : List RequestId}
    {change : Request → Request}
    (found : before.requests.get? id = some request)
    (kept : id ∈ ids → request.Continues (change request)) :
    ∃ later, (before.updateRequests ids change).requests.get? id = some later ∧
      request.Continues later := by
  refine ⟨_, get?_updateRequests_eq_some found, ?_⟩
  split
  · next listed => exact kept listed
  · exact .refl request

/-- An exchange continues every row: only pending requests are claimed, and only those that are not
complete are completed. -/
theorem Writes.continues
    {exchange : Exchange}
    (writes : before.Writes exchange after)
    (found : before.requests.get? id = some request) :
    ∃ later, after.requests.get? id = some later ∧ request.Continues later := by
  cases writes with
  | nothing claims completes => exact ⟨request, found, .refl request⟩
  | claim ids time now pending =>
      apply continues_updateRequests found
      intro listed
      obtain ⟨twin, twinFound, twinPending⟩ := claimable_iff.1 (pending id listed)
      obtain rfl : twin = request := Option.some.inj (twinFound.symm.trans found)
      exact .of_incomplete rfl (Request.isPending_iff.1 twinPending).2
  | complete ids outcome time now held =>
      apply continues_updateRequests found
      intro listed
      obtain ⟨twin, twinFound, -, incomplete⟩ := held id listed
      obtain rfl : twin = request := Option.some.inj (twinFound.symm.trans found)
      exact .of_incomplete rfl incomplete
  | release ids =>
      apply continues_updateRequests found
      intro _
      exact request.continues_release

/-- An operation continues every row. -/
theorem Wellformed.continues_apply
    (wellformed : store.Wellformed)
    (operation : Operation)
    (found : store.requests.get? id = some request) :
    ∃ later, (store.apply operation).requests.get? id = some later ∧ request.Continues later := by
  cases operation with
  | add addition => exact ⟨request, wellformed.get?_add addition found, .refl request⟩
  | call now call => exact (writes_perform store now call).continues found

/-- Any number of operations continue every row. -/
theorem Wellformed.continues
    (wellformed : store.Wellformed)
    (operations : List Operation)
    (found : store.requests.get? id = some request) :
    ∃ later, (operations.foldl Store.apply store).requests.get? id = some later ∧
      request.Continues later := by
  induction operations generalizing store request with
  | nil => exact ⟨request, found, .refl request⟩
  | cons operation rest inductionHypothesis =>
      obtain ⟨middle, middleFound, first⟩ := wellformed.continues_apply operation found
      obtain ⟨later, laterFound, second⟩ :=
        inductionHypothesis (wellformed.apply operation) middleFound
      exact ⟨later, laterFound, first.trans second⟩

/-- The life of a request. In every store that operations reach, a request is claimed just if it
has a time of its claim, and complete just if it has an outcome, and just if it has a time of its
completion; a complete one is claimed. Whatever is done afterwards, the request is there, its
identifier, buildset, builder, builder name, priority, submission time and whether it is waited for
are what they were, and nothing of it changes if it was complete. -/
theorem request_lifecycle
    (firstRequest : RequestId)
    (operations later : List Operation)
    {id : RequestId}
    {request : Request}
    (found : (reached firstRequest operations).requests.get? id = some request) :
    request.Lawful ∧
      ∃ row, (reached firstRequest (operations ++ later)).requests.get? id = some row ∧
        request.Continues row := by
  have lawful := (lawful_reached firstRequest operations).row found
  have wellformed : (reached firstRequest operations).Wellformed := .reached firstRequest operations
  refine ⟨lawful, ?_⟩
  rw [reached, List.foldl_append]
  exact wellformed.continues later found

/-- A request that was built is not touched by a release, another claim and a new submission. -/
theorem request_lifecycle_rebuilt :
    let operations : List Operation :=
      Sample.resubmission.map .add ++
        [.call Sample.submittedAt (.claim [⟨2⟩] none),
          .call Sample.submittedAt (.complete [⟨2⟩] .success none)]
    let later : List Operation :=
      [.call Sample.submittedAt (.unclaim [⟨2⟩]),
        .call Sample.submittedAt (.claim [⟨1⟩, ⟨2⟩] none),
        .add (.buildset (Sample.submission [Sample.linux.id]) Sample.submittedAt)]
    ∃ row, (reached ⟨1⟩ operations).requests.get? ⟨2⟩ = some row ∧ row.complete = true ∧
      (reached ⟨1⟩ (operations ++ later)).requests.get? ⟨2⟩ = some row := by
  intro operations later
  have complete :
      ((reached ⟨1⟩ operations).requests.get? ⟨2⟩).map Request.complete = some true := by
    decide +kernel
  obtain ⟨request, found, done⟩ := Option.map_eq_some_iff.1 complete
  obtain ⟨-, row, laterFound, continues⟩ := request_lifecycle ⟨1⟩ operations later found
  rw [continues.final done] at laterFound
  exact ⟨request, found, done, laterFound⟩

end Store
end BuildQueue
