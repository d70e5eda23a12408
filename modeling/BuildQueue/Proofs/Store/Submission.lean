import BuildQueue.Proofs.Order
import BuildQueue.Proofs.SortedMap
import BuildQueue.Proofs.Store.Submitted

/-!
# Submissions that are accepted

`Submits` says what a submission makes of a store that accepts it, table by table. The requests that
it creates get identifiers of their own, which were not in use as long as the requests of the store
are `Keyed`; so all other requests stay as they are.
-/

namespace BuildQueue
namespace Store

variable {before after store : Store} {submission : Submission} {submitted : Submitted}
  {submittedAt : Timestamp} {id : RequestId} {request : Request}

/-! ## Requests that a submission creates -/

/-- A request that a submission creates. -/
theorem mem_newRequests
    (created : request ∈ store.newRequests submission submittedAt) :
    ∃ index : Nat, submission.builderIds[index]? = some request.builderId ∧
      request.id.number = store.nextRequest.number + index ∧
      request.buildsetId = store.nextBuildset := by
  obtain ⟨⟨builderId, index⟩, listed, rfl⟩ := List.mem_map.1 created
  exact ⟨index, List.mem_zipIdx_iff_getElem?.1 listed, rfl, rfl⟩

/-- The identifiers that a submission gives to its requests are in order and start with the next
one. -/
theorem newRequests_ids
    (store : Store)
    (submission : Submission)
    (submittedAt : Timestamp) :
    (store.newRequests submission submittedAt).map Request.id =
      (List.range submission.builderIds.length).map fun index =>
        ⟨store.nextRequest.number + index⟩ := by
  rw [newRequests, List.map_map, List.range_eq_range', ← List.zipIdx_map_snd, List.map_map]
  rfl

/-- A submission gives each of its requests an identifier of its own. -/
theorem nodup_newRequests
    (store : Store)
    (submission : Submission)
    (submittedAt : Timestamp) :
    ((store.newRequests submission submittedAt).map Request.id).Nodup := by
  rw [newRequests_ids]
  apply List.Nodup.map _ List.nodup_range
  intro first second same
  have numbers := congrArg Ident.number same
  dsimp only at numbers
  omega

theorem newRequests_builderIds
    (store : Store)
    (submission : Submission)
    (submittedAt : Timestamp) :
    (store.newRequests submission submittedAt).map Request.builderId = submission.builderIds := by
  rw [newRequests, List.map_map]
  exact List.zipIdx_map_fst 0 submission.builderIds

/-- Created requests are neither claimed nor complete. -/
theorem asSubmitted_of_mem_newRequests
    (created : request ∈ store.newRequests submission submittedAt) :
    request.asSubmitted = request := by
  obtain ⟨position, -, rfl⟩ := List.mem_map.1 created
  rfl

/-! ## Identifiers -/

/-- The requests stand under their own identifiers, and those given out next are not in use. -/
structure Keyed (store : Store) : Prop where
  own : ∀ {id request}, store.requests.get? id = some request → request.id = id
  below : ∀ {id request}, store.requests.get? id = some request → id < store.nextRequest

/-- What holds of the requests does not depend on claims and outcomes. -/
theorem Keyed.of_asSubmitted
    (keyed : before.Keyed)
    (alike : after.asSubmitted = before.asSubmitted) :
    after.Keyed := by
  have nextRequest : after.nextRequest = before.nextRequest := by
    simpa only [asSubmitted] using congrArg Store.nextRequest alike
  constructor
  case own =>
    intro id request found
    obtain ⟨twin, twinFound, same⟩ := get?_of_asSubmitted alike found
    rw [← Request.id_of_asSubmitted same]
    exact keyed.own twinFound
  case below =>
    intro id request found
    obtain ⟨twin, twinFound, -⟩ := get?_of_asSubmitted alike found
    rw [nextRequest]
    exact keyed.below twinFound

/-- The identifiers of created requests were not in use. -/
theorem Keyed.get?_of_mem_newRequests
    (keyed : before.Keyed)
    (created : request ∈ before.newRequests submission submittedAt) :
    before.requests.get? request.id = none := by
  obtain ⟨index, -, number, -⟩ := mem_newRequests created
  cases found : before.requests.get? request.id with
  | none => rfl
  | some earlier =>
      have below := Ident.lt_iff.1 (keyed.below found)
      omega

/-! ## What a submission does -/

/-- What a submission that was accepted has made of a store. -/
structure Submits
    (before : Store)
    (submission : Submission)
    (submitted : Submitted)
    (after : Store) : Prop where
  known : ∀ id ∈ submission.builderIds, before.builders.contains id = true
  buildsetId : submitted.buildsetId = before.nextBuildset
  builders : after.builders = before.builders
  nextBuildset : after.nextBuildset = before.nextBuildset.next
  nextRequest : after.nextRequest =
    ⟨before.nextRequest.number + submission.builderIds.length⟩
  buildsets : ∃ buildset, after.buildsets = before.buildsets.insert before.nextBuildset buildset
  properties : after.properties = before.properties.insert before.nextBuildset submission.properties
  stampIds : after.stampIds =
    before.stampIds.insert before.nextBuildset (submission.sourceStamps.map (·.id))
  sourceStamps : after.sourceStamps =
    before.sourceStamps.insertAll (submission.sourceStamps.map fun stamp => (stamp.id, stamp))
  changes : after.changes = before.changes
  created : ∃ submittedAt,
    submitted.requestIds = .ofList ((before.newRequests submission submittedAt).map
      fun request => (request.builderId, request.id)) ∧
    after.requests = before.requests.insertAll ((before.newRequests submission submittedAt).map
      fun request => (request.id, request))

theorem submits
    {now : Timestamp}
    (accepted : before.addBuildset submission now = .ok (submitted, after)) :
    before.Submits submission submitted after := by
  unfold addBuildset at accepted
  split at accepted
  · cases accepted
  · next none =>
    cases accepted
    have known : ∀ id ∈ submission.builderIds, before.builders.contains id = true := by
      simpa using none
    exact ⟨known, rfl, rfl, rfl, rfl, ⟨_, rfl⟩, rfl, rfl, rfl, rfl, _, rfl, rfl⟩

/-- A request of a store after a submission is one of those created, or was there before. -/
theorem Submits.request_cases
    (submits : before.Submits submission submitted after)
    (found : after.requests.get? id = some request) :
    (∃ submittedAt, request ∈ before.newRequests submission submittedAt ∧ request.id = id) ∨
      before.requests.get? id = some request := by
  obtain ⟨submittedAt, -, requests⟩ := submits.created
  rw [requests] at found
  exact (SortedMap.get?_insertAll_map_cases found).imp_left fun created => ⟨submittedAt, created⟩

/-- A submission leaves the requests as they are that are there. -/
theorem Submits.kept
    (submits : before.Submits submission submitted after)
    (keyed : before.Keyed)
    (found : before.requests.get? id = some request) :
    after.requests.get? id = some request := by
  obtain ⟨submittedAt, -, requests⟩ := submits.created
  rw [requests, SortedMap.get?_insertAll_of_notMem]
  · exact found
  · intro listed
    simp only [List.map_map, List.mem_map, Function.comp_apply] at listed
    obtain ⟨created, new, rfl⟩ := listed
    rw [keyed.get?_of_mem_newRequests new] at found
    cases found

/-- The requests of a store after a submission are those that were there and those created. -/
theorem Submits.get?_eq_some_iff
    (submits : before.Submits submission submitted after)
    (keyed : before.Keyed) :
    ∃ submittedAt,
      submitted.requestIds = .ofList ((before.newRequests submission submittedAt).map
        fun request => (request.builderId, request.id)) ∧
      ∀ id request, after.requests.get? id = some request ↔
        request ∈ before.newRequests submission submittedAt ∧ request.id = id ∨
          before.requests.get? id = some request := by
  obtain ⟨submittedAt, requestIds, requests⟩ := submits.created
  refine ⟨submittedAt, requestIds, fun id request => ⟨?_, ?_⟩⟩
  · intro found
    rw [requests] at found
    exact SortedMap.get?_insertAll_map_cases found
  · rintro (⟨created, rfl⟩ | earlier)
    · rw [requests]
      apply SortedMap.get?_insertAll_of_mem
      · rw [List.map_map]
        exact nodup_newRequests before submission submittedAt
      · exact List.mem_map.2 ⟨request, created, rfl⟩
    · exact submits.kept keyed earlier

/-- After a submission the requests stand under their own identifiers. -/
theorem Submits.keyed
    (submits : before.Submits submission submitted after)
    (keyed : before.Keyed) :
    after.Keyed := by
  constructor
  case own =>
    intro id request found
    rcases submits.request_cases found with ⟨submittedAt, -, same⟩ | earlier
    · exact same
    · exact keyed.own earlier
  case below =>
    intro id request found
    rw [submits.nextRequest, Ident.lt_iff]
    dsimp only
    rcases submits.request_cases found with ⟨submittedAt, created, rfl⟩ | earlier
    · obtain ⟨index, listed, number, -⟩ := mem_newRequests created
      have bound := (List.getElem?_eq_some_iff.1 listed).1
      omega
    · have below := Ident.lt_iff.1 (keyed.below earlier)
      omega

end Store
end BuildQueue
