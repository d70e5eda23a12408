import BuildQueue.Proofs.Sample
import BuildQueue.Proofs.Store.Links

/-!
# The requests of a submission

A submission that is accepted creates a pending request for each builder that it names and tells
their identifiers. These are all the requests of its buildset, but for rows that were put in for it
before it was there.
-/

namespace BuildQueue
namespace Store

variable {before after store : Store} {update : Update} {made : List Addition}
  {submission : Submission} {submitted : Submitted} {submittedAt : Timestamp} {id : RequestId}
  {request : Request}

/-- What is new in a store after a submission, and what the submitter is told of it. -/
structure Creates
    (before : Store)
    (submission : Submission)
    (submitted : Submitted)
    (after : Store) : Prop where
  /-- The submitter is told of a request for each builder that was named, and for no other. -/
  named : ∀ builderId,
    submitted.requestIds.contains builderId = true ↔ builderId ∈ submission.builderIds
  /-- The request that the submitter is told for a builder is a new one of this builder. -/
  told : ∀ {builderId id}, submitted.requestIds.get? builderId = some id →
    before.requests.get? id = none ∧
      ∃ request, after.requests.get? id = some request ∧ request.builderId = builderId
  /-- The new requests are requests of the buildset for builders that were named. They are neither
  claimed nor complete. -/
  fresh : ∀ {id request}, before.requests.get? id = none →
    after.requests.get? id = some request →
    request.id = id ∧ request.buildsetId = submitted.buildsetId ∧
      request.builderId ∈ submission.builderIds ∧ request.asSubmitted = request
  /-- The requests that were there before are as they were. -/
  kept : ∀ {id request}, before.requests.get? id = some request →
    after.requests.get? id = some request

/-- How the requests of a store after a submission go with what the submitter is told. -/
structure Accounts (before : Store) (submitted : Submitted) (after : Store) : Prop where
  /-- The requests of the buildset are those that the submitter is told, and those that were there
  for it before. -/
  rows : ∀ id,
    (∃ request, after.requests.get? id = some request ∧
      request.buildsetId = submitted.buildsetId) ↔
    id ∈ submitted.requestIds.values ∨
      ∃ request, before.requests.get? id = some request ∧
        request.buildsetId = submitted.buildsetId
  /-- The request that the submitter is told for a builder is the one new request of it. -/
  one : ∀ builderId id, submitted.requestIds.get? builderId = some id ↔
    before.requests.get? id = none ∧
      ∃ request, after.requests.get? id = some request ∧ request.builderId = builderId

theorem Submits.creates
    (submits : before.Submits submission submitted after)
    (keyed : before.Keyed) :
    before.Creates submission submitted after := by
  obtain ⟨submittedAt, requestIds, found_iff⟩ := submits.get?_eq_some_iff keyed
  constructor
  case named =>
    intro builderId
    rw [requestIds, SortedMap.contains_ofList, List.map_map,
      ← newRequests_builderIds before submission submittedAt]
    rfl
  case told =>
    intro builderId id told
    rw [requestIds, SortedMap.ofList] at told
    rcases SortedMap.get?_insertAll_cases told with listed | none
    · obtain ⟨request, created, same⟩ := List.mem_map.1 listed
      cases same
      exact ⟨keyed.get?_of_mem_newRequests created, request,
        (found_iff request.id request).2 (.inl ⟨created, rfl⟩), rfl⟩
    · cases none
  case fresh =>
    intro id request missing found
    rcases (found_iff id request).1 found with ⟨created, same⟩ | earlier
    · obtain ⟨index, listed, -, buildset⟩ := mem_newRequests created
      exact ⟨same, buildset.trans submits.buildsetId.symm, List.mem_of_getElem? listed,
        asSubmitted_of_mem_newRequests created⟩
    · rw [missing] at earlier
      cases earlier
  case kept => exact submits.kept keyed

/-- Unless a builder is named twice, the submitter is told of every new request. -/
theorem Submits.get?_requestIds
    (submits : before.Submits submission submitted after)
    (keyed : before.Keyed)
    (once : submission.builderIds.Nodup)
    (missing : before.requests.get? id = none)
    (found : after.requests.get? id = some request) :
    submitted.requestIds.get? request.builderId = some id := by
  obtain ⟨submittedAt, requestIds, found_iff⟩ := submits.get?_eq_some_iff keyed
  rcases (found_iff id request).1 found with ⟨created, rfl⟩ | earlier
  · rw [requestIds, SortedMap.get?_ofList_eq_some_iff]
    · exact List.mem_map.2 ⟨request, created, rfl⟩
    · rw [List.map_map]
      exact (newRequests_builderIds before submission submittedAt).symm ▸ once
  · rw [missing] at earlier
    cases earlier

/-- A submission that names no builder twice accounts for its requests. -/
theorem Submits.accounts
    (submits : before.Submits submission submitted after)
    (keyed : before.Keyed)
    (once : submission.builderIds.Nodup) :
    before.Accounts submitted after := by
  have creates := submits.creates keyed
  constructor
  case one =>
    intro builderId id
    constructor
    · exact creates.told
    · rintro ⟨missing, request, found, rfl⟩
      exact submits.get?_requestIds keyed once missing found
  case rows =>
    intro id
    rw [SortedMap.mem_values_iff]
    constructor
    · rintro ⟨request, found, buildset⟩
      cases earlier : before.requests.get? id with
      | none => exact .inl ⟨_, submits.get?_requestIds keyed once earlier found⟩
      | some twin =>
          have same : some twin = some request := (creates.kept earlier).symm.trans found
          cases same
          exact .inr ⟨request, rfl, buildset⟩
    · rintro (⟨builderId, told⟩ | ⟨request, earlier, buildset⟩)
      · obtain ⟨missing, request, found, -⟩ := creates.told told
        exact ⟨request, found, (creates.fresh missing found).2.1⟩
      · exact ⟨request, creates.kept earlier, buildset⟩

/-! ## Requests of buildsets to come -/

/-- The requests of buildsets that are not there yet are of some origin. -/
def Foreseen (origin : RequestId → BuildsetId → Prop) (store : Store) : Prop :=
  ∀ id request, store.requests.get? id = some request → store.nextBuildset ≤ request.buildsetId →
    origin id request.buildsetId

/-- Only rows that are put in may belong to a buildset that is not there yet. -/
theorem Updates.foreseen
    (updates : before.Updates update made after)
    {origin : RequestId → BuildsetId → Prop}
    (foreseen : before.Foreseen origin)
    (inserted : ∀ row, update = .insert row → origin row.id row.buildsetId) :
    after.Foreseen origin := by
  cases updates with
  | builder builder => exact foreseen
  | change change known => exact foreseen
  | refused => exact foreseen
  | call now call =>
      intro id request found ahead
      have alike := asSubmitted_perform before now call
      obtain ⟨twin, twinFound, same⟩ := get?_of_asSubmitted alike found
      have nextBuildset : (before.perform now call).2.nextBuildset = before.nextBuildset := by
        simpa only [asSubmitted] using congrArg Store.nextBuildset alike
      rw [nextBuildset, ← Request.buildsetId_of_asSubmitted same] at ahead
      rw [← Request.buildsetId_of_asSubmitted same]
      exact foreseen id twin twinFound ahead
  | buildset now submits =>
      intro id request found ahead
      rw [submits.nextBuildset, Ident.next_le_iff] at ahead
      rcases submits.request_cases found with ⟨submittedAt, created, -⟩ | earlier
      · obtain ⟨index, -, -, buildset⟩ := mem_newRequests created
        rw [buildset] at ahead
        exact absurd ahead (lt_irrefl _)
      · exact foreseen id request earlier (le_of_lt ahead)
  | insert row =>
      intro id request found ahead
      rcases insertRequest_cases found with ⟨rfl, rfl⟩ | earlier
      · exact inserted request rfl
      · exact foreseen id request earlier ahead

/-- In every store a request of a buildset that is not there yet was put in for it. -/
theorem foreseen_evolved (firstRequest : RequestId) (updates : List Update) :
    (evolved firstRequest updates).Foreseen fun id buildsetId =>
      ∃ row, .insert row ∈ updates ∧ row.id = id ∧ row.buildsetId = buildsetId := by
  apply evolve_induction updates
  · intro id request found
    cases found
  · intro before update after listed updates foreseen
    apply updates.foreseen foreseen
    rintro row rfl
    exact ⟨row, listed, rfl, rfl⟩

/-- A submission that is accepted accounts for its requests. The submitter is told of a request for
each builder that was named and for no other. The new requests are neither claimed nor complete, and
all others stay as they were. If no builder is named twice, then the request that is told for a
builder is the one new request of it, and the requests of the buildset are those that are told and
rows that were put in for this buildset before it was there. -/
theorem submission_accounted
    {firstRequest : RequestId}
    {updates : List Update}
    {now : Timestamp}
    (accepted : (evolved firstRequest updates).addBuildset submission now =
      .ok (submitted, after)) :
    let known := evolved firstRequest updates
    known.Creates submission submitted after ∧
      (submission.builderIds.Nodup → known.Accounts submitted after) ∧
      ∀ id request, known.requests.get? id = some request →
        request.buildsetId = submitted.buildsetId →
        ∃ row, .insert row ∈ updates ∧ row.id = id ∧ row.buildsetId = submitted.buildsetId := by
  intro known
  have submits := Store.submits accepted
  have keyed := keyed_evolved firstRequest updates
  refine ⟨submits.creates keyed, submits.accounts keyed, ?_⟩
  intro id request found buildset
  have ahead : known.nextBuildset ≤ request.buildsetId := by
    rw [buildset, submits.buildsetId]
  obtain ⟨row, listed, sameId, sameBuildset⟩ :=
    foreseen_evolved firstRequest updates id request found ahead
  exact ⟨row, listed, sameId, sameBuildset.trans buildset⟩

/-- A submission to two builders, for whose buildset a request was put in already. -/
theorem submission_accounted_early :
    let updates : List Update :=
      [.operation (.add (.builder Sample.linux)), .operation (.add (.builder Sample.mac)),
        .insert Sample.early]
    let known := evolved ⟨1⟩ updates
    ∃ submitted after,
      known.addBuildset (Sample.submission [Sample.linux.id, Sample.mac.id]) Sample.submittedAt =
        .ok (submitted, after) ∧
      submitted.requestIds.values = [⟨6⟩, ⟨7⟩] ∧
      known.Accounts submitted after ∧
      ∃ row, .insert row ∈ updates ∧ row.id = ⟨5⟩ ∧ row.buildsetId = submitted.buildsetId := by
  intro updates known
  refine ⟨_, _, rfl, by decide +kernel, ?_⟩
  obtain ⟨-, accounts, foreseen⟩ := submission_accounted
    (rfl : known.addBuildset (Sample.submission [Sample.linux.id, Sample.mac.id])
      Sample.submittedAt = _)
  exact ⟨accounts (by decide), foreseen ⟨5⟩ Sample.early rfl rfl⟩

/-- A request that was put in for a buildset before it was there belongs to it, though the submitter
is not told of it; nor is the submitter told of the first of two requests for a builder that is
named twice. -/
theorem submission_not_accounted :
    (let known := evolved ⟨1⟩ [.operation (.add (.builder Sample.linux)), .insert Sample.early]
    ∃ submitted after,
      known.addBuildset (Sample.submission [Sample.linux.id]) Sample.submittedAt =
        .ok (submitted, after) ∧
      after.requests.get? ⟨5⟩ = some Sample.early ∧
      Sample.early.buildsetId = submitted.buildsetId ∧
      ⟨5⟩ ∉ submitted.requestIds.values) ∧
    ∃ submitted after request,
      Sample.ready.addBuildset (Sample.submission [Sample.linux.id, Sample.linux.id])
        Sample.submittedAt = .ok (submitted, after) ∧
      after.requests.get? ⟨1⟩ = some request ∧
      request.buildsetId = submitted.buildsetId ∧
      submitted.requestIds.values = [⟨2⟩] := by
  constructor
  · exact ⟨_, _, rfl, rfl, rfl, by decide +kernel⟩
  · exact ⟨_, _, _, rfl, rfl, rfl, by decide +kernel⟩

end Store
end BuildQueue
