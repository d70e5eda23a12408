import BuildQueue.Proofs.Sample
import BuildQueue.Proofs.Store.Links
import Mathlib.Data.List.Chain

/-!
# The numbering of requests

A submission numbers its requests in the order of its builders, from the identifier that the store
gives out next. This identifier never goes down, and it stays above all rows that are there, those
included that were put in as they are. So requests that are submitted later have larger identifiers,
and no row is ever overwritten by a submission. One that is refused takes no identifier.
-/

namespace BuildQueue
namespace Store

variable {before after store : Store} {update : Update} {made : List Addition}
  {submission : Submission} {submitted : Submitted} {now : Timestamp} {error : StoreError}

/-- A submission lists a builder that is not there, and it is refused for the first such builder. -/
def Lacks (store : Store) (submission : Submission) (error : StoreError) : Prop :=
  ∃ earlier builderId later, submission.builderIds = earlier ++ builderId :: later ∧
    (∀ other ∈ earlier, store.builders.contains other = true) ∧
    store.builders.contains builderId = false ∧ error = .unknownBuilder builderId

/-- How a submission numbers its requests: the identifiers that it gives them, in the order of the
builders that it lists. -/
structure Numbers
    (before : Store)
    (submission : Submission)
    (submitted : Submitted)
    (after : Store)
    (ids : List RequestId) : Prop where
  /-- There is an identifier for each builder that is listed. -/
  length : ids.length = submission.builderIds.length
  consecutive : ids.IsChain fun id following => following = id.next
  /-- The row of each identifier is new, and it is a request of its builder for the buildset. -/
  created : ∀ builderId id, (builderId, id) ∈ submission.builderIds.zip ids →
    before.requests.get? id = none ∧
      ∃ request, after.requests.get? id = some request ∧ request.id = id ∧
        request.builderId = builderId ∧ request.buildsetId = submitted.buildsetId
  /-- All other rows are as they were. -/
  kept : ∀ id, id ∉ ids → after.requests.get? id = before.requests.get? id
  /-- The submitter is told the identifiers; of a builder that is listed twice, the last one. -/
  told : submitted.requestIds = .ofList (submission.builderIds.zip ids)

/-! ## Refusals -/

/-- A submission is refused just if it lists a builder that is not there. -/
theorem addBuildset_eq_error_iff :
    store.addBuildset submission now = .error error ↔ store.Lacks submission error := by
  unfold addBuildset Lacks
  cases first : submission.builderIds.find? fun id => !store.builders.contains id with
  | none =>
      have known : ∀ id ∈ submission.builderIds, store.builders.contains id = true := by
        simpa using first
      constructor
      · intro refused
        cases refused
      · rintro ⟨earlier, builderId, later, listed, -, unknown, -⟩
        rw [known builderId (by simp [listed])] at unknown
        cases unknown
  | some unknown =>
      obtain ⟨lacking, earlier, later, listed, known⟩ := List.find?_eq_some_iff_append.1 first
      constructor
      · intro refused
        cases refused
        exact ⟨earlier, unknown, later, listed, by simpa using known, by simpa using lacking, rfl⟩
      · rintro ⟨others, builderId, rest, split, othersKnown, missing, rfl⟩
        have same : submission.builderIds.find? (fun id => !store.builders.contains id) =
            some builderId :=
          List.find?_eq_some_iff_append.2
            ⟨by simpa using missing, others, rest, split, by simpa using othersKnown⟩
        rw [first] at same
        cases same
        rfl

/-- A submission that is refused leaves the store as it is. -/
theorem updated_of_refused
    (refused : store.addBuildset submission now = .error error) :
    store.updated (.operation (.add (.buildset submission now))) = store := by
  simp only [updated, apply, add, refused]

/-! ## Identifiers -/

/-- No update lowers the identifier that is given out next. -/
theorem Updates.nextRequest_le
    (updates : before.Updates update made after) :
    before.nextRequest ≤ after.nextRequest := by
  cases updates with
  | buildset now submits =>
      rw [submits.nextRequest, Ident.le_iff]
      dsimp only
      omega
  | insert row => exact Int.le_max_left ..
  | call now call =>
      obtain ⟨requests, same⟩ := tables_perform before now call
      rw [same]
  | _ => exact le_refl _

theorem nextRequest_evolve (store : Store) (updates : List Update) :
    store.nextRequest ≤ (store.evolve updates).nextRequest :=
  evolve_induction (motive := fun after => store.nextRequest ≤ after.nextRequest) updates
    (le_refl _) fun _ _ _ _ updates below => le_trans below updates.nextRequest_le

theorem evolved_append (firstRequest : RequestId) (earlier later : List Update) :
    evolved firstRequest (earlier ++ later) = (evolved firstRequest earlier).evolve later :=
  List.foldl_append

theorem Keyed.evolve
    (keyed : store.Keyed)
    (updates : List Update) :
    (store.evolve updates).Keyed :=
  evolve_induction updates keyed fun _ _ _ _ updates keyed => keyed.step updates

/-- Requests that a submission creates are numbered from the identifier that is given out next. -/
theorem isChain_newRequests
    (store : Store)
    (submission : Submission)
    (submittedAt : Timestamp) :
    ((store.newRequests submission submittedAt).map Request.id).IsChain
      fun id following => following = id.next := by
  rw [newRequests_ids, List.isChain_map, List.range_eq_range']
  refine (List.isChain_range' 0 _ 1).imp ?_
  rintro index _ rfl
  exact Ident.ext (by simp [Ident.next, Int.add_assoc])

/-- A submission that is accepted takes the identifiers from the one that is given out next before
it up to the one that is given out next after it. -/
theorem Submits.numbers
    (submits : before.Submits submission submitted after)
    (keyed : before.Keyed) :
    ∃ ids, before.Numbers submission submitted after ids ∧
      ∀ id ∈ ids, before.nextRequest ≤ id ∧ id < after.nextRequest := by
  obtain ⟨submittedAt, requestIds, found_iff⟩ := submits.get?_eq_some_iff keyed
  let created := before.newRequests submission submittedAt
  have zipped : submission.builderIds.zip (created.map Request.id) =
      created.map fun request => (request.builderId, request.id) := by
    rw [← newRequests_builderIds before submission submittedAt, List.zip_map']
  refine ⟨created.map Request.id, ⟨?length, isChain_newRequests before submission submittedAt,
    ?created, ?kept, ?told⟩, ?bounds⟩
  case length =>
    rw [← newRequests_builderIds before submission submittedAt, List.length_map, List.length_map]
  case created =>
    intro builderId id listed
    rw [zipped, List.mem_map] at listed
    obtain ⟨request, new, same⟩ := listed
    cases same
    obtain ⟨index, -, -, buildset⟩ := mem_newRequests new
    exact ⟨keyed.get?_of_mem_newRequests new, request, (found_iff _ _).2 (.inl ⟨new, rfl⟩), rfl,
      rfl, buildset.trans submits.buildsetId.symm⟩
  case kept =>
    intro id other
    refine Option.ext fun request => (found_iff id request).trans (or_iff_right ?_)
    rintro ⟨new, rfl⟩
    exact other (List.mem_map_of_mem new)
  case told => rw [zipped, requestIds]
  case bounds =>
    intro id listed
    obtain ⟨request, new, rfl⟩ := List.mem_map.1 listed
    obtain ⟨index, position, number, -⟩ := mem_newRequests new
    have bound := (List.getElem?_eq_some_iff.1 position).1
    rw [submits.nextRequest, Ident.le_iff, Ident.lt_iff]
    dsimp only
    omega

/-- Requests are numbered in the order of their submissions, and no identifier is used twice. In
every store, rows that were put in as they are included, a submission is refused just if it lists a
builder that is not there, for the first such builder, and then leaves the store as it is. One that
is accepted gives its requests consecutive identifiers in the order of its builders. These are
larger than all that were in use at any time before, so no row is overwritten, and smaller than all
that later submissions give. -/
theorem submissions_numbered
    (firstRequest : RequestId)
    (updates : List Update)
    (submission : Submission)
    (now : Timestamp) :
    let store := evolved firstRequest updates
    (∀ error, store.addBuildset submission now = .error error ↔
      store.Lacks submission error) ∧
    (∀ error, store.addBuildset submission now = .error error →
      store.updated (.operation (.add (.buildset submission now))) = store) ∧
    ∀ submitted after, store.addBuildset submission now = .ok (submitted, after) →
      ∃ ids, store.Numbers submission submitted after ids ∧
        (∀ earlier later, updates = earlier ++ later →
          ∀ used request, (evolved firstRequest earlier).requests.get? used = some request →
          ∀ id ∈ ids, used < id) ∧
        ∀ further another time told last,
          (after.evolve further).addBuildset another time = .ok (told, last) →
          ∃ others, (after.evolve further).Numbers another told last others ∧
            ∀ id ∈ ids, ∀ other ∈ others, id < other := by
  intro store
  have keyed : store.Keyed := keyed_evolved firstRequest updates
  refine ⟨fun _ => addBuildset_eq_error_iff, fun _ => updated_of_refused, ?_⟩
  intro submitted after accepted
  have submits := Store.submits accepted
  obtain ⟨ids, numbers, bounds⟩ := submits.numbers keyed
  refine ⟨ids, numbers, ?earlier, ?later⟩
  case earlier =>
    rintro earlier later rfl used request found id listed
    have below : used < (evolved firstRequest earlier).nextRequest :=
      (keyed_evolved firstRequest earlier).below found
    have onwards : (evolved firstRequest earlier).nextRequest ≤ store.nextRequest := by
      change _ ≤ (evolved firstRequest (earlier ++ later)).nextRequest
      rw [evolved_append]
      exact nextRequest_evolve _ later
    exact lt_of_lt_of_le below (le_trans onwards (bounds id listed).1)
  case later =>
    intro further another time told last acceptedToo
    obtain ⟨others, numbersToo, boundsToo⟩ :=
      (Store.submits acceptedToo).numbers ((submits.keyed keyed).evolve further)
    refine ⟨others, numbersToo, fun id listed other listedToo => ?_⟩
    calc
      id < after.nextRequest := (bounds id listed).2
      _ ≤ (after.evolve further).nextRequest := nextRequest_evolve after further
      _ ≤ other := (boundsToo other listedToo).1

/-- Rows are put in under a larger and a smaller identifier, two builders are submitted to, and then
one of them again. -/
theorem submissions_numbered_inserted :
    let updates : List Update :=
      [.operation (.add (.builder Sample.linux)), .operation (.add (.builder Sample.mac)),
        .insert Sample.early, .insert { Sample.early with id := ⟨2⟩ }]
    let store := evolved ⟨3⟩ updates
    (store.addBuildset (Sample.submission [Sample.linux.id, ⟨99⟩, ⟨98⟩]) Sample.submittedAt =
        .error (.unknownBuilder ⟨99⟩) ∧
      store.Lacks (Sample.submission [Sample.linux.id, ⟨99⟩, ⟨98⟩]) (.unknownBuilder ⟨99⟩)) ∧
    ∃ submitted after told last ids others,
      store.addBuildset (Sample.submission [Sample.mac.id, Sample.linux.id])
        Sample.submittedAt = .ok (submitted, after) ∧
      after.addBuildset (Sample.submission [Sample.linux.id]) Sample.submittedAt =
        .ok (told, last) ∧
      store.Numbers (Sample.submission [Sample.mac.id, Sample.linux.id]) submitted after ids ∧
      after.Numbers (Sample.submission [Sample.linux.id]) told last others ∧
      (∀ id ∈ ids, ⟨5⟩ < id) ∧ ∀ id ∈ ids, ∀ other ∈ others, id < other := by
  intro updates store
  constructor
  · obtain ⟨refuses, -, -⟩ := submissions_numbered ⟨3⟩ updates
      (Sample.submission [Sample.linux.id, ⟨99⟩, ⟨98⟩]) Sample.submittedAt
    exact ⟨rfl, (refuses _).1 rfl⟩
  · obtain ⟨-, -, accepts⟩ := submissions_numbered ⟨3⟩ updates
      (Sample.submission [Sample.mac.id, Sample.linux.id]) Sample.submittedAt
    obtain ⟨ids, numbers, above, later⟩ := accepts _ _ rfl
    obtain ⟨others, numbersToo, below⟩ :=
      later [] (Sample.submission [Sample.linux.id]) Sample.submittedAt _ _ rfl
    exact ⟨_, _, _, _, ids, others, rfl, rfl, numbers, numbersToo,
      above updates [] rfl ⟨5⟩ Sample.early rfl, below⟩

end Store
end BuildQueue
