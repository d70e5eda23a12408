import BuildQueue.Proofs.Store.Updates

/-!
# Histories of a store

What submissions and calls make of an empty store. In every store that they reach the rows stand
under their own identifiers, the identifiers given out next are not in use, and requests that were
submitted later are those of later buildsets.
-/

namespace BuildQueue

namespace Store

/-- The store that some additions make of an empty one. -/
def populated (firstRequest : RequestId) (additions : List Addition) : Store :=
  additions.foldl add (startingAt firstRequest)

/-- The store that some operations make of an empty one. -/
def reached (firstRequest : RequestId) (operations : List Operation) : Store :=
  operations.foldl apply (startingAt firstRequest)

/-- What holds of every store that submissions and calls reach. -/
structure Wellformed (store : Store) : Prop where
  keyed : ∀ {id request}, store.requests.get? id = some request → request.id = id
  builderKeyed : ∀ {id builder}, store.builders.get? id = some builder → builder.id = id
  requestBelow : ∀ {id request}, store.requests.get? id = some request → id < store.nextRequest
  buildsetBelow : ∀ {id request}, store.requests.get? id = some request →
    request.buildsetId < store.nextBuildset
  /-- A newer request is not of an older buildset. -/
  ordered : ∀ {id other request twin}, store.requests.get? id = some request →
    store.requests.get? other = some twin → id ≤ other → request.buildsetId ≤ twin.buildsetId

/-- No buildset has two requests of one builder. -/
structure Single (store : Store) : Prop where
  unique : ∀ {id other request twin}, store.requests.get? id = some request →
    store.requests.get? other = some twin → request.buildsetId = twin.buildsetId →
    request.builderId = twin.builderId → id = other

namespace Wellformed

variable {store other : Store}

/-- The empty store is well formed. -/
theorem startingAt (firstRequest : RequestId) : Wellformed (startingAt firstRequest) where
  keyed found := by cases found
  builderKeyed found := by cases found
  requestBelow found := by cases found
  buildsetBelow found := by cases found
  ordered found := by cases found

theorem toKeyed (wellformed : Wellformed store) : store.Keyed :=
  ⟨wellformed.keyed, wellformed.requestBelow⟩

/-- What is well formed does not depend on claims and outcomes. -/
theorem of_asSubmitted
    (wellformed : Wellformed other)
    (alike : store.asSubmitted = other.asSubmitted) :
    Wellformed store := by
  have builders : store.builders = other.builders := by
    simpa only [asSubmitted] using congrArg Store.builders alike
  have keyed := wellformed.toKeyed.of_asSubmitted alike
  have nextBuildset : store.nextBuildset = other.nextBuildset := by
    simpa only [asSubmitted] using congrArg Store.nextBuildset alike
  have twin : ∀ {id request}, store.requests.get? id = some request →
      ∃ twin, other.requests.get? id = some twin ∧ twin.buildsetId = request.buildsetId := by
    intro id request found
    obtain ⟨twin, twinFound, same⟩ := get?_of_asSubmitted alike found
    exact ⟨twin, twinFound, Request.buildsetId_of_asSubmitted same⟩
  constructor
  case keyed => exact keyed.own
  case requestBelow => exact keyed.below
  case builderKeyed =>
    intro id builder found
    rw [builders] at found
    exact wellformed.builderKeyed found
  case buildsetBelow =>
    intro id request found
    obtain ⟨twin, twinFound, sameBuildset⟩ := twin found
    rw [nextBuildset, ← sameBuildset]
    exact wellformed.buildsetBelow twinFound
  case ordered =>
    intro id later request laterRequest found laterFound below
    obtain ⟨first, firstFound, sameBuildset⟩ := twin found
    obtain ⟨second, secondFound, laterBuildset⟩ := twin laterFound
    rw [← sameBuildset, ← laterBuildset]
    exact wellformed.ordered firstFound secondFound below

theorem addBuilder
    (wellformed : Wellformed store)
    (builder : Builder) :
    Wellformed (store.addBuilder builder) where
  keyed := wellformed.keyed
  builderKeyed := by
    intro id found foundAt
    rw [Store.addBuilder, SortedMap.get?_insert] at foundAt
    split at foundAt
    · next same =>
      cases foundAt
      exact (Std.LawfulEqCmp.eq_of_compare same).symm
    · exact wellformed.builderKeyed foundAt
  requestBelow := wellformed.requestBelow
  buildsetBelow := wellformed.buildsetBelow
  ordered := wellformed.ordered

theorem submits
    (wellformed : Wellformed store)
    {submission : Submission}
    {submitted : Submitted}
    (submits : store.Submits submission submitted other) :
    Wellformed other := by
  have keyed := submits.keyed wellformed.toKeyed
  constructor
  case keyed => exact keyed.own
  case requestBelow => exact keyed.below
  case builderKeyed =>
    intro id builder found
    rw [submits.builders] at found
    exact wellformed.builderKeyed found
  case buildsetBelow =>
    intro id row found
    rw [submits.nextBuildset, Ident.lt_iff]
    dsimp only [Ident.next]
    rcases submits.request_cases found with ⟨submittedAt, created, -⟩ | before
    · obtain ⟨index, -, -, buildset⟩ := mem_newRequests created
      rw [buildset]
      omega
    · have below := Ident.lt_iff.1 (wellformed.buildsetBelow before)
      omega
  case ordered =>
    intro id later row laterRow found laterFound below
    rcases submits.request_cases found with ⟨submittedAt, created, rfl⟩ | before
    · obtain ⟨index, -, number, buildset⟩ := mem_newRequests created
      rcases submits.request_cases laterFound with ⟨laterAt, laterCreated, -⟩ | laterBefore
      · obtain ⟨laterIndex, -, -, laterBuildset⟩ := mem_newRequests laterCreated
        rw [buildset, laterBuildset]
      · have laterBelow := Ident.lt_iff.1 (wellformed.requestBelow laterBefore)
        have inOrder := Ident.le_iff.1 below
        omega
    · rcases submits.request_cases laterFound with ⟨laterAt, laterCreated, -⟩ | laterBefore
      · obtain ⟨laterIndex, -, -, laterBuildset⟩ := mem_newRequests laterCreated
        rw [laterBuildset]
        exact le_of_lt (wellformed.buildsetBelow before)
      · exact wellformed.ordered before laterBefore below

/-- Operations keep a store well formed. -/
theorem step
    (wellformed : Wellformed store)
    {operation : Operation}
    {made : List Addition}
    (updates : store.Updates (.operation operation) made other) :
    Wellformed other := by
  cases updates with
  | builder builder => exact wellformed.addBuilder builder
  | buildset now submits => exact wellformed.submits submits
  | change change known =>
      exact ⟨wellformed.keyed, wellformed.builderKeyed, wellformed.requestBelow,
        wellformed.buildsetBelow, wellformed.ordered⟩
  | refused => exact wellformed
  | call now call => exact wellformed.of_asSubmitted (asSubmitted_perform store now call)

theorem apply
    (wellformed : Wellformed store)
    (operation : Operation) :
    Wellformed (store.apply operation) :=
  wellformed.step (store.updates (.operation operation))

theorem add
    (wellformed : Wellformed store)
    (addition : Addition) :
    Wellformed (store.add addition) :=
  wellformed.apply (.add addition)

/-- Every store that some additions make is well formed. -/
theorem populated
    (firstRequest : RequestId)
    (additions : List Addition) :
    Wellformed (Store.populated firstRequest additions) :=
  List.foldlRecOn additions Store.add (startingAt firstRequest)
    fun _ wellformed addition _ => wellformed.add addition

/-- Every store that some operations reach is well formed. -/
theorem reached
    (firstRequest : RequestId)
    (operations : List Operation) :
    Wellformed (Store.reached firstRequest operations) :=
  List.foldlRecOn operations Store.apply (startingAt firstRequest)
    fun _ wellformed operation _ => wellformed.apply operation

end Wellformed

namespace Single

variable {store after : Store}

theorem submits
    (single : Single store)
    (wellformed : Wellformed store)
    {submission : Submission}
    (once : submission.builderIds.Nodup)
    {submitted : Submitted}
    (submits : store.Submits submission submitted after) :
    Single after := by
  constructor
  intro id other row twin found twinFound sameBuildset sameBuilder
  rcases submits.request_cases found with ⟨submittedAt, created, rfl⟩ | before
  · obtain ⟨index, listed, number, buildset⟩ := mem_newRequests created
    rcases submits.request_cases twinFound with ⟨twinAt, twinCreated, rfl⟩ | twinBefore
    · obtain ⟨twinIndex, twinListed, twinNumber, -⟩ := mem_newRequests twinCreated
      rw [sameBuilder, ← twinListed] at listed
      have bound := (List.getElem?_eq_some_iff.1 twinListed).1
      have sameIndex : twinIndex = index :=
        (List.getElem?_inj bound once).1 listed.symm
      refine Ident.ext ?_
      rw [number, twinNumber, sameIndex]
    · have older := wellformed.buildsetBelow twinBefore
      rw [← sameBuildset, buildset] at older
      exact absurd older (lt_irrefl _)
  · rcases submits.request_cases twinFound with ⟨twinAt, twinCreated, -⟩ | twinBefore
    · obtain ⟨twinIndex, -, -, twinBuildset⟩ := mem_newRequests twinCreated
      have older := wellformed.buildsetBelow before
      rw [sameBuildset, twinBuildset] at older
      exact absurd older (lt_irrefl _)
    · exact single.unique before twinBefore sameBuildset sameBuilder

/-- An addition that lists no builder twice gives no buildset two requests of one builder. -/
theorem step
    (single : Single store)
    (wellformed : Wellformed store)
    {addition : Addition}
    (once : addition.ListsOnce)
    {made : List Addition}
    (updates : store.Updates (.operation (.add addition)) made after) :
    Single after := by
  cases updates with
  | builder builder => exact ⟨single.unique⟩
  | buildset now submits => exact single.submits wellformed once submits
  | change change known => exact ⟨single.unique⟩
  | refused => exact single

/-- Unless an addition lists a builder twice, no buildset has two requests of one builder. -/
theorem populated
    (firstRequest : RequestId)
    (additions : List Addition)
    (once : ∀ addition ∈ additions, addition.ListsOnce) :
    Single (Store.populated firstRequest additions) := by
  have empty : Single (startingAt firstRequest) := ⟨fun found => by cases found⟩
  have both : Wellformed (Store.populated firstRequest additions) ∧
      Single (Store.populated firstRequest additions) :=
    List.foldlRecOn (motive := fun store => Wellformed store ∧ Single store) additions Store.add
      ⟨.startingAt firstRequest, empty⟩ fun _ invariant addition listed =>
        ⟨invariant.1.add addition,
          invariant.2.step invariant.1 (once addition listed)
            (Store.updates _ (.operation (.add addition)))⟩
  exact both.2

end Single

end Store
end BuildQueue
