import BuildQueue.Proofs.Pass.Alone
import BuildQueue.Proofs.Sample
import Mathlib.Data.Set.Finite.Lemmas

/-!
# Stand-ins

What remains of a request that a pass has retired. The new request that retires it may be retired by
another new request in the same pass, which then retires the first one as well; the newest of them
stays. A pass asks nothing of its new requests, so this one may have been completed before.

Requests of one buildset retire each other. If a pass is given two of them for one builder, as a
submission creates them that lists a builder twice, then it may retire both.
-/

namespace BuildQueue

namespace Store

variable {store : Store} {policy : Policy Strategy} {a b c : RequestId}

/-- Of two requests of one buildset, the view of one can be assembled if that of the other can. -/
theorem exists_view_of_buildset
    {request twin : Request}
    (found : store.requests.get? a = some request)
    (twinFound : store.requests.get? b = some twin)
    (same : request.buildsetId = twin.buildsetId)
    (assembled : ∃ view, store.view a = .ok view) :
    ∃ view, store.view b = .ok view := by
  obtain ⟨view, assembled⟩ := assembled
  have both : (store.view a).isOk = (store.view b).isOk := by
    rw [view_of_get?_eq_some found, view_of_get?_eq_some twinFound]
    exact View.isOk_consult_ofRequest same
  cases outcome : store.view b with
  | ok view => exact ⟨view, rfl⟩
  | error failure =>
      rw [assembled, outcome] at both
      cases both

/-- Requests of one buildset and one builder cover each other, as soon as there are views. -/
theorem covers_of_buildset
    (wellformed : Wellformed store)
    {request twin : Request}
    (found : store.requests.get? a = some request)
    (twinFound : store.requests.get? b = some twin)
    (sameBuildset : request.buildsetId = twin.buildsetId)
    (sameBuilder : request.builderId = twin.builderId)
    (assembled : ∃ view, store.view a = .ok view) :
    store.Covers a b := by
  obtain ⟨twinView, twinAssembled⟩ :=
    exists_view_of_buildset found twinFound sameBuildset assembled
  obtain ⟨view, assembled⟩ := assembled
  obtain ⟨request', found', -, buildset, builder⟩ := request_of_view wellformed assembled
  obtain ⟨twin', twinFound', -, twinBuildset, twinBuilder⟩ :=
    request_of_view wellformed twinAssembled
  obtain rfl : request' = request := Option.some.inj (found'.symm.trans found)
  obtain rfl : twin' = twin := Option.some.inj (twinFound'.symm.trans twinFound)
  refine ⟨view, twinView, assembled, twinAssembled, ?_, View.canCollapse_iff.2 (.inl ?_)⟩
  · rw [builder, twinBuilder, sameBuilder]
  · rw [buildset, twinBuildset, sameBuildset]

/-- A request that covers another one makes it redundant. -/
theorem redundant_of_covers
    (wellformed : Wellformed store)
    {request twin : Request}
    (found : store.requests.get? a = some request)
    (twinFound : store.requests.get? b = some twin)
    (different : a ≠ b)
    (covers : store.Covers a b) :
    store.Redundant request twin := by
  have id := wellformed.keyed found
  have twinId := wellformed.keyed twinFound
  have covering := covers
  obtain ⟨view, twinView, assembled, twinAssembled, -, collapsible⟩ := covering
  obtain ⟨request', found', viewId, buildset, -⟩ := request_of_view wellformed assembled
  obtain ⟨twin', twinFound', twinViewId, twinBuildset, -⟩ :=
    request_of_view wellformed twinAssembled
  obtain rfl : request' = request := Option.some.inj (found'.symm.trans found)
  obtain rfl : twin' = twin := Option.some.inj (twinFound'.symm.trans twinFound)
  rcases View.canCollapse_iff.1 collapsible with same | ⟨below, -⟩
  · exact .inl (buildset.symm.trans (same.trans twinBuildset))
  · rw [viewId, twinViewId] at below
    rw [Redundant, id, twinId]
    exact .inr ⟨lt_of_le_of_ne below (Ne.symm different), covers⟩

/-- What a request retires, each request that retires it retires as well. -/
theorem Retires.trans
    (wellformed : Wellformed store)
    (first : store.Retires policy a b)
    (second : store.Retires policy b c)
    (different : a ≠ c) :
    store.Retires policy a c := by
  obtain ⟨-, requestA, requestB, builder, foundA, foundB, builderFound, enabled, builderAB,
    redundantAB⟩ := first
  obtain ⟨-, requestB', requestC, -, foundB', foundC, -, -, builderBC, redundantBC⟩ := second
  obtain rfl : requestB' = requestB := Option.some.inj (foundB'.symm.trans foundB)
  refine ⟨different, requestA, requestC, builder, foundA, foundC, builderFound, enabled,
    builderAB.trans builderBC, ?_⟩
  rcases redundantAB with sameAB | ⟨-, coversAB⟩
  · rcases redundantBC with sameBC | ⟨-, coversBC⟩
    · exact .inl (sameAB.trans sameBC)
    · rw [wellformed.keyed foundB, wellformed.keyed foundC] at coversBC
      have assembled : ∃ view, store.view b = .ok view :=
        ⟨coversBC.choose, coversBC.choose_spec.choose_spec.1⟩
      have coversAB := covers_of_buildset wellformed foundA foundB sameAB builderAB
        (exists_view_of_buildset foundB foundA sameAB.symm assembled)
      exact redundant_of_covers wellformed foundA foundC different
        (coversAB.trans wellformed coversBC)
  · rw [wellformed.keyed foundA, wellformed.keyed foundB] at coversAB
    rcases redundantBC with sameBC | ⟨-, coversBC⟩
    · have assembled : ∃ view, store.view b = .ok view :=
        ⟨coversAB.choose_spec.choose, coversAB.choose_spec.choose_spec.2.1⟩
      have coversBC := covers_of_buildset wellformed foundB foundC sameBC builderBC assembled
      exact redundant_of_covers wellformed foundA foundC different
        (coversAB.trans wellformed coversBC)
    · rw [wellformed.keyed foundB, wellformed.keyed foundC] at coversBC
      exact redundant_of_covers wellformed foundA foundC different
        (coversAB.trans wellformed coversBC)

/-- A request that retires another one of a different buildset is the newer of the two. -/
theorem Retires.cases
    (wellformed : Wellformed store)
    (retires : store.Retires policy a b) :
    b < a ∨ ∃ request twin, store.requests.get? a = some request ∧
      store.requests.get? b = some twin ∧ request.buildsetId = twin.buildsetId ∧
      request.builderId = twin.builderId := by
  obtain ⟨-, request, twin, -, found, twinFound, -, -, sameBuilder, same | ⟨newer, -⟩⟩ := retires
  · exact .inr ⟨request, twin, found, twinFound, same, sameBuilder⟩
  · rw [wellformed.keyed found, wellformed.keyed twinFound] at newer
    exact .inl newer

/-- The views of a request and of one that it retires show that the second is redundant. -/
theorem Retires.canCollapse
    (wellformed : Wellformed store)
    (retires : store.Retires policy a b)
    {view twin : View}
    (assembled : store.view a = .ok view)
    (twinAssembled : store.view b = .ok twin) :
    view.canCollapse twin = true := by
  obtain ⟨-, request, twinRequest, -, found, twinFound, -, -, -, same | ⟨-, covers⟩⟩ := retires
  · obtain ⟨request', found', -, buildset, -⟩ := request_of_view wellformed assembled
    obtain ⟨twin', twinFound', -, twinBuildset, -⟩ := request_of_view wellformed twinAssembled
    obtain rfl : request' = request := Option.some.inj (found'.symm.trans found)
    obtain rfl : twin' = twinRequest := Option.some.inj (twinFound'.symm.trans twinFound)
    refine View.canCollapse_iff.2 (.inl ?_)
    rw [buildset, twinBuildset, same]
  · rw [wellformed.keyed found, wellformed.keyed twinFound] at covers
    obtain ⟨view', twin', assembled', twinAssembled', -, collapsible⟩ := covers
    obtain rfl : view' = view := Except.ok.inj (assembled'.symm.trans assembled)
    obtain rfl : twin' = twin := Except.ok.inj (twinAssembled'.symm.trans twinAssembled)
    exact collapsible

/-- No two of some requests are pending requests of one buildset and one builder. -/
def Apart (store : Store) (ids : List RequestId) : Prop :=
  ∀ {a b request twin}, a ∈ ids → b ∈ ids →
    store.requests.get? a = some request → store.requests.get? b = some twin →
    request.isPending = true → twin.isPending = true →
    request.buildsetId = twin.buildsetId → request.builderId = twin.builderId → a = b

variable {newIds ids : List RequestId}

/-- Of two such requests that are pending, the newer one retires the other one, if any does. -/
theorem Apart.lt_of_retires
    (wellformed : Wellformed store)
    (apart : store.Apart newIds)
    (listed : a ∈ newIds)
    (otherListed : b ∈ newIds)
    (pending : store.claimable a = true)
    (otherPending : store.claimable b = true)
    (retires : store.Retires policy a b) :
    b < a := by
  rcases retires.cases wellformed with newer | ⟨request, twin, found, twinFound, buildset, builder⟩
  · exact newer
  · obtain ⟨request', found', waiting⟩ := claimable_iff.1 pending
    obtain ⟨twin', twinFound', twinWaiting⟩ := claimable_iff.1 otherPending
    obtain rfl : request' = request := Option.some.inj (found'.symm.trans found)
    obtain rfl : twin' = twin := Option.some.inj (twinFound'.symm.trans twinFound)
    exact absurd (apart listed otherListed found twinFound waiting twinWaiting buildset builder)
      retires.1

/-- Among the requests that retire a pending one there is one that is not retired itself, or not
pending. -/
theorem Apart.exists_standing
    (wellformed : Wellformed store)
    (apart : store.Apart newIds)
    (members : ∀ {id}, id ∈ ids ↔
      store.claimable id = true ∧ ∃ new ∈ newIds, store.Retires policy new id)
    {old : RequestId}
    (retired : old ∈ ids) :
    ∃ new ∈ newIds, store.Retires policy new old ∧ new ∉ ids := by
  by_contra none
  obtain ⟨pending, first, firstListed, firstRetires⟩ := members.1 retired
  have finite : {new | new ∈ newIds ∧ store.Retires policy new old}.Finite :=
    (List.finite_toSet newIds).subset fun _ retiring => retiring.1
  -- The newest request that retires the old one is retired as well, but not by an older one.
  obtain ⟨newest, ⟨listed, retires⟩, above⟩ :=
    Set.exists_max_image _ (fun id => id) finite ⟨first, firstListed, firstRetires⟩
  have newestRetired : newest ∈ ids := by
    by_contra standing
    exact none ⟨newest, listed, retires, standing⟩
  obtain ⟨newestPending, other, otherListed, otherRetires⟩ := members.1 newestRetired
  by_cases same : other = old
  · subst same
    have below := apart.lt_of_retires wellformed otherListed listed pending newestPending
      otherRetires
    have beyond := apart.lt_of_retires wellformed listed otherListed newestPending pending retires
    exact absurd beyond (lt_asymm below)
  · have retiresOld := otherRetires.trans wellformed retires same
    have otherRetired : other ∈ ids := by
      by_contra standing
      exact none ⟨other, otherListed, retiresOld, standing⟩
    have beyond := apart.lt_of_retires wellformed otherListed listed (members.1 otherRetired).1
      newestPending otherRetires
    exact absurd (above other ⟨otherListed, retiresOld⟩) (not_le_of_gt beyond)

end Store

namespace World

/-- What a pass alone has retired has a stand-in: a new request that retires it, and whose row the
pass leaves as it was. No two of the new requests that were retired retire each other. -/
theorem exists_standIn
    {firstRequest : RequestId}
    {operations : List Operation}
    {world : World}
    (reached : world.store = .reached firstRequest operations)
    (clear : world.IsClear)
    (empty : world.views.entries = [])
    {policy : Policy Strategy}
    (standard : policy.IsStandard)
    {newIds ids : List RequestId}
    (apart : world.store.Apart newIds)
    (returned : (world.run (Pass.collapse policy newIds)).1 = .ok ids) :
    let after := (world.run (Pass.collapse policy newIds)).2.store
    (∀ old ∈ ids, ∃ new ∈ newIds, world.store.Retires policy new old ∧
      (∀ view twin, world.store.view new = .ok view → world.store.view old = .ok twin →
        view.canCollapse twin = true) ∧
      ∃ row, world.store.requests.get? new = some row ∧ after.requests.get? new = some row) ∧
    ∀ a ∈ newIds, ∀ b ∈ newIds, a ∈ ids → b ∈ ids →
      world.store.Retires policy a b → ¬ world.store.Retires policy b a := by
  intro after
  have wellformed : world.store.Wellformed := reached ▸ .reached firstRequest operations
  rcases run_collapse_cases wellformed clear empty standard newIds with
    ⟨failure, failed, -⟩ | ⟨ids', result, skipped⟩
  · rw [returned] at failed
    cases failed
  · obtain rfl : ids' = ids := Except.ok.inj (result.symm.trans returned)
    refine ⟨?standIn, ?once⟩
    case standIn =>
      intro old retired
      obtain ⟨new, listed, retires, standing⟩ :=
        apart.exists_standing wellformed skipped.mem_iff retired
      have retiring := retires
      obtain ⟨-, row, -, -, found, -⟩ := retiring
      exact ⟨new, listed, retires, fun view twin => retires.canCollapse wellformed, row, found,
        (skipped.get?_of_notMem standing).trans found⟩
    case once =>
      intro a listed b otherListed retired otherRetired first second
      have below := apart.lt_of_retires wellformed listed otherListed (skipped.mem_iff.1 retired).1
        (skipped.mem_iff.1 otherRetired).1 first
      have above := apart.lt_of_retires wellformed otherListed listed
        (skipped.mem_iff.1 otherRetired).1 (skipped.mem_iff.1 retired).1 second
      exact absurd above (lt_asymm below)

/-- A pass retires the first of two requests for the same; the second one, which is being built, is
left as it is. -/
theorem exists_standIn_started :
    (Sample.collapse Sample.started [⟨2⟩]).1 = .ok [⟨1⟩] ∧
      Sample.started.Retires .standard ⟨2⟩ ⟨1⟩ ∧
      ∃ row, Sample.started.requests.get? ⟨2⟩ = some row ∧
        (Sample.collapse Sample.started [⟨2⟩]).2.store.requests.get? ⟨2⟩ = some row := by
  have returned : (Sample.collapse Sample.started [⟨2⟩]).1 = .ok [⟨1⟩] := by decide +kernel
  have apart : Sample.started.Apart [⟨2⟩] := by
    intro a b _ _ listed otherListed _ _ _ _ _ _
    rw [List.mem_singleton.1 listed, List.mem_singleton.1 otherListed]
  have standIn := exists_standIn (rfl : (Sample.world Sample.started).store = _) rfl rfl
    (Policy.isStandard_of_registered rfl) apart returned
  obtain ⟨new, listed, retires, -, row, found, kept⟩ :=
    standIn.1 ⟨1⟩ (List.mem_singleton.2 rfl)
  obtain rfl := List.mem_singleton.1 listed
  exact ⟨returned, retires, row, found, kept⟩

/-- What a pass retires may be left without a stand-in: if the new request was completed before, or
if two requests of one buildset are retired for each other. Then all requests are complete. -/
theorem not_exists_standIn :
    ((Sample.collapse Sample.rebuilt [⟨2⟩]).1 = .ok [⟨1⟩] ∧
      ∀ row ∈ (Sample.collapse Sample.rebuilt [⟨2⟩]).2.store.requests.values,
        row.complete = true) ∧
    ∃ ids, (Sample.collapse Sample.twins [⟨1⟩, ⟨2⟩]).1 = .ok ids ∧ ⟨1⟩ ∈ ids ∧ ⟨2⟩ ∈ ids ∧
      ∀ row ∈ (Sample.collapse Sample.twins [⟨1⟩, ⟨2⟩]).2.store.requests.values,
        row.complete = true := by
  refine ⟨⟨by decide +kernel, by decide +kernel⟩, ?_⟩
  have wellformed : (Sample.world Sample.twins).store.Wellformed := .reached ⟨1⟩ _
  have standard : (Policy.standard : Policy Strategy).IsStandard :=
    Policy.isStandard_of_registered rfl
  have assembles : Sample.twins.Assembles := by decide +kernel
  have known : ∀ new ∈ [⟨1⟩, ⟨2⟩], Sample.twins.requests.contains new = true := by
    decide +kernel
  have twoRequests : ∀ id ∈ Sample.twins.requests.keys, id = ⟨1⟩ ∨ id = ⟨2⟩ := by
    decide +kernel
  have first : Sample.twins.Retires .standard ⟨2⟩ ⟨1⟩ :=
    ⟨by decide, _, _, Sample.linux, rfl, rfl, rfl, by decide +kernel, rfl, .inl rfl⟩
  have second : Sample.twins.Retires .standard ⟨1⟩ ⟨2⟩ :=
    ⟨by decide, _, _, Sample.linux, rfl, rfl, rfl, by decide +kernel, rfl, .inl rfl⟩
  obtain ⟨ids, returned, skipped⟩ := exists_skipped wellformed rfl rfl assembles standard known
  have firstSkipped : ⟨1⟩ ∈ ids := skipped.mem_iff.2 ⟨by decide +kernel, ⟨2⟩, by simp, first⟩
  have secondSkipped : ⟨2⟩ ∈ ids := skipped.mem_iff.2 ⟨by decide +kernel, ⟨1⟩, by simp, second⟩
  refine ⟨ids, returned, firstSkipped, secondSkipped, fun row listed => ?_⟩
  obtain ⟨id, found⟩ := SortedMap.mem_values_iff.1 listed
  by_cases retired : id ∈ ids
  · exact skipped.complete retired found
  · have there := SortedMap.mem_keys_of_get?_eq_some
      ((skipped.get?_of_notMem retired).symm.trans found)
    rcases twoRequests id there with rfl | rfl
    · exact absurd firstSkipped retired
    · exact absurd secondSkipped retired

end World
end BuildQueue
