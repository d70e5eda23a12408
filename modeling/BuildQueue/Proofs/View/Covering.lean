import BuildQueue.Proofs.Sample
import BuildQueue.Proofs.Store.History
import BuildQueue.Proofs.View.Fingerprint
import BuildQueue.Proofs.View.Loading

/-!
# Chains of redundant requests

Redundancy is transitive among the requests of a store: what a request makes redundant, each
request that makes it redundant in turn does as well. That requests of one buildset are redundant
with each other whatever their order fits in, since the identifiers of a buildset are not mixed
with those of others.
-/

namespace BuildQueue

namespace Store

variable {store : Store}

/-- The view of a request that is there has its identifiers. -/
theorem ids_of_view
    {id : RequestId}
    {request : Request}
    (found : store.requests.get? id = some request)
    {view : View}
    (assembled : store.view id = .ok view) :
    view.id = request.id ∧ view.buildsetId = request.buildsetId ∧
      view.builderId = request.builderId := by
  rw [view_of_get?_eq_some found] at assembled
  obtain ⟨_, _, _, _, _, -, -, -, -, -, rfl⟩ := View.consult_ofRequest_ok assembled
  exact ⟨rfl, rfl, rfl⟩

/-- A request whose view is assembled is there, and its view is of the same buildset and
builder. -/
theorem request_of_view
    (wellformed : Wellformed store)
    {id : RequestId}
    {view : View}
    (assembled : store.view id = .ok view) :
    ∃ request, store.requests.get? id = some request ∧ view.id = id ∧
      view.buildsetId = request.buildsetId ∧ view.builderId = request.builderId := by
  obtain ⟨request, found⟩ := get?_of_view_eq_ok assembled
  obtain ⟨same, fromRequest⟩ := ids_of_view found assembled
  exact ⟨request, found, same.trans (wellformed.keyed found), fromRequest⟩

/-- Views of one buildset have the same sources and properties. -/
theorem view_contents
    {id other : RequestId}
    {view twin : View}
    (assembled : store.view id = .ok view)
    (twinAssembled : store.view other = .ok twin)
    (same : view.buildsetId = twin.buildsetId) :
    view.sources = twin.sources ∧ view.properties = twin.properties := by
  obtain ⟨request, found⟩ := get?_of_view_eq_ok assembled
  obtain ⟨twinRequest, twinFound⟩ := get?_of_view_eq_ok twinAssembled
  rw [view_of_get?_eq_some found] at assembled
  rw [view_of_get?_eq_some twinFound] at twinAssembled
  obtain ⟨_, properties, stamps, fetched, sources, -, propertiesEq, stampsEq, fetchedEq,
    sourcesEq, rfl⟩ := View.consult_ofRequest_ok assembled
  obtain ⟨_, twinProperties, twinStamps, twinFetched, twinSources, -, twinPropertiesEq,
    twinStampsEq, twinFetchedEq, twinSourcesEq, rfl⟩ := View.consult_ofRequest_ok twinAssembled
  have buildset : request.buildsetId = twinRequest.buildsetId := same
  rw [buildset] at propertiesEq stampsEq sourcesEq
  obtain rfl : properties = twinProperties :=
    Except.ok.inj (propertiesEq.symm.trans twinPropertiesEq)
  obtain rfl : stamps = twinStamps := Except.ok.inj (stampsEq.symm.trans twinStampsEq)
  obtain rfl : fetched = twinFetched := Except.ok.inj (fetchedEq.symm.trans twinFetchedEq)
  obtain rfl : sources = twinSources := Except.ok.inj (sourcesEq.symm.trans twinSourcesEq)
  exact ⟨rfl, rfl⟩

/-- The view of a request makes that of another request of the same builder redundant. -/
def Covers (store : Store) (new old : RequestId) : Prop :=
  ∃ newView oldView, store.view new = .ok newView ∧ store.view old = .ok oldView ∧
    newView.builderId = oldView.builderId ∧ newView.canCollapse oldView = true

/-- A request that is not older than one of some buildset, and not of this buildset, is newer than
all of the buildset. -/
theorem le_of_buildset
    (wellformed : Wellformed store)
    {a b c : RequestId}
    {viewA viewB viewC : View}
    (assembledA : store.view a = .ok viewA)
    (assembledB : store.view b = .ok viewB)
    (assembledC : store.view c = .ok viewC)
    (same : viewB.buildsetId = viewC.buildsetId)
    (different : viewA.buildsetId ≠ viewC.buildsetId)
    (below : b ≤ a) :
    c ≤ a := by
  obtain ⟨requestA, foundA, -, buildsetA, -⟩ := request_of_view wellformed assembledA
  obtain ⟨requestB, foundB, -, buildsetB, -⟩ := request_of_view wellformed assembledB
  obtain ⟨requestC, foundC, -, buildsetC, -⟩ := request_of_view wellformed assembledC
  by_contra above
  have low := wellformed.ordered foundB foundA below
  have high := wellformed.ordered foundA foundC (le_of_not_ge above)
  rw [← buildsetA, ← buildsetB, same] at low
  rw [← buildsetA, ← buildsetC] at high
  exact different (le_antisymm high low)

/-- A request that is not newer than one of some buildset, and not of this buildset, is older than
all of the buildset. -/
theorem ge_of_buildset
    (wellformed : Wellformed store)
    {a b c : RequestId}
    {viewA viewB viewC : View}
    (assembledA : store.view a = .ok viewA)
    (assembledB : store.view b = .ok viewB)
    (assembledC : store.view c = .ok viewC)
    (same : viewA.buildsetId = viewB.buildsetId)
    (different : viewA.buildsetId ≠ viewC.buildsetId)
    (below : c ≤ b) :
    c ≤ a := by
  by_contra above
  have differentB : viewC.buildsetId ≠ viewB.buildsetId := by
    rw [← same]
    exact different.symm
  exact differentB (by
    have higher := le_of_buildset wellformed assembledC assembledA assembledB same
      differentB (le_of_not_ge above)
    obtain rfl : b = c := le_antisymm higher below
    rw [assembledB] at assembledC
    cases assembledC
    rfl)

/-- What the view of a request makes redundant, each view that makes this one redundant does as
well, whatever the builders of the requests. -/
theorem canCollapse_trans
    (wellformed : Wellformed store)
    {a b c : RequestId}
    {viewA viewB viewC : View}
    (assembledA : store.view a = .ok viewA)
    (assembledB : store.view b = .ok viewB)
    (assembledC : store.view c = .ok viewC)
    (first : viewA.canCollapse viewB = true)
    (second : viewB.canCollapse viewC = true) :
    viewA.canCollapse viewC = true := by
  have idA : viewA.id = a := (request_of_view wellformed assembledA).choose_spec.2.1
  have idB : viewB.id = b := (request_of_view wellformed assembledB).choose_spec.2.1
  have idC : viewC.id = c := (request_of_view wellformed assembledC).choose_spec.2.1
  rw [View.canCollapse_iff, idA, idB] at first
  rw [View.canCollapse_iff, idB, idC] at second
  rw [View.canCollapse_iff, idA, idC]
  by_cases sameAC : viewA.buildsetId = viewC.buildsetId
  · exact .inl sameAC
  · refine .inr ?_
    rcases first with sameAB | ⟨belowBA, unpatchedA, unpatchedB, sameAB⟩
    · rcases second with sameBC | ⟨belowCB, unpatchedB, unpatchedC, sameBC⟩
      · exact absurd (sameAB.trans sameBC) sameAC
      · obtain ⟨sources, properties⟩ := view_contents assembledA assembledB sameAB
        refine ⟨ge_of_buildset wellformed assembledA assembledB assembledC sameAB sameAC belowCB,
          ?_, unpatchedC, ?_⟩
        · rwa [View.Unpatched, sources]
        · rwa [View.fingerprint_congr sources properties]
    · rcases second with sameBC | ⟨belowCB, -, unpatchedC, sameBC⟩
      · obtain ⟨sources, properties⟩ := view_contents assembledB assembledC sameBC
        refine ⟨le_of_buildset wellformed assembledA assembledB assembledC sameBC sameAC belowBA,
          unpatchedA, ?_, ?_⟩
        · rwa [View.Unpatched, ← sources]
        · rwa [← View.fingerprint_congr sources properties]
      · exact ⟨le_trans belowCB belowBA, unpatchedA, unpatchedC, sameAB.trans sameBC⟩

/-- Covering is transitive over a store. -/
theorem Covers.trans
    (wellformed : Wellformed store)
    {a b c : RequestId}
    (first : store.Covers a b)
    (second : store.Covers b c) :
    store.Covers a c := by
  obtain ⟨viewA, viewB, assembledA, assembledB, builderAB, collapseAB⟩ := first
  obtain ⟨viewB', viewC, assembledB', assembledC, builderBC, collapseBC⟩ := second
  obtain rfl : viewB = viewB' := Except.ok.inj (assembledB.symm.trans assembledB')
  exact ⟨viewA, viewC, assembledA, assembledC, builderAB.trans builderBC,
    canCollapse_trans wellformed assembledA assembledB assembledC collapseAB collapseBC⟩

/-- Redundancy is transitive over every store that was filled by submissions, also between requests
of different builders. -/
theorem redundancy_transitive
    {firstRequest : RequestId}
    {additions : List Addition}
    {a b c : RequestId}
    {viewA viewB viewC : View}
    (assembledA : (populated firstRequest additions).view a = .ok viewA)
    (assembledB : (populated firstRequest additions).view b = .ok viewB)
    (assembledC : (populated firstRequest additions).view c = .ok viewC)
    (first : viewA.canCollapse viewB = true)
    (second : viewB.canCollapse viewC = true) :
    viewA.canCollapse viewC = true :=
  canCollapse_trans (.populated firstRequest additions) assembledA assembledB assembledC first
    second

/-- Two submissions of the same to two builders. The first request of the second submission makes
the first one of all redundant, which in turn makes the other request of its buildset redundant,
although that one is newer. -/
theorem redundancy_transitive_fannedOut :
    ∃ viewA viewB viewC : View,
      Sample.fannedOut.view ⟨3⟩ = .ok viewA ∧ Sample.fannedOut.view ⟨1⟩ = .ok viewB ∧
        Sample.fannedOut.view ⟨2⟩ = .ok viewC ∧ viewB.id < viewC.id ∧
        viewA.canCollapse viewB = true ∧ viewB.canCollapse viewC = true ∧
        viewA.canCollapse viewC = true := by
  have evaluated :
      (do
        let viewA ← Sample.fannedOut.view ⟨3⟩
        let viewB ← Sample.fannedOut.view ⟨1⟩
        let viewC ← Sample.fannedOut.view ⟨2⟩
        return decide (viewB.id < viewC.id) && viewA.canCollapse viewB &&
          viewB.canCollapse viewC : Except Failure Bool).toOption = some true := by
    decide +kernel
  cases assembledA : Sample.fannedOut.view ⟨3⟩ with
  | error failure =>
      rw [assembledA] at evaluated
      cases evaluated
  | ok viewA =>
  cases assembledB : Sample.fannedOut.view ⟨1⟩ with
  | error failure =>
      rw [assembledA, assembledB] at evaluated
      cases evaluated
  | ok viewB =>
  cases assembledC : Sample.fannedOut.view ⟨2⟩ with
  | error failure =>
      rw [assembledA, assembledB, assembledC] at evaluated
      cases evaluated
  | ok viewC =>
  rw [assembledA, assembledB, assembledC] at evaluated
  have holds := Option.some.inj evaluated
  rw [Bool.and_eq_true, Bool.and_eq_true, decide_eq_true_iff] at holds
  obtain ⟨⟨older, first⟩, second⟩ := holds
  exact ⟨viewA, viewB, viewC, rfl, rfl, rfl, older, first, second,
    redundancy_transitive assembledA assembledB assembledC first second⟩

end Store
end BuildQueue
