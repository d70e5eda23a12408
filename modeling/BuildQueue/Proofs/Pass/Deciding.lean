import BuildQueue.Proofs.View.Caching

/-!
# Deciding on requests and on their views

The standard strategy settles what it can by the requests themselves, and loads views only for the
rest. With a cache that holds nothing out of date it decides as comparing the views would: the
answers that take no view are those that the views would give, and the others are an error just if
one of the two views cannot be assembled.
-/

namespace BuildQueue

/-- What comparing two requests comes to, each view being assembled at once if it is needed. -/
def Store.decision (store : Store) (new old : Request) : Except Failure Bool :=
  if new.buildsetId = old.buildsetId then .ok true
  else if new.id < old.id then .ok false
  else do
    let newView ← store.view new.id
    let oldView ← store.view old.id
    return newView.canCollapse oldView

/-- Every view that the cache of the world holds is what loading it comes to now. -/
def World.UpToDate (world : World) : Prop :=
  ∀ id view filledAt, (id, .complete view filledAt) ∈ world.views.entries →
    (world.load id).1 = .ok view

/-- If two computations give a value one after the other then the first gives a value. -/
theorem exists_of_toOption_bind
    {α β ε : Type}
    {first : Except ε α}
    {next : α → Except ε β}
    {value : β}
    (given : (first >>= next).toOption = some value) :
    ∃ middle, first = .ok middle ∧ (next middle).toOption = some value := by
  cases first with
  | error error => cases given
  | ok middle => exact ⟨middle, rfl, given⟩

namespace Store

variable {store : Store} {new old : Request}

/-- Where the requests decide, their views decide the same. -/
theorem decision_eq_canCollapse
    (newFound : store.requests.get? new.id = some new)
    (oldFound : store.requests.get? old.id = some old)
    {newView oldView : View}
    (newAssembled : store.view new.id = .ok newView)
    (oldAssembled : store.view old.id = .ok oldView) :
    store.decision new old = .ok (newView.canCollapse oldView) := by
  obtain ⟨newId, newBuildset, -⟩ := ids_of_view newFound newAssembled
  obtain ⟨oldId, oldBuildset, -⟩ := ids_of_view oldFound oldAssembled
  have collapsible := @View.canCollapse_iff newView oldView
  rw [newId, newBuildset, oldId, oldBuildset] at collapsible
  unfold decision
  split
  · next same => rw [collapsible.2 (.inl same)]
  split
  · next different older =>
    have distinct : newView.canCollapse oldView = false := Bool.eq_false_iff.2 fun collapses =>
      absurd ((collapsible.1 collapses).resolve_left different).1 (not_le_of_gt older)
    rw [distinct]
  · rw [newAssembled, oldAssembled]
    rfl

/-- Where the requests do not decide, it is an error just if a view cannot be assembled. -/
theorem decision_eq_error_iff
    (different : new.buildsetId ≠ old.buildsetId)
    (notOlder : ¬new.id < old.id)
    {failure : Failure} :
    store.decision new old = .error failure ↔
      store.view new.id = .error failure ∨
        (∃ view, store.view new.id = .ok view) ∧ store.view old.id = .error failure := by
  rw [decision, if_neg different, if_neg notOlder]
  cases store.view new.id with
  | error newFailure => simp [bind, Except.bind]
  | ok newView =>
      cases store.view old.id with
      | error oldFailure => simp [bind, Except.bind]
      | ok oldView => simp [bind, Except.bind, pure, Except.pure]

end Store

namespace Course

variable {course : Course} {episode : Episode}

theorem run_view (course : Course) (id : RequestId) (episode : Episode) :
    course.run (Pass.view id) episode = course.view id episode := rfl

/-- Where no call fails, a cache that holds nothing but views of a store gives such views, and goes
on to hold such views only. -/
theorem IsClear.view
    (clear : course.IsClear)
    {store : Store}
    (same : episode.store = store)
    (holds : episode.views.HoldsViews store)
    (id : RequestId) :
    (course.view id episode).1 = store.view id ∧ (course.view id episode).2.store = store ∧
      (course.view id episode).2.views.HoldsViews store := by
  obtain ⟨honest, holdsAfter⟩ :=
    @view_honest course episode store (congrArg Store.asSubmitted same) holds id
  refine ⟨honest.resolve_right fun fault => clear.not_faulty fault.1, ?_, holdsAfter⟩
  exact (still_view id).store.trans same

/-- With such a cache the standard strategy decides as comparing the requests in the store does. -/
theorem IsClear.run_standard
    (clear : course.IsClear)
    {store : Store}
    (same : episode.store = store)
    (holds : episode.views.HoldsViews store)
    (builder : Builder)
    (new old : Request) :
    (course.run (Strategy.standard builder new old) episode).1 = store.decision new old := by
  unfold Strategy.standard Store.decision
  split
  · rfl
  split
  · rfl
  obtain ⟨newResult, sameAfter, holdsAfter⟩ := clear.view same holds new.id
  rw [run_bind, run_view, ← newResult]
  generalize course.view new.id episode = viewed at sameAfter holdsAfter
  obtain ⟨newView, later⟩ := viewed
  cases newView with
  | error failure => rfl
  | ok newView =>
  -- The first look-up may have evicted the other view, but the second loads it anew then.
  obtain ⟨oldResult, -⟩ := clear.view sameAfter holdsAfter old.id
  dsimp only
  rw [run_bind, run_view, ← oldResult]
  generalize course.view old.id later = viewed
  obtain ⟨oldView, last⟩ := viewed
  cases oldView with
  | error failure => rfl
  | ok oldView => rfl

end Course

namespace World

variable {world : World}

theorem upToDate_iff (clear : world.IsClear) :
    world.UpToDate ↔ world.views.HoldsViews world.store := by
  simp only [UpToDate, (load_eq clear _).1]
  constructor
  · rintro current ⟨id, slot⟩ listed
    cases slot with
    | waiting generation => trivial
    | complete view filledAt => exact current id view filledAt listed
  · exact fun holds id view filledAt listed => holds (id, .complete view filledAt) listed

/-- A look-up leaves the cache up to date. -/
theorem UpToDate.view
    (clear : world.IsClear)
    (current : world.UpToDate)
    (id : RequestId) :
    (world.view id).2.UpToDate := by
  obtain ⟨-, shows⟩ := (Shows.start world).view id
  have clearAfter : (world.view id).2.IsClear := (congrArg Guard.faults shows.guard).trans clear
  obtain ⟨-, same, holds⟩ := @Course.IsClear.view world.course (.start world.toSite world.views)
    clear.course world.store rfl ((upToDate_iff clear).1 current) id
  rw [upToDate_iff clearAfter, ← shows.views, ← shows.site, same]
  exact holds

/-- The standard strategy decides as the views of two requests would. If the requests decide it asks
for nothing, whether or not their views can be assembled. Otherwise it fails just if one of the
views cannot be assembled, and as that of the new request does if neither can. -/
theorem standard_agrees_with_views
    {new old : Request}
    (builder : Builder)
    (clear : world.IsClear)
    (current : world.UpToDate)
    (newFound : world.store.requests.get? new.id = some new)
    (oldFound : world.store.requests.get? old.id = some old) :
    let decision := Strategy.standard builder new old
    (∀ newView oldView, (world.load new.id).1 = .ok newView → (world.load old.id).1 = .ok oldView →
      (world.run decision).1 = .ok (newView.canCollapse oldView)) ∧
    (new.buildsetId = old.buildsetId →
      decision = pure true ∧ world.run decision = (.ok true, world)) ∧
    (new.buildsetId ≠ old.buildsetId → new.id < old.id →
      decision = pure false ∧ world.run decision = (.ok false, world)) ∧
    (new.buildsetId ≠ old.buildsetId → ¬new.id < old.id →
      ∀ failure, (world.run decision).1 = .error failure ↔
        (world.load new.id).1 = .error failure ∨
          (∃ newView, (world.load new.id).1 = .ok newView) ∧
            (world.load old.id).1 = .error failure) := by
  intro decision
  have decided : (world.run decision).1 = world.store.decision new old :=
    (run_eq world decision).1.trans
      (clear.course.run_standard rfl ((upToDate_iff clear).1 current) builder new old)
  have loads : ∀ id, (world.load id).1 = world.store.view id := fun id => (load_eq clear id).1
  rw [decided, loads, loads]
  refine ⟨?_, ?_, ?_, ?_⟩
  · exact fun _ _ => Store.decision_eq_canCollapse newFound oldFound
  · intro same
    have immediate : decision = pure true := if_pos same
    rw [immediate]
    exact ⟨rfl, rfl⟩
  · intro different older
    have immediate : decision = pure false := (if_neg different).trans (if_pos older)
    rw [immediate]
    exact ⟨rfl, rfl⟩
  · exact fun different notOlder _ => Store.decision_eq_error_iff different notOlder

/-- Two requests for the same, and one whose buildset is missing, with a cache for one view only:
the look-up of the older view evicts the newer one. -/
theorem standard_agrees_with_views_narrow :
    let world := (Sample.narrow.view ⟨2⟩).2
    let request := Sample.resubmittedRequest
    let decides := Strategy.standard Sample.linux
    world.views.entries.map Prod.fst = [⟨2⟩] ∧
      (∃ newView oldView, (world.load ⟨2⟩).1 = .ok newView ∧ (world.load ⟨1⟩).1 = .ok oldView ∧
        newView.canCollapse oldView = true ∧
        (world.run (decides (request 2) (request 1))).1 = .ok (newView.canCollapse oldView)) ∧
      decides (request 9) (request 9) = pure true ∧
      decides (request 1) (request 9) = pure false ∧
      (world.run (decides (request 9) (request 1))).1 =
        .error (.assembly (.missingBuildset ⟨9⟩ ⟨9⟩)) := by
  intro world request decides
  have clearBefore : Sample.narrow.IsClear := rfl
  have clear : world.IsClear := rfl
  have fresh : Sample.narrow.UpToDate := fun _ _ _ listed => absurd listed List.not_mem_nil
  have current : world.UpToDate := fresh.view clearBefore ⟨2⟩
  have found : ∀ number ∈ [1, 2, 9],
      world.store.requests.get? (request number).id = some (request number) := by
    decide +kernel
  have first := found 1 (by decide)
  have second := found 2 (by decide)
  have orphan := found 9 (by decide)
  have views :
      (do
        let newView ← (world.load ⟨2⟩).1
        let oldView ← (world.load ⟨1⟩).1
        return newView.canCollapse oldView : Except Failure Bool).toOption = some true := by
    decide +kernel
  refine ⟨by decide +kernel, ?_, ?_, ?_, ?_⟩
  · obtain ⟨newView, newLoaded, given⟩ := exists_of_toOption_bind views
    obtain ⟨oldView, oldLoaded, given⟩ := exists_of_toOption_bind given
    obtain ⟨agrees, -⟩ := standard_agrees_with_views Sample.linux clear current second first
    exact ⟨newView, oldView, newLoaded, oldLoaded, Option.some.inj given,
      agrees newView oldView newLoaded oldLoaded⟩
  · obtain ⟨-, same, -⟩ := standard_agrees_with_views Sample.linux clear current orphan orphan
    exact (same rfl).1
  · obtain ⟨-, -, older, -⟩ := standard_agrees_with_views Sample.linux clear current first orphan
    exact (older (by decide) (by decide)).1
  · obtain ⟨-, -, -, fails⟩ := standard_agrees_with_views Sample.linux clear current orphan first
    exact (fails (by decide) (by decide) _).2 (.inl rfl)

end World
end BuildQueue
