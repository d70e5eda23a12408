import BuildQueue.Proofs.Pass.Ending
import BuildQueue.Proofs.Store.Links
import BuildQueue.Proofs.View.Cost

/-!
# What a pass costs

A pass that is alone has two bills. Its caller is charged for looking up each new request and for
retiring what was found; its view cache is charged for the views that it has to load. How many
requests are compared makes no difference to the caller, and only requests whose rows do not decide
make one to the cache. The bill is carried along as `Billed`.
-/

namespace BuildQueue

open Script (Ensures)

namespace Store

/-- Whether the builder of a request is there and its requests are collapsed. -/
def collapses (store : Store) (policy : Policy Strategy) (id : RequestId) : Bool :=
  ((((store.requests.get? id).bind fun request => store.builders.get? request.builderId).bind
    fun builder => policy.forBuilder builder.name)).isSome

/-- The number of reads by which the candidates for a new request are found. -/
def findCost (store : Store) (policy : Policy Strategy) (new : RequestId) : Nat :=
  if store.collapses policy new then 3 else 2

/-- The view of a request is needed to compare a new request with one that is pending. -/
def NeedsView
    (store : Store)
    (policy : Policy Strategy)
    (newIds : List RequestId)
    (id : RequestId) : Prop :=
  ∃ new ∈ newIds, ∃ old, store.claimable old = true ∧ store.Compares policy new old ∧
    (id = new ∨ id = old)

/-- The views are needed of a new request and of a pending one that is older, unless they are of the
same buildset. -/
theorem needsView_of_pending
    {store : Store}
    (keyed : store.Keyed)
    {policy : Policy Strategy}
    {newIds : List RequestId}
    {newId : RequestId}
    {new old : Request}
    {builder : Builder}
    (listed : newId ∈ newIds)
    (newFound : store.requests.get? newId = some new)
    (builderFound : store.builders.get? new.builderId = some builder)
    (own : builder.id = new.builderId)
    (collapses : policy.forBuilder builder.name ≠ none)
    (pending : old ∈ store.pendingOf builder.id)
    (older : old.id < new.id)
    (different : new.buildsetId ≠ old.buildsetId) :
    store.NeedsView policy newIds new.id ∧ store.NeedsView policy newIds old.id := by
  obtain ⟨oldFound, sameBuilder, waits⟩ := keyed.mem_pendingOf.1 pending
  have claimable : store.claimable old.id = true := claimable_iff.2 ⟨old, oldFound, waits⟩
  have sameId : new.id = newId := keyed.own newFound
  have compares : store.Compares policy newId old.id :=
    ⟨sameId ▸ older, new, old, builder, newFound, oldFound, builderFound, collapses,
      (sameBuilder.trans own).symm, different⟩
  exact ⟨⟨newId, listed, old.id, claimable, compares, .inl sameId⟩,
    ⟨newId, listed, old.id, claimable, compares, .inr rfl⟩⟩

end Store

/-- A pass under way, with the requests whose views were loaded for it. -/
structure Tab where
  episode : Episode
  loaded : List RequestId

namespace Course

/-- The views that are loaded for an effect. -/
def loadedFor (course : Course) : Effect → Episode → List RequestId
  | .view id, episode => course.loads id episode
  | .act _, _ => []

/-- The views that are loaded while a script runs, one after the other. -/
def loaded {α : Type} (course : Course) : Script Effect.Reply α → Episode → List RequestId
  | .done _, _ => []
  | .ask effect next, episode =>
      course.loadedFor effect episode ++
        course.loaded (next (course.perform effect episode).1) (course.perform effect episode).2

/-- The pass after an effect. -/
def serve (course : Course) (effect : Effect) (tab : Tab) : Tab where
  episode := (course.perform effect tab.episode).2
  loaded := tab.loaded ++ course.loadedFor effect tab.episode

/-- How a pass is served on a course. -/
def serving (course : Course) : Contract Effect.Reply Tab where
  asks _ _ := True
  gives effect before reply after :=
    reply = (course.perform effect before.episode).1 ∧ after = course.serve effect before

variable {course : Course}

theorem loaded_bind
    {α β : Type}
    (script : Script Effect.Reply α)
    (next : α → Script Effect.Reply β)
    (episode : Episode) :
    course.loaded (script >>= next) episode =
      course.loaded script episode ++
        course.loaded (next (Script.run course.perform script episode).1)
          (Script.run course.perform script episode).2 := by
  induction script generalizing episode with
  | done value => rfl
  | ask effect rest inductionHypothesis =>
      change _ ++ course.loaded (rest _ >>= next) _ = _
      rw [inductionHypothesis, loaded, Script.run_ask, List.append_assoc]

/-- One pass after the other: if the first fails then the second loads nothing. -/
theorem loaded_run_bind
    {α β : Type}
    (course : Course)
    (first : Pass α)
    (next : α → Pass β)
    (episode : Episode) :
    course.loaded (first >>= next).run episode =
      course.loaded first.run episode ++
        match course.run first episode with
        | (.ok value, later) => course.loaded (next value).run later
        | (.error _, _) => [] := by
  unfold run
  change course.loaded (first.run >>= ExceptT.bindCont next) episode = _
  rw [loaded_bind]
  generalize Script.run course.perform first.run episode = outcome
  obtain ⟨result, later⟩ := outcome
  cases result <;> rfl

/-- A course serves everything. -/
theorem ensures_serving
    {α : Type}
    (script : Script Effect.Reply α)
    (tab : Tab) :
    Ensures course.serving (fun _ _ => True) script tab := by
  induction script generalizing tab with
  | done value => trivial
  | ask effect next inductionHypothesis =>
      exact ⟨trivial, fun reply after _ => inductionHypothesis reply after⟩

/-- What a script ensures on a course holds when it has run. -/
theorem served_run
    {α : Type}
    {script : Script Effect.Reply α}
    {post : α → Tab → Prop}
    {tab : Tab}
    (ensured : Ensures course.serving post script tab) :
    post (Script.run course.perform script tab.episode).1
      ⟨(Script.run course.perform script tab.episode).2,
        tab.loaded ++ course.loaded script tab.episode⟩ := by
  induction script generalizing tab with
  | done value =>
      rw [loaded, List.append_nil]
      exact ensured
  | ask effect next inductionHypothesis =>
      have later := inductionHypothesis _ (ensured.2 _ _ ⟨rfl, rfl⟩)
      rw [serve, List.append_assoc] at later
      exact later

end Course

/-- What the caller of a pass and its view cache were charged for since the beginning, no views
having been loaded but those that are needed. -/
structure Billed
    (first : Episode)
    (needs : RequestId → Prop)
    (reads writes : Nat)
    (tab : Tab) : Prop where
  reads : tab.episode.caller.value .storeReads = first.caller.value .storeReads + reads
  writes : tab.episode.caller.value .storeWrites = first.caller.value .storeWrites + writes
  loads : tab.episode.cache.value .storeReads =
    first.cache.value .storeReads + (tab.loaded.map first.store.loadCost).sum
  others : ∀ counter, counter ≠ .storeReads →
    tab.episode.cache.value counter = first.cache.value counter
  misses : tab.episode.views.misses = first.views.misses + tab.loaded.length
  needed : ∀ id ∈ tab.loaded, needs id
  idle : tab.episode.views.Idle

/-- Whether an action costs nothing. -/
def Action.isFree : Action → Bool
  | .time | .log _ _ => true
  | .count counter => counter != .storeReads && counter != .storeWrites
  | .call _ _ | .direct _ => false

namespace Billed

variable {course : Course} {first : Episode} {needs : RequestId → Prop} {reads writes : Nat}
  {tab : Tab}

theorem start (idle : first.views.Idle) : Billed first needs 0 0 ⟨first, []⟩ where
  reads := (Int.add_zero _).symm
  writes := (Int.add_zero _).symm
  loads := (Int.add_zero _).symm
  others _ _ := rfl
  misses := rfl
  needed _ listed := absurd listed List.not_mem_nil
  idle := idle

/-- Only the caller is charged for something. -/
theorem charge
    (billed : Billed first needs reads writes tab)
    (effect : Effect)
    (moreReads moreWrites : Nat)
    (loaded : course.loadedFor effect tab.episode = [])
    (cache : (course.perform effect tab.episode).2.cache = tab.episode.cache)
    (views : (course.perform effect tab.episode).2.views = tab.episode.views)
    (readsCharged : (course.perform effect tab.episode).2.caller.value .storeReads =
      tab.episode.caller.value .storeReads + moreReads)
    (writesCharged : (course.perform effect tab.episode).2.caller.value .storeWrites =
      tab.episode.caller.value .storeWrites + moreWrites) :
    Billed first needs (reads + moreReads) (writes + moreWrites) (course.serve effect tab) := by
  have same : (course.serve effect tab).loaded = tab.loaded := by
    rw [Course.serve, loaded, List.append_nil]
  constructor
  case reads =>
    rw [Int.natCast_add, ← Int.add_assoc, ← billed.reads]
    exact readsCharged
  case writes =>
    rw [Int.natCast_add, ← Int.add_assoc, ← billed.writes]
    exact writesCharged
  case loads =>
    rw [same, ← billed.loads]
    exact congrArg (Counters.value · _) cache
  case others =>
    intro counter other
    rw [← billed.others counter other]
    exact congrArg (Counters.value · _) cache
  case misses =>
    rw [same, ← billed.misses]
    exact congrArg Memo.misses views
  case needed => exact same ▸ billed.needed
  case idle =>
    have kept := billed.idle
    rw [← views] at kept
    exact kept

/-- A call is charged to the caller. -/
theorem call
    (billed : Billed first needs reads writes tab)
    (clear : course.IsClear)
    (asked : Call) :
    Billed first needs (reads + (!asked.method.isWrite).toNat)
      (writes + asked.method.isWrite.toNat) (course.serve (.act (.call .caller asked)) tab) := by
  have after : (course.perform (.act (.call .caller asked)) tab.episode).2 = _ :=
    congrArg Prod.snd (Course.call_of_clear clear .caller asked)
  have counted : ∀ counter,
      (course.perform (.act (.call .caller asked)) tab.episode).2.caller.value counter =
        tab.episode.caller.value counter +
          if counter = Site.counterOf asked.method then 1 else 0 := by
    intro counter
    rw [after]
    exact Counters.value_add ..
  refine billed.charge (.act (.call .caller asked)) _ _ rfl ?_ ?_ ?_ ?_
  · rw [after]
    rfl
  · rw [after]
    rfl
  · rw [counted, Site.counterOf]
    cases asked.method.isWrite <;> rfl
  · rw [counted, Site.counterOf]
    cases asked.method.isWrite <;> rfl

/-- An action that costs nothing. -/
theorem free
    (billed : Billed first needs reads writes tab)
    {action : Action}
    (free : action.isFree = true) :
    Billed first needs reads writes (course.serve (.act action) tab) := by
  cases action with
  | call account asked => cases free
  | direct asked => cases free
  | time =>
      exact billed.charge (.act .time) 0 0 rfl rfl rfl (Int.add_zero _).symm (Int.add_zero _).symm
  | log level message =>
      exact billed.charge (.act (.log level message)) 0 0 rfl rfl rfl (Int.add_zero _).symm
        (Int.add_zero _).symm
  | count counted =>
      obtain ⟨noRead, noWrite⟩ : counted ≠ .storeReads ∧ counted ≠ .storeWrites := by
        simpa [Action.isFree] using free
      have unchanged : ∀ counter, counter ≠ counted →
          (tab.episode.caller.increment counted).value counter =
            tab.episode.caller.value counter + (0 : Nat) := by
        intro counter other
        rw [Counters.increment, Counters.value_add, if_neg other]
        rfl
      exact billed.charge (.act (.count counted)) 0 0 rfl rfl rfl (unchanged _ noRead.symm)
        (unchanged _ noWrite.symm)

/-- A view that is given is charged to the cache. -/
theorem view
    (billed : Billed first needs reads writes tab)
    (clear : course.IsClear)
    (store : tab.episode.store = first.store)
    {id : RequestId}
    (needed : needs id)
    {view : View}
    (given : (course.perform (.view id) tab.episode).1 = .ok view) :
    Billed first needs reads writes (course.serve (.view id) tab) := by
  have loads := Course.view_loads clear billed.idle given
  constructor
  case reads => exact (congrArg (Counters.value · _) loads.caller).trans billed.reads
  case writes => exact (congrArg (Counters.value · _) loads.caller).trans billed.writes
  case loads =>
    rw [Course.serve, List.map_append, List.sum_append, Int.natCast_add, ← Int.add_assoc,
      ← billed.loads, ← store]
    exact loads.reads
  case others =>
    exact fun counter other => (loads.others counter other).trans (billed.others counter other)
  case misses =>
    rw [Course.serve, List.length_append, ← Nat.add_assoc, ← billed.misses]
    exact loads.misses
  case needed =>
    intro other listed
    rcases List.mem_append.1 listed with before | new
    · exact billed.needed other before
    · exact Course.eq_of_mem_loads new ▸ needed
  case idle => exact loads.idle

end Billed

/-- What a pass that looks for candidates was charged for. It has left the store as it was. -/
structure Finding
    (first : Episode)
    (needs : RequestId → Prop)
    (reads : Nat)
    (tab : Tab) : Prop extends Billed first needs reads 0 tab where
  store : tab.episode.store = first.store

namespace Pass

open Script (Ensures)

variable {course : Course} {first : Episode} {needs : RequestId → Prop}
  {policy : Policy Strategy} {newIds : List RequestId} {reads writes : Nat} {tab : Tab}

section Finding

/-- A pass that looks for candidates makes a call that reads. -/
theorem ensures_call_finding
    (clear : course.IsClear)
    (finding : Finding first needs reads tab)
    {asked : Call}
    (isRead : asked.method.isWrite = false)
    {post : Except Failure asked.Value → Tab → Prop}
    (answered : ∀ now after, Finding first needs (reads + 1) after →
      post (first.store.reply now asked) after) :
    Ensures course.serving post (call asked).run tab := by
  refine ensures_call trivial ?_
  rintro reply after ⟨replied, rfl⟩
  have performed := @Course.call_of_clear course tab.episode clear .caller asked
  have reply_eq : reply = first.store.reply (course.now tab.episode.steps) asked := by
    rw [replied, ← finding.store]
    exact congrArg Prod.fst performed
  have billed := finding.call clear asked
  rw [isRead] at billed
  have store : (course.serve (.act (.call .caller asked)) tab).episode.store = tab.episode.store :=
    (congrArg (·.2.store) performed).trans (Store.perform_of_read _ _ isRead)
  exact reply_eq ▸ answered _ _ ⟨billed, store.trans finding.store⟩

/-- A pass that looks for candidates logs a line. -/
theorem ensures_log_finding
    (finding : Finding first needs reads tab)
    {level : Level}
    {message : String}
    {post : Except Failure Unit → Tab → Prop}
    (logged : ∀ after, Finding first needs reads after → post (.ok ()) after) :
    Ensures course.serving post (log level message).run tab := by
  refine ensures_act trivial ?_
  rintro _ _ ⟨-, rfl⟩
  exact logged _ ⟨finding.free rfl, finding.store⟩

/-- A pass that looks for candidates gets a view that it needs. -/
theorem ensures_view_finding
    (clear : course.IsClear)
    (finding : Finding first needs reads tab)
    {id : RequestId}
    (needed : needs id)
    {post : Except Failure View → Tab → Prop}
    (given : ∀ view after, Finding first needs reads after → post (.ok view) after)
    (fails : ∀ failure after, post (.error failure) after) :
    Ensures course.serving post (view id).run tab := by
  refine ensures_view trivial ?_
  rintro reply after ⟨replied, rfl⟩
  cases reply with
  | error failure => exact fails failure _
  | ok view =>
      exact given view _ ⟨finding.view clear finding.store needed replied.symm,
        (Course.still_view id).store.trans finding.store⟩

/-- The standard strategy costs nothing but the views that it needs. -/
theorem standard_finding
    (clear : course.IsClear)
    (finding : Finding first needs reads tab)
    (builder : Builder)
    {new old : Request}
    (needed : new.buildsetId ≠ old.buildsetId → ¬ new.id < old.id →
      needs new.id ∧ needs old.id) :
    Ensures course.serving
      (OnResult (fun _ after => Finding first needs reads after) fun _ _ => True)
      (Strategy.standard builder new old).run tab := by
  unfold Strategy.standard
  split
  · exact finding
  next different =>
  split
  · exact finding
  next notOlder =>
  obtain ⟨newNeeded, oldNeeded⟩ := needed different notOlder
  refine Ensures.run_bind (ensures_view_finding clear finding newNeeded (fun _ _ first => ?_)
    fun _ _ => trivial)
  refine Ensures.run_bind (ensures_view_finding clear first oldNeeded (fun _ _ second => ?_)
    fun _ _ => trivial)
  exact Ensures.run_bind (ensures_log_finding second fun _ logged => logged)

/-- However many requests are compared with a new one, it costs nothing but the views. -/
theorem select_standard_finding
    (clear : course.IsClear)
    (finding : Finding first needs reads tab)
    (builder : Builder)
    {new : Request}
    {others : List Request}
    (needed : ∀ old ∈ others, new.buildsetId ≠ old.buildsetId → ¬ new.id < old.id →
      needs new.id ∧ needs old.id) :
    Ensures course.serving
      (OnResult (fun _ after => Finding first needs reads after) fun _ _ => True)
      (select (Strategy.standard builder new) others).run tab := by
  refine (ensures_select
    (fun _ rest state => Finding first needs reads state ∧ rest ⊆ others)
    (fun _ _ => True) ?_ ⟨finding, List.Subset.refl _⟩).mono fun result after ensured => ?_
  · rintro _ old rest state ⟨finding, within⟩
    refine (standard_finding clear finding builder (needed old (within List.mem_cons_self))).mono
      fun result after later => ?_
    cases result with
    | error failure => trivial
    | ok verdict => exact ⟨later, List.Subset.trans (List.subset_cons_self _ _) within⟩
  · cases result with
    | error failure => trivial
    | ok selected => exact ensured.1

/-- Finding the candidates for a new request costs the caller as much as looking it up. -/
theorem findRedundant_finding
    (clear : course.IsClear)
    (keyed : first.store.Keyed)
    (named : ∀ {id builder}, first.store.builders.get? id = some builder → builder.id = id)
    (standard : policy.IsStandard)
    {newId : RequestId}
    (listed : newId ∈ newIds)
    (finding : Finding first (first.store.NeedsView policy newIds) reads tab) :
    Ensures course.serving
      (OnResult
        (fun _ after => Finding first (first.store.NeedsView policy newIds)
          (reads + first.store.findCost policy newId) after)
        fun _ _ => True)
      (findRedundant policy newId).run tab := by
  unfold findRedundant
  refine Ensures.run_bind (ensures_call_finding clear finding rfl fun _ after finding => ?_)
  change OnResult _ _ (Except.ok (first.store.requests.get? newId)) after
  cases newFound : first.store.requests.get? newId with
  | none => trivial
  | some new =>
  refine Ensures.run_bind (ensures_call_finding clear finding rfl fun _ after finding => ?_)
  change OnResult _ _ (Except.ok (first.store.builders.get? new.builderId)) after
  cases builderFound : first.store.builders.get? new.builderId with
  | none =>
      have cost : first.store.findCost policy newId = 2 := by
        simp [Store.findCost, Store.collapses, newFound, builderFound]
      exact Ensures.run_bind (ensures_log_finding finding fun _ logged => cost ▸ logged)
  | some builder =>
  rw [onResult_ok]
  dsimp only
  cases chosen : policy.forBuilder builder.name with
  | none =>
      have cost : first.store.findCost policy newId = 2 := by
        simp [Store.findCost, Store.collapses, newFound, builderFound, chosen]
      exact cost ▸ finding
  | some choice =>
  cases choice with
  | registered strategy => exact absurd chosen (standard builder.name strategy)
  | standard =>
  have cost : first.store.findCost policy newId = 3 := by
    simp [Store.findCost, Store.collapses, newFound, builderFound, chosen]
  refine Ensures.run_bind (ensures_call_finding clear finding rfl fun _ after finding => ?_)
  change OnResult _ _ (Except.ok (first.store.pendingOf builder.id)) after
  rw [onResult_ok]
  refine Ensures.run_bind ((select_standard_finding clear finding builder ?needed).mono
    fun result after compared => ?_)
  case needed =>
    intro old member different notOlder
    obtain ⟨pending, other⟩ := List.mem_filter.1 member
    have older : old.id < new.id := lt_of_le_of_ne (le_of_not_gt notOlder) (bne_iff_ne.1 other)
    exact Store.needsView_of_pending keyed listed newFound builderFound (named builderFound)
      (chosen ▸ Option.some_ne_none _) pending older different
  cases result with
  | error failure => trivial
  | ok selected => exact cost ▸ compared

/-- Finding costs the caller as much as looking up the new requests, and the cache the views that
have to be compared. -/
theorem find_finding
    (clear : course.IsClear)
    (keyed : first.store.Keyed)
    (named : ∀ {id builder}, first.store.builders.get? id = some builder → builder.id = id)
    (standard : policy.IsStandard)
    (idle : first.views.Idle)
    (newIds : List RequestId) :
    Ensures course.serving
      (OnResult
        (fun _ after => Finding first (first.store.NeedsView policy newIds)
          (newIds.map (first.store.findCost policy)).sum after)
        fun _ _ => True)
      (newIds.mapM (findRedundant policy)).run ⟨first, []⟩ := by
  refine (Ensures.run_mapM
    (fun _ rest state => ∃ handled, newIds = handled ++ rest ∧
      Finding first (first.store.NeedsView policy newIds)
        (handled.map (first.store.findCost policy)).sum state)
    (fun _ _ => True) ?_ ⟨[], rfl, .start idle, rfl⟩).mono fun result after ensured => ?_
  · rintro _ newId rest state ⟨handled, split, finding⟩
    have listed : newId ∈ newIds := by
      rw [split]
      simp
    refine (findRedundant_finding clear keyed named standard listed finding).mono
      fun result after ensured => ?_
    cases result with
    | error failure => trivial
    | ok found =>
        refine ⟨handled ++ [newId], by rw [split, List.append_cons], ?_⟩
        rw [List.map_append, List.sum_append, List.map_singleton, List.sum_singleton]
        exact ensured
  · cases result with
    | error failure => trivial
    | ok found =>
        obtain ⟨handled, split, finding⟩ := ensured
        rw [List.append_nil] at split
        exact split ▸ finding

end Finding

section Claiming

/-- An action is taken that costs nothing. -/
theorem ensures_free_billed
    (billed : Billed first needs reads writes tab)
    {action : Action}
    (free : action.isFree = true)
    {post : Except Failure action.Reply → Tab → Prop}
    (given : ∀ reply after, Billed first needs reads writes after → post (.ok reply) after) :
    Ensures course.serving post (act action).run tab := by
  refine ensures_act trivial ?_
  rintro reply _ ⟨-, rfl⟩
  exact given reply _ (billed.free free)

/-- Trying to skip a candidate costs a write for the claim, and one more for the completion if it
was claimed. -/
theorem claimAndSkip_billed
    (clear : course.IsClear)
    (billed : Billed first needs reads writes tab)
    (id : RequestId) :
    Ensures course.serving
      (OnResult
        (fun skipped after => Billed first needs reads (writes + if skipped then 2 else 1) after)
        fun _ _ => True)
      (claimAndSkip id).run tab := by
  unfold claimAndSkip
  refine Ensures.run_bind (ensures_free_billed billed (by rfl) fun now _ billed => ?_)
  refine Ensures.run_bind (ensures_free_billed billed (by rfl) fun _ _ billed => ?_)
  refine Ensures.run_bind (ensures_call trivial ?_)
  rintro claimed _ ⟨-, rfl⟩
  replace billed := billed.call clear (.claim [id] (some now))
  cases claimed with
  | error failure => trivial
  | ok won =>
  rw [onResult_ok]
  cases won with
  | false =>
      refine Ensures.run_bind (ensures_free_billed billed (by rfl) fun _ _ billed => ?_)
      exact Ensures.run_bind (ensures_free_billed billed (by rfl) fun _ _ billed => billed)
  | true =>
      refine Ensures.run_bind (ensures_act trivial ?_)
      rintro completed _ ⟨-, rfl⟩
      replace billed := billed.call clear (.complete [id] .skipped (some now))
      rw [onResult_ok]
      cases completed with
      | ok _ =>
          refine Ensures.run_bind (ensures_free_billed billed (by rfl) fun _ _ billed => ?_)
          exact Ensures.run_bind (ensures_free_billed billed (by rfl) fun _ _ billed => billed)
      | error failure =>
          refine Ensures.run_bind ((Course.ensures_serving _ _).mono fun result _ _ => ?_)
          cases result <;> trivial

/-- Claiming costs a write for each candidate, and one more for each that is skipped. -/
theorem select_billed
    (clear : course.IsClear)
    (billed : Billed first needs reads writes tab)
    (candidates : List RequestId) :
    Ensures course.serving
      (OnResult
        (fun ids after =>
          Billed first needs reads (writes + candidates.length + ids.length) after)
        fun _ _ => True)
      (select claimAndSkip candidates).run tab := by
  refine (ensures_select
    (fun chosen rest state => ∃ handled, candidates = handled ++ rest ∧
      Billed first needs reads (writes + handled.length + chosen.length) state)
    (fun _ _ => True) ?_ ?_).mono fun result after ensured => ?_
  · rintro chosen id rest state ⟨handled, split, billed⟩
    refine (claimAndSkip_billed clear billed id).mono fun result after charged => ?_
    cases result with
    | error failure => trivial
    | ok skipped =>
        refine ⟨handled ++ [id], by rw [split, List.append_cons], ?_⟩
        rw [onResult_ok] at charged
        convert charged using 1
        cases skipped <;> simp <;> omega
  · exact ⟨[], rfl, billed⟩
  · cases result with
    | error failure => trivial
    | ok ids =>
        obtain ⟨handled, split, billed⟩ := ensured
        rw [List.append_nil] at split
        exact split ▸ billed

end Claiming

end Pass

namespace Course

variable {course : Course} {firstRequest : RequestId} {updates : List Update} {site : Site}
  {views : Memo RequestId View} {policy : Policy Strategy} {newIds ids : List RequestId}

/-- The bill of a pass alone that returns. -/
theorem collapse_billed
    {first : Episode}
    (clear : course.IsClear)
    (keyed : first.store.Keyed)
    (named : ∀ {id builder}, first.store.builders.get? id = some builder → builder.id = id)
    (idle : first.views.Idle)
    (standard : policy.IsStandard)
    (returned : (course.run (Pass.collapse policy newIds) first).1 = .ok ids) :
    Billed first (first.store.NeedsView policy newIds)
      (newIds.map (first.store.findCost policy)).sum (2 * ids.length)
      ⟨(course.run (Pass.collapse policy newIds) first).2,
        course.loaded (Pass.collapse policy newIds).run first⟩ := by
  have finding := served_run (Pass.find_finding clear keyed named standard idle newIds)
  have finds := Pass.ensured_run (Pass.find_ensures_alone keyed standard newIds :
    Ensures (alone course.Faulty) _ (newIds.mapM (Pass.findRedundant policy)).run first)
  change OnResult _ _ (course.run _ first).1 (⟨(course.run _ first).2, _⟩ : Tab) at finding
  unfold Pass.collapse at returned ⊢
  rw [run_bind] at returned
  rw [run_bind, loaded_run_bind]
  generalize course.run (newIds.mapM (Pass.findRedundant policy)) first = outcome
    at finding finds returned
  obtain ⟨found | found, later⟩ := outcome
  · cases returned
  obtain ⟨still, pending⟩ := finds
  -- Nobody else acts, so all that was found is claimed and skipped.
  have skipped := Pass.ensured_run (Pass.select_ensures_alone
    (fun faulty => absurd faulty clear.not_faulty) (Pass.pairwise_ascending found.flatten)
    (fun id listed => pending id (Pass.mem_ascending_iff.1 listed)) still.store)
  have claimed := served_run (Pass.select_billed clear finding.toBilled
    (Pass.ascending found.flatten))
  dsimp only at returned skipped claimed ⊢
  change OnResult _ _ (course.run _ later).1 (⟨(course.run _ later).2, _⟩ : Tab) at claimed
  rw [returned] at skipped claimed
  obtain ⟨rfl, -⟩ := skipped
  rw [onResult_ok, Nat.zero_add, ← Nat.two_mul] at claimed
  exact claimed

/-- A pass alone that returns has charged its caller two reads for each new request whose builder is
gone or switched off and three for each other one, and two writes for each request that it retired.
It has charged its cache the loads of some views, each at the reads that this view takes, and
nothing else; the cache has missed just so often, and every one of these views was needed to compare
two requests. Whatever the cache holds, it has to be idle: a fill under way is somebody else's. -/
theorem collapse_charged
    (clear : course.IsClear)
    (reached : site.store = .evolved firstRequest updates)
    (idle : views.Idle)
    (standard : policy.IsStandard)
    (returned : (course.run (Pass.collapse policy newIds) (.start site views)).1 = .ok ids) :
    let after := (course.run (Pass.collapse policy newIds) (.start site views)).2
    let loaded := course.loaded (Pass.collapse policy newIds).run (.start site views)
    after.caller.value .storeReads =
        site.caller.value .storeReads + (newIds.map (site.store.findCost policy)).sum ∧
      after.caller.value .storeWrites = site.caller.value .storeWrites + 2 * ids.length ∧
      after.cache.value .storeReads =
        site.cache.value .storeReads + (loaded.map site.store.loadCost).sum ∧
      (∀ counter, counter ≠ .storeReads →
        after.cache.value counter = site.cache.value counter) ∧
      after.views.misses = views.misses + loaded.length ∧
      ∀ id ∈ loaded, site.store.NeedsView policy newIds id := by
  intro after loaded
  have billed := collapse_billed clear (reached ▸ Store.keyed_evolved firstRequest updates)
    (fun found => Store.id_of_builder_evolved (reached ▸ found)) idle standard returned
  exact ⟨billed.reads, billed.writes, billed.loads, billed.others, billed.misses, billed.needed⟩

/-- The second time that a new request is given it is looked up again, but both views are held. -/
theorem collapse_charged_twice :
    let after := (Sample.collapseStarted (fun _ => none) [⟨2⟩, ⟨2⟩]).2
    after.caller.value .storeReads = 6 ∧ after.caller.value .storeWrites = 2 ∧
      after.cache.value .storeReads = 10 ∧ after.views.misses = 2 := by
  have returned : (Sample.collapseStarted (fun _ => none) [⟨2⟩, ⟨2⟩]).1 = .ok [⟨1⟩] := by
    decide +kernel
  have loaded : (Sample.ticking fun _ => none).loaded (Pass.collapse .standard [⟨2⟩, ⟨2⟩]).run
      (.start (Sample.site Sample.started) (Sample.world Sample.started).views) = [⟨2⟩, ⟨1⟩] := by
    decide +kernel
  have clear : (Sample.ticking fun _ => none).IsClear := fun _ _ => rfl
  have reached : (Sample.site Sample.started).store = .evolved ⟨1⟩
      (Sample.resubmission.map (.operation <| .add ·) ++
        [.operation (.call Sample.submittedAt (.claim [⟨2⟩] none))]) := rfl
  have idle : (Sample.world Sample.started).views.Idle :=
    fun _ listed => absurd listed List.not_mem_nil
  have standard : (Policy.standard : Policy Strategy).IsStandard :=
    Policy.isStandard_of_registered rfl
  obtain ⟨reads, writes, loads, -, misses, -⟩ :=
    collapse_charged clear reached idle standard returned
  rw [loaded] at loads misses
  exact ⟨reads.trans (by decide +kernel), writes, loads.trans (by decide +kernel), misses⟩

end Course
end BuildQueue
