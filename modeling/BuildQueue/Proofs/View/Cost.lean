import BuildQueue.Proofs.Memo.Table
import BuildQueue.Proofs.Pass.Course
import Mathlib.Algebra.Ring.Nat

/-!
# What a view costs

Assembling a view takes one read for each of its four parts and one for the changes of each source
stamp. A view cache that nobody else uses assembles a view only if it misses it, and then all reads
are its own: the caller who asks for the view is charged for nothing.
-/

namespace BuildQueue

open Script (Ensures)

/-! ## Loads -/

namespace Store

/-- The source stamps that are listed for the buildset of a request. -/
def listedStamps (store : Store) (id : RequestId) : List SourceStampId :=
  ((store.requests.get? id).bind fun request => store.stampIds.get? request.buildsetId).getD []

/-- The number of reads by which the view of a request is assembled. -/
def loadCost (store : Store) (id : RequestId) : Nat := 4 + (store.listedStamps id).length

private theorem length_mapM_sourceStamp
    {store : Store}
    {ids : List SourceStampId}
    {stamps : List SourceStamp}
    (found : ids.mapM store.sourceStamp = .ok stamps) :
    stamps.length = ids.length := by
  induction ids generalizing stamps with
  | nil =>
      cases found
      rfl
  | cons id rest inductionHypothesis =>
      rw [List.mapM_cons] at found
      cases first : store.sourceStamp id with
      | error error =>
          rw [first] at found
          cases found
      | ok stamp =>
          rw [first] at found
          cases more : rest.mapM store.sourceStamp with
          | error error =>
              rw [more] at found
              cases found
          | ok others =>
              rw [more] at found
              cases found
              exact congrArg (· + 1) (inductionHypothesis more)

/-- There is a source stamp for each that is listed, or fetching them fails. -/
theorem length_stampsOf
    {store : Store}
    {id : RequestId}
    {request : Request}
    {stamps : List SourceStamp}
    (known : store.requests.get? id = some request)
    (found : store.stampsOf request.buildsetId = .ok stamps) :
    stamps.length = (store.listedStamps id).length := by
  rw [listedStamps, known]
  exact length_mapM_sourceStamp found

end Store

/-- How calls are answered by a store that does not change; they are counted. -/
def counting (base : Store) : Contract Call.Reply Nat where
  asks call _ := call.method.isWrite = false
  gives call count reply after := (∃ now, reply = base.reply now call) ∧ after = count + 1

/-- A call that reads is counted once. -/
theorem counted_make
    {base : Store}
    {call : Call}
    {count : Nat}
    {post : Except Failure call.Value → Nat → Prop}
    (reads : call.method.isWrite = false)
    (goes : ∀ now, post (base.reply now call) (count + 1)) :
    Ensures (counting base) post call.make.run count := by
  refine ⟨reads, ?_⟩
  rintro _ _ ⟨⟨now, rfl⟩, rfl⟩
  exact goes now

/-- A view that is assembled has cost one read for each part and one for each source stamp. -/
theorem View.load_counts
    (base : Store)
    (id : RequestId) :
    Ensures (counting base)
      (OnResult (fun _ count => count = base.loadCost id) fun _ _ => True) (load id).run 0 := by
  unfold load
  refine Ensures.run_bind (counted_make rfl fun _ => ?_)
  change OnResult _ _ (Except.ok (base.requests.get? id)) 1
  cases found : base.requests.get? id with
  | none => trivial
  | some request =>
  rw [onResult_ok]
  unfold ofRequest
  refine Ensures.run_bind (counted_make rfl fun _ => ?_)
  change OnResult _ _ (Except.ok (base.buildsets.get? request.buildsetId)) 2
  cases base.buildsets.get? request.buildsetId with
  | none => trivial
  | some buildset =>
  refine Ensures.run_bind (counted_make rfl fun _ => ?_)
  refine Ensures.run_bind (counted_make rfl fun _ => ?_)
  change OnResult _ _ ((base.stampsOf request.buildsetId).mapError Failure.store) 4
  cases listed : base.stampsOf request.buildsetId with
  | error error => trivial
  | ok stamps =>
  change Ensures _ _ (ExceptT.run (if stamps.isEmpty then throw _ else _)) 4
  split
  · trivial
  have length := Store.length_stampsOf found listed
  refine Ensures.run_bind ((Ensures.run_mapM
    (fun done rest count => count = 4 + done.length ∧ done.length + rest.length = stamps.length)
    (fun _ _ => True) ?_ ⟨rfl, Nat.zero_add _⟩).mono fun result count counted => ?_)
  · rintro done stamp rest _ ⟨rfl, split⟩
    unfold fetchSource
    refine Ensures.run_bind (counted_make rfl fun _ => ?_)
    change OnResult _ _ (Except.ok (base.changesOf stamp.id)) _
    rw [onResult_ok, Ensures.run_pure_iff, onResult_ok, List.length_append, List.length_singleton]
    rw [List.length_cons] at split
    exact ⟨Nat.add_assoc .., by omega⟩
  · cases result with
    | error failure => trivial
    | ok fetched =>
        obtain ⟨rfl, all⟩ := counted
        rw [List.length_nil, Nat.add_zero, length] at all
        rw [onResult_ok, all]
        split
        · trivial
        · rfl

/-! ## Idle caches -/

namespace Memo

variable {κ ν : Type} {memo : Memo κ ν} {key : κ} {generation : Nat}

/-- No slot of a table waits for a fill. Where all calls are answered at once a fill ends before the
get that started it goes on, so there a table is idle unless somebody else is filling it. -/
def Idle (memo : Memo κ ν) : Prop := memo.Every fun _ slot => slot.generation? = none

/-- No slot of a table waits but that of one key, which waits for one fill. -/
def Filling (memo : Memo κ ν) (key : κ) (generation : Nat) : Prop :=
  memo.Every fun other slot =>
    other = key ∧ slot = .waiting generation ∨ other ≠ key ∧ slot.generation? = none

variable [DecidableEq κ]

theorem misses_touch (memo : Memo κ ν) (key : κ) : (memo.touch key).misses = memo.misses := by
  unfold touch
  split <;> rfl

theorem misses_publish (now : Nat) (value : ν) :
    (memo.publish now key generation value).misses = memo.misses := by
  unfold publish
  split <;> rfl

theorem Idle.start
    (idle : memo.Idle)
    (key : κ) :
    (memo.start key).2.Filling key memo.nextGeneration := by
  intro entry listed
  by_cases own : entry.1 = key
  · rcases List.mem_append.1 ((dropFirst_sublist _ _ _).subset listed) with kept | new
    · exact absurd own (bne_iff_ne.1 (List.mem_filter.1 kept).2)
    · obtain rfl := List.mem_singleton.1 new
      exact .inl ⟨rfl, rfl⟩
  · exact .inr ⟨own, idle entry (mem_of_mem_start listed own)⟩

theorem Filling.invalidate
    (filling : memo.Filling key generation) :
    (memo.invalidate key).Idle := by
  intro entry kept
  obtain ⟨listed, other⟩ := List.mem_filter.1 kept
  rcases filling entry listed with ⟨own, -⟩ | ⟨-, filled⟩
  · exact absurd own (bne_iff_ne.1 other)
  · exact filled

/-- A slot that waits is owned by the fill, so a table is idle if the fill owns none. -/
theorem Filling.idle_of_owns
    (filling : memo.Filling key generation)
    (owns : ¬ memo.owns key generation = true) :
    memo.Idle := by
  intro entry listed
  rcases filling entry listed with ⟨own, -⟩ | ⟨-, filled⟩
  · refine absurd ?_ owns
    cases found : memo.slot? key with
    | none =>
        have absent := List.lookup_eq_none_iff.1 found entry listed
        exact absurd own.symm (bne_iff_ne.1 absent)
    | some slot =>
        rcases condition_of_slot? filling found with ⟨-, rfl⟩ | ⟨different, -⟩
        · rw [Memo.owns, found]
          exact beq_self_eq_true generation
        · exact absurd rfl different
  · exact filled

theorem Filling.publish
    (filling : memo.Filling key generation)
    (now : Nat)
    (value : ν) :
    (memo.publish now key generation value).Idle := by
  unfold Memo.publish
  split
  · intro entry listed
    rcases List.mem_append.1 listed with kept | new
    · exact filling.invalidate entry kept
    · obtain rfl := List.mem_singleton.1 new
      rfl
  · next owns => exact filling.idle_of_owns owns

theorem Filling.abandon
    (filling : memo.Filling key generation) :
    (memo.abandon key generation).Idle := by
  unfold Memo.abandon
  split
  · exact filling.invalidate
  · next owns => exact filling.idle_of_owns owns

end Memo

/-! ## Gets -/

namespace Course

variable {course : Course} {episode : Episode}

/-- The view that a get loads, if it loads one. -/
def loads (course : Course) (id : RequestId) (episode : Episode) : List RequestId :=
  match (episode.views.lookup (course.instant episode.steps) id).1 with
  | .hit _ => []
  | .joined _ | .started _ => [id]

theorem eq_of_mem_loads
    {id other : RequestId}
    (listed : other ∈ course.loads id episode) :
    other = id := by
  unfold loads at listed
  split at listed
  · exact absurd listed List.not_mem_nil
  · exact List.mem_singleton.1 listed
  · exact List.mem_singleton.1 listed

/-- The views of some requests were loaded, each at its cost, by a cache that is idle again. -/
structure Loads (before : Episode) (ids : List RequestId) (after : Episode) : Prop where
  store : after.store = before.store
  caller : after.caller = before.caller
  reads : after.cache.value .storeReads =
    before.cache.value .storeReads + (ids.map before.store.loadCost).sum
  others : ∀ counter, counter ≠ .storeReads →
    after.cache.value counter = before.cache.value counter
  misses : after.views.misses = before.views.misses + ids.length
  idle : after.views.Idle

/-- If no call fails then the store answers each, at the cost of an account. -/
theorem call_of_clear
    (clear : course.IsClear)
    (account : Account)
    (asked : Call) :
    course.call account asked episode =
      (episode.store.reply (course.now episode.steps) asked,
        episode.advance ((course.site episode).callStore account asked).2
          [⟨asked, episode.store.reply (course.now episode.steps) asked⟩]) := by
  unfold call
  rw [clear]
  rfl

/-- Loading a view costs the cache so many reads, and nothing else. -/
theorem load_costs
    (clear : course.IsClear)
    {id : RequestId}
    {view : View}
    (loaded : (course.load id episode).1 = .ok view) :
    (course.load id episode).2.caller = episode.caller ∧
      ∀ counter, (course.load id episode).2.cache.value counter =
        episode.cache.value counter +
          if counter = .storeReads then (episode.store.loadCost id : Int) else 0 := by
  have served := (View.load_counts episode.store id).run (course.call .cache)
    (fun later (count : Nat) => later.store = episode.store ∧ later.caller = episode.caller ∧
      ∀ counter, later.cache.value counter =
        episode.cache.value counter + if counter = .storeReads then (count : Int) else 0)
    ?honoured episode ⟨rfl, rfl, fun counter => by split <;> exact (Int.add_zero _).symm⟩
  case honoured =>
    rintro asked later count ⟨store, caller, cache⟩ reads
    rw [call_of_clear clear]
    refine ⟨count + 1, ⟨⟨_, congrArg (Store.reply · _ asked) store⟩, rfl⟩, ?_, caller, ?_⟩
    · exact (Store.perform_of_read _ _ reads).trans store
    · intro counter
      change (later.cache.increment (Site.counterOf asked.method)).value counter = _
      rw [Site.counterOf, reads, Counters.increment, Counters.value_add, cache]
      simp only [Bool.false_eq_true, if_false]
      split <;> push_cast <;> omega
  obtain ⟨count, ⟨-, caller, cache⟩, counted⟩ := served
  change OnResult _ _ (course.load id episode).1 count at counted
  rw [loaded] at counted
  obtain rfl : count = episode.store.loadCost id := counted
  exact ⟨caller, cache⟩

/-- A get leaves an idle cache idle, whether or not it gives a view. -/
theorem idle_view
    (idle : episode.views.Idle)
    (id : RequestId) :
    (course.view id episode).2.views.Idle := by
  have looked := Memo.looked (course.instant episode.steps) episode.views id
  unfold Course.view
  generalize episode.views.lookup (course.instant episode.steps) id = outcome at looked
  cases looked with
  | hit held fresh => exact Memo.Every.touch idle id
  | joined held => cases Memo.condition_of_slot? idle held
  | started missed =>
      have filling := Memo.Idle.start (Memo.Every.touch idle id) id
      rw [Memo.nextGeneration_touch] at filling
      dsimp only
      generalize ((episode.views.touch id).start id).2 = views at filling
      obtain ⟨-, -, kept⟩ := @load_honest course { episode with views } episode.store rfl id
      rw [kept]
      cases (course.load id { episode with views }).1 with
      | ok view => exact filling.publish _ view
      | error failure => exact filling.abandon

/-- Passes leave an idle cache idle, so every cache is idle that only passes have used, one after
the other. -/
theorem idle_run
    {α : Type}
    (idle : episode.views.Idle)
    (pass : Pass α) :
    (course.run pass episode).2.views.Idle := by
  unfold run
  induction pass.run generalizing episode with
  | done value => exact idle
  | ask effect next inductionHypothesis =>
      refine inductionHypothesis _ ?_
      cases effect with
      | act action => exact (views_act action).symm ▸ idle
      | view id => exact idle_view idle id

/-- A view that an idle cache gives has cost what was loaded for it. -/
theorem view_loads
    (clear : course.IsClear)
    (idle : episode.views.Idle)
    {id : RequestId}
    {view : View}
    (given : (course.view id episode).1 = .ok view) :
    Loads episode (course.loads id episode) (course.view id episode).2 := by
  have looked := Memo.looked (course.instant episode.steps) episode.views id
  have idleAfter := @idle_view course episode idle id
  unfold Course.view at given idleAfter ⊢
  unfold loads
  generalize episode.views.lookup (course.instant episode.steps) id = outcome
    at looked given idleAfter ⊢
  cases looked with
  | hit held fresh =>
      exact ⟨rfl, rfl, (Int.add_zero _).symm, fun _ _ => rfl, Memo.misses_touch _ id, idleAfter⟩
  | joined held => cases Memo.condition_of_slot? idle held
  | started missed =>
      have misses : ((episode.views.touch id).start id).2.misses = episode.views.misses + 1 :=
        congrArg (· + 1) (Memo.misses_touch _ id)
      dsimp only at given idleAfter ⊢
      generalize ((episode.views.touch id).start id).2 = views at misses given idleAfter ⊢
      have honest := @load_honest course { episode with views } episode.store rfl id
      have costs := @load_costs course { episode with views } clear id
      generalize course.load id { episode with views } = outcome at honest costs given idleAfter ⊢
      obtain ⟨result, later⟩ := outcome
      obtain ⟨-, still, kept⟩ := honest
      obtain rfl : result = .ok view := given
      obtain ⟨caller, cache⟩ := costs rfl
      dsimp only at kept idleAfter ⊢
      refine ⟨still.store, caller, ?_, fun counter other => ?_, ?_, idleAfter⟩
      · simpa using cache .storeReads
      · simpa [other] using cache counter
      · rw [kept]
        exact (Memo.misses_publish _ _).trans misses

end Course
end BuildQueue
