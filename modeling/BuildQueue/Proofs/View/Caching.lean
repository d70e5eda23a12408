import Mathlib.Data.List.Induction
import BuildQueue.Proofs.Memo.Shape
import BuildQueue.Proofs.Pass.Course
import BuildQueue.Proofs.Sample

/-!
# The view cache is transparent

A view that the cache gives was loaded at the last moment at which the cache had to load it. From
then on the cache has kept it: it was neither invalidated nor cleared away nor evicted, and it never
was too old when it was asked for. As far as the calls that assembled it would be answered the same
now, it is what would be loaded now.
-/

namespace BuildQueue

/-- What happens to a view cache and its store. -/
inductive CacheEvent where
  | store (operation : Operation)
  /-- A request is put into the store as it is. -/
  | insert (request : Request)
  | get (id : RequestId)
  | invalidate (id : RequestId)
  | clear
  | tick (instant : Nat)

namespace World

/-- The world after an event. -/
def after (world : World) : CacheEvent → World
  | .store operation => { world with store := world.store.apply operation }
  | .insert request => { world with store := world.store.insertRequest request }
  | .get id => (world.view id).2
  | .invalidate id => { world with views := world.views.invalidate id }
  | .clear => { world with views := world.views.clear }
  | .tick instant => { world with instant }

/-- The world after all events of a list. -/
def afterAll (world : World) (events : List CacheEvent) : World := events.foldl after world

/-- Whether the cache would load a view that it is asked for. -/
def fills (world : World) (id : RequestId) : Bool := world.views.needsFill world.instant id

/-- The last of all gets of a view that had to load it, with what comes before and after. -/
def LastFill (start : World) (id : RequestId) (before later : List CacheEvent) : Prop :=
  (start.afterAll before).fills id = true ∧
    ∀ between rest, later = between ++ .get id :: rest →
      (start.afterAll (before ++ .get id :: between)).fills id = false

variable {world start : World} {id other : RequestId} {ttl : Option Nat}

theorem afterAll_append (world : World) (first rest : List CacheEvent) :
    world.afterAll (first ++ rest) = (world.afterAll first).afterAll rest :=
  List.foldl_append

/-! ## Loading -/

/-- Where no call meets a fault, loading a view gives that of the store and changes nothing else
than the counters. -/
theorem load_eq
    (clear : world.IsClear)
    (id : RequestId) :
    (world.load id).1 = world.store.view id ∧
      (world.load id).2.views = world.views ∧
      (world.load id).2.guard = world.guard ∧
      (world.load id).2.instant = world.instant ∧
      (world.load id).2.store = world.store := by
  obtain ⟨same, shows⟩ := (Shows.start world).load id
  obtain ⟨honest, still, views⟩ := @Course.load_honest world.course
    (.start world.toSite world.views) world.store rfl id
  refine ⟨?_, shows.views.symm.trans views, shows.guard, shows.instant, ?_⟩
  · rw [same]
    exact honest.resolve_right fun fault => clear.course.not_faulty fault.1
  · exact (congrArg Site.store shows.site).symm.trans still.store

/-- A world between two events: no call meets a fault, and no slot of the cache waits. -/
structure Calm (ttl : Option Nat) (world : World) : Prop where
  guard : world.guard = .clear
  ttl : world.views.ttl = ttl
  positive : 0 < world.views.shardLimit
  tidy : world.views.Tidy
  complete : world.views.Every fun _ slot => slot.generation? = none

theorem Calm.isClear (calm : world.Calm ttl) : world.IsClear := congrArg Guard.faults calm.guard

/-- What a get of a view comes to, and the cache after it. -/
inductive Viewed (world : World) (id : RequestId) :
    Except Failure View → Memo RequestId View → Prop where
  | hit
      {view : View}
      {filledAt : Nat}
      (held : world.views.slot? id = some (.complete view filledAt))
      (fresh : world.views.isExpired world.instant filledAt = false) :
      Viewed world id (.ok view)
        { world.views.touch id with hits := world.views.hits + 1 }
  | filled
      {view : View}
      (missed : world.fills id = true)
      (loaded : world.store.view id = .ok view) :
      Viewed world id (.ok view)
        (((world.views.touch id).start id).2.put id (.complete view world.instant))
  | failed
      {failure : Failure}
      (missed : world.fills id = true)
      (loaded : world.store.view id = .error failure) :
      Viewed world id (.error failure) (((world.views.touch id).start id).2.invalidate id)

theorem Calm.slot?_start
    (calm : world.Calm ttl)
    (id : RequestId) :
    ((world.views.touch id).start id).2.slot? id =
      some (.waiting world.views.nextGeneration) := by
  have positive : 0 < (world.views.touch id).shardLimit := by
    rw [Memo.shardLimit_touch]
    exact calm.positive
  rw [(calm.tidy.touch id).slot?_start positive id, Memo.nextGeneration_touch]

theorem Calm.viewed
    (calm : world.Calm ttl)
    (id : RequestId) :
    Viewed world id (world.view id).1 (world.view id).2.views := by
  have looked := Memo.looked world.instant world.views id
  have started := calm.slot?_start id
  have filled := @Viewed.filled world id
  have failed := @Viewed.failed world id
  unfold view
  generalize world.views.lookup world.instant id = outcome at looked
  cases looked with
  | hit held fresh => exact .hit held fresh
  | joined held => cases Memo.condition_of_slot? calm.complete held
  | started missed =>
      dsimp only
      generalize ((world.views.touch id).start id).2 = filling at started filled failed ⊢
      have loaded := @load_eq { world with views := filling } calm.isClear id
      generalize { world with views := filling }.load id = outcome at loaded ⊢
      obtain ⟨result, later⟩ := outcome
      obtain ⟨same, views, -, instant, -⟩ := loaded
      dsimp only at same views instant ⊢
      have owned : filling.owns id world.views.nextGeneration = true := by
        unfold Memo.owns
        rw [started]
        exact beq_self_eq_true _
      rw [views, instant]
      cases result with
      | ok view =>
          dsimp only
          unfold Memo.publish
          rw [owned]
          exact filled missed same.symm
      | error failure =>
          dsimp only
          unfold Memo.abandon
          rw [owned]
          exact failed missed same.symm

/-- A get of a view leaves everything but the cache and the counters as it is. -/
theorem Calm.view_eq
    (calm : world.Calm ttl)
    (id : RequestId) :
    (world.view id).2.guard = world.guard ∧ (world.view id).2.store = world.store := by
  unfold view
  generalize world.views.lookup world.instant id = outcome
  obtain ⟨lookup, views⟩ := outcome
  obtain ⟨-, -, guard, -, store⟩ := @load_eq { world with views } calm.isClear id
  cases lookup with
  | hit view => exact ⟨rfl, rfl⟩
  | joined generation => exact ⟨guard, store⟩
  | started generation => exact ⟨guard, store⟩

/-- What a get leaves in the cache for other views was there before. -/
theorem Viewed.slot?_of_ne
    {result : Except Failure View}
    {views : Memo RequestId View}
    (viewed : Viewed world id result views)
    (tidy : world.views.Tidy)
    {slot : Slot View}
    (different : other ≠ id)
    (held : views.slot? other = some slot) :
    world.views.slot? other = some slot := by
  have touched := tidy.touch id
  cases viewed with
  | hit found fresh => exact (Memo.slot?_touch id other).symm.trans held
  | filled missed loaded =>
      rw [Memo.slot?_put_of_ne different] at held
      exact (Memo.slot?_touch id other).symm.trans (touched.slot?_start_of_ne different held)
  | failed missed loaded =>
      rw [Memo.slot?_invalidate_of_ne different] at held
      exact (Memo.slot?_touch id other).symm.trans (touched.slot?_start_of_ne different held)

/-- What a get leaves in the cache for its view was there before, or has just been loaded. -/
theorem Viewed.slot?_self
    {result : Except Failure View}
    {views : Memo RequestId View}
    (viewed : Viewed world id result views)
    {slot : Slot View}
    (held : views.slot? id = some slot) :
    world.views.slot? id = some slot ∧ world.fills id = false ∨
      world.fills id = true ∧
        ∃ view, world.store.view id = .ok view ∧ slot = .complete view world.instant := by
  cases viewed with
  | hit found fresh =>
      refine .inl ⟨(Memo.slot?_touch id id).symm.trans held, ?_⟩
      simp only [fills, Memo.needsFill, found, fresh]
  | filled missed loaded =>
      rw [Memo.slot?_put_self] at held
      exact .inr ⟨missed, _, loaded, (Option.some.inj held).symm⟩
  | failed missed loaded =>
      rw [Memo.slot?_invalidate_self] at held
      cases held

/-- A get that fails has tried to load its view. -/
theorem Viewed.loaded_of_error
    {failure : Failure}
    {views : Memo RequestId View}
    (viewed : Viewed world id (.error failure) views) :
    world.fills id = true ∧ world.store.view id = .error failure := by
  cases viewed with
  | failed missed loaded => exact ⟨missed, loaded⟩

/-- A view that was given is in the cache. -/
theorem Viewed.exists_slot
    {view : View}
    {views : Memo RequestId View}
    (viewed : Viewed world id (.ok view) views) :
    ∃ filledAt, views.slot? id = some (.complete view filledAt) := by
  cases viewed with
  | hit held fresh => exact ⟨_, (Memo.slot?_touch id id).trans held⟩
  | filled missed loaded => exact ⟨_, Memo.slot?_put_self⟩

/-- The slot that a get has filled or dropped is the only one that waited. -/
theorem Calm.complete_of_start
    (calm : world.Calm ttl)
    {entry : RequestId × Slot View}
    (listed : entry ∈ Memo.without id ((world.views.touch id).start id).2.entries) :
    entry.2.generation? = none := by
  obtain ⟨there, different⟩ := List.mem_filter.1 listed
  have before := Memo.mem_of_mem_start there (bne_iff_ne.1 different)
  exact calm.complete.touch id entry before

/-- No get leaves a waiting slot behind. -/
theorem Viewed.calm
    {result : Except Failure View}
    {views : Memo RequestId View}
    (viewed : Viewed world id result views)
    (calm : world.Calm ttl) :
    views.ttl = ttl ∧ 0 < views.shardLimit ∧ views.Tidy ∧
      views.Every fun _ slot => slot.generation? = none := by
  have clear : (world.views.touch id).clear = world.views.clear := Memo.clear_touch id
  have touchedTtl : (world.views.touch id).ttl = ttl := (congrArg Memo.ttl clear).trans calm.ttl
  have touchedLimit : 0 < (world.views.touch id).shardLimit := by
    rw [Memo.shardLimit_touch]
    exact calm.positive
  have touched := calm.tidy.touch id
  have started := touched.start id
  cases viewed with
  | hit found fresh =>
      exact ⟨touchedTtl, touchedLimit, touched.of_perm (.refl _) rfl rfl rfl,
        calm.complete.touch id⟩
  | filled missed loaded =>
      refine ⟨touchedTtl, touchedLimit, started.put_complete (calm.slot?_start id) _ _, ?_⟩
      intro entry listed
      rcases List.mem_append.1 listed with kept | new
      · exact calm.complete_of_start kept
      · rw [List.mem_singleton.1 new]
        rfl
  | failed missed loaded =>
      exact ⟨touchedTtl, touchedLimit, started.invalidate id,
        fun entry listed => calm.complete_of_start listed⟩

/-! ## Histories -/

theorem Calm.after
    (calm : world.Calm ttl)
    (event : CacheEvent) :
    (world.after event).Calm ttl := by
  cases event with
  | store operation => exact ⟨calm.guard, calm.ttl, calm.positive, calm.tidy, calm.complete⟩
  | insert request => exact ⟨calm.guard, calm.ttl, calm.positive, calm.tidy, calm.complete⟩
  | get id =>
      obtain ⟨ttl, positive, tidy, complete⟩ := (calm.viewed id).calm calm
      exact ⟨(calm.view_eq id).1.trans calm.guard, ttl, positive, tidy, complete⟩
  | invalidate id =>
      exact ⟨calm.guard, calm.ttl, calm.positive, calm.tidy.invalidate id,
        calm.complete.invalidate id⟩
  | clear =>
      exact ⟨calm.guard, calm.ttl, calm.positive, calm.tidy.clear, fun _ listed => by cases listed⟩
  | tick instant => exact ⟨calm.guard, calm.ttl, calm.positive, calm.tidy, calm.complete⟩

theorem Calm.afterAll
    (calm : world.Calm ttl)
    (events : List CacheEvent) :
    (world.afterAll events).Calm ttl := by
  induction events generalizing world with
  | nil => exact calm
  | cons event rest inductionHypothesis => exact inductionHypothesis (calm.after event)

theorem calm_initial
    (firstRequest : RequestId)
    (limits : CacheLimits)
    (now : Timestamp) :
    (initial firstRequest limits now).Calm limits.ttl where
  guard := rfl
  ttl := rfl
  positive := Nat.lt_of_lt_of_le Nat.one_pos (Nat.le_max_right _ _)
  tidy := .empty ..
  complete _ listed := absurd listed List.not_mem_nil

/-- A slot that an event leaves in the cache was there before and was not loaded anew, or the event
is the get that has loaded its view. -/
theorem Calm.slot?_after
    (calm : world.Calm ttl)
    {event : CacheEvent}
    {slot : Slot View}
    (held : (world.after event).views.slot? id = some slot) :
    world.views.slot? id = some slot ∧ (event = .get id → world.fills id = false) ∨
      event = .get id ∧ world.fills id = true ∧
        ∃ view, world.store.view id = .ok view ∧ slot = .complete view world.instant := by
  cases event with
  | get asked =>
      by_cases same : asked = id
      · subst same
        rcases (calm.viewed asked).slot?_self held with ⟨before, served⟩ | ⟨missed, loaded⟩
        · exact .inl ⟨before, fun _ => served⟩
        · exact .inr ⟨rfl, missed, loaded⟩
      · refine .inl ⟨(calm.viewed asked).slot?_of_ne calm.tidy (Ne.symm same) held, ?_⟩
        rintro ⟨⟩
        exact absurd rfl same
  | invalidate dropped =>
      refine .inl ⟨?_, by rintro ⟨⟩⟩
      by_cases same : id = dropped
      · change (world.views.invalidate dropped).slot? id = some slot at held
        rw [same, Memo.slot?_invalidate_self] at held
        cases held
      · exact (Memo.slot?_invalidate_of_ne same).symm.trans held
  | clear => cases held
  | store operation => exact .inl ⟨held, by rintro ⟨⟩⟩
  | insert request => exact .inl ⟨held, by rintro ⟨⟩⟩
  | tick instant => exact .inl ⟨held, by rintro ⟨⟩⟩

/-- A slot goes back to the last fill of its view: the view was loaded then, and the slot has been
in the cache ever since. -/
structure Recalls
    (start : World)
    (id : RequestId)
    (slot : Slot View)
    (before later : List CacheEvent) : Prop where
  last : start.LastFill id before later
  loaded : ∃ view, (start.afterAll before).store.view id = .ok view ∧
    slot = .complete view (start.afterAll before).instant
  kept : ∀ between rest, later = between ++ rest →
    (start.afterAll (before ++ .get id :: between)).views.slot? id = some slot

theorem Recalls.append
    {slot : Slot View}
    {before later : List CacheEvent}
    (recalls : start.Recalls id slot before later)
    {event : CacheEvent}
    (served : event = .get id →
      (start.afterAll (before ++ .get id :: later)).fills id = false)
    (held : (start.afterAll (before ++ .get id :: (later ++ [event]))).views.slot? id =
      some slot) :
    start.Recalls id slot before (later ++ [event]) := by
  refine ⟨⟨recalls.last.1, fun between rest split => ?_⟩, recalls.loaded,
    fun between rest split => ?_⟩
  · rcases List.eq_nil_or_concat rest with rfl | ⟨initial, final, rfl⟩
    · obtain ⟨rfl, same⟩ := List.append_inj' split rfl
      exact served (List.cons.inj same).1
    · rw [List.concat_eq_append, ← List.cons_append, ← List.append_assoc] at split
      exact recalls.last.2 between initial (List.append_inj' split rfl).1
  · rcases List.eq_nil_or_concat rest with rfl | ⟨initial, final, rfl⟩
    · rw [List.append_nil] at split
      exact split ▸ held
    · rw [List.concat_eq_append, ← List.append_assoc] at split
      exact recalls.kept between initial (List.append_inj' split rfl).1

/-- Every view in the cache goes back to its last fill. -/
theorem Calm.exists_recalls
    (calm : start.Calm ttl)
    (empty : start.views.entries = [])
    {events : List CacheEvent}
    {slot : Slot View}
    (held : (start.afterAll events).views.slot? id = some slot) :
    ∃ before later, events = before ++ .get id :: later ∧ start.Recalls id slot before later := by
  induction events using List.reverseRecOn generalizing slot with
  | nil =>
      have listed := Memo.mem_of_slot?_eq_some held
      change _ ∈ start.views.entries at listed
      rw [empty] at listed
      cases listed
  | append_singleton past event inductionHypothesis =>
      have step := afterAll_append start past [event]
      have calmThen := calm.afterAll past
      have heldAfter := held
      rw [step] at held
      -- The last event has kept the slot, which goes back to the same fill as before, or filled it.
      rcases calmThen.slot?_after held with ⟨heldBefore, served⟩ | ⟨rfl, missed, loaded⟩
      · obtain ⟨before, later, rfl, recalls⟩ := inductionHypothesis heldBefore
        rw [List.append_assoc, List.cons_append] at heldAfter ⊢
        exact ⟨before, later ++ [event], rfl, recalls.append served heldAfter⟩
      · refine ⟨past, [], rfl, ⟨missed, fun between rest split => ?_⟩, loaded,
          fun between rest split => ?_⟩
        · cases between <;> cases split
        · obtain ⟨rfl, -⟩ := List.append_eq_nil_iff.1 split.symm
          exact heldAfter

/-- Nothing has dropped a view since its last fill. -/
theorem Recalls.not_mem
    {slot : Slot View}
    {before later : List CacheEvent}
    (recalls : start.Recalls id slot before later)
    {event : CacheEvent}
    (drops : event = .invalidate id ∨ event = .clear) :
    event ∉ later := by
  intro listed
  obtain ⟨between, rest, split⟩ := List.append_of_mem listed
  have held := recalls.kept (between ++ [event]) rest (by rw [split]; simp)
  rw [← List.cons_append, ← List.append_assoc, afterAll_append] at held
  change (World.after _ event).views.slot? id = some slot at held
  rcases drops with rfl | rfl
  · exact absurd (Memo.slot?_invalidate_self.symm.trans held) (by simp)
  · cases held

/-- A view that was served without being loaded is not of a cache that serves none. -/
theorem Calm.ttl_ne_zero
    (calm : world.Calm ttl)
    {view : View}
    {filledAt : Nat}
    (held : world.views.slot? id = some (.complete view filledAt))
    (served : world.fills id = false) :
    ttl ≠ some 0 := by
  intro zero
  unfold fills Memo.needsFill Memo.isExpired at served
  rw [held, calm.ttl, zero] at served
  simp at served

/-- A view in the cache has been served ever since its last fill, unless this is the last event. -/
theorem Recalls.kept_or_last
    (calm : start.Calm ttl)
    {events before later : List CacheEvent}
    {view : View}
    {filledAt : Nat}
    (split : events ++ [.get id] = before ++ .get id :: later)
    (recalls : start.Recalls id (.complete view filledAt) before later) :
    later = [] ∨
      ttl ≠ some 0 ∧ .invalidate id ∉ later ∧ .clear ∉ later ∧
      ∀ between rest, later = between ++ rest →
        (start.afterAll (before ++ .get id :: between)).views.slot? id ≠ none := by
  rcases List.eq_nil_or_concat later with rfl | ⟨initial, final, rfl⟩
  · exact .inl rfl
  · rw [List.concat_eq_append] at split recalls ⊢
    have whole : events ++ [.get id] = (before ++ .get id :: initial) ++ [final] := by
      rw [split, List.append_assoc, List.cons_append]
    obtain ⟨-, same⟩ := List.append_inj' whole rfl
    obtain rfl : .get id = final := (List.cons.inj same).1
    refine .inr ⟨?_, recalls.not_mem (.inl rfl), recalls.not_mem (.inr rfl),
      fun between rest prefixed => ?_⟩
    · exact (calm.afterAll _).ttl_ne_zero (recalls.kept initial [.get id] rfl)
        (recalls.last.2 initial [] rfl)
    · rw [recalls.kept between rest prefixed]
      exact Option.some_ne_none _

/-- The view cache is transparent. A get of a view gives what loading the view came to when it was
last filled. This is the get itself if the time limit of the cache is zero, the last load failed, or
the view has been invalidated, cleared or evicted since. So the get gives what loading the view
comes to now, if the calls that loaded it would be answered the same now, claims and outcomes
aside. -/
theorem view_transparent
    (firstRequest : RequestId)
    (limits : CacheLimits)
    (now : Timestamp)
    (events : List CacheEvent)
    (id : RequestId) :
    let start := initial firstRequest limits now
    let last := start.afterAll events
    ∃ before later, events ++ [.get id] = before ++ .get id :: later ∧
      start.LastFill id before later ∧
      (last.view id).1 = ((start.afterAll before).load id).1 ∧
      (later = [] ∨
        limits.ttl ≠ some 0 ∧ .invalidate id ∉ later ∧ .clear ∉ later ∧
        (∀ between rest, later = between ++ rest →
          (start.afterAll (before ++ .get id :: between)).views.slot? id ≠ none) ∧
        ∃ view, ((start.afterAll before).load id).1 = .ok view) ∧
      ((∀ call ∈ (start.afterAll before).store.asSubmitted.loadCalls id,
          last.store.asSubmitted.reply ⟨0⟩ call =
            (start.afterAll before).store.asSubmitted.reply ⟨0⟩ call) →
        (last.view id).1 = (last.load id).1) := by
  intro start last
  have calm : start.Calm limits.ttl := calm_initial firstRequest limits now
  have loads : ∀ past, ((start.afterAll past).load id).1 = (start.afterAll past).store.view id :=
    fun past => (load_eq (calm.afterAll past).isClear id).1
  have unchanged : ∀ {before},
      (last.view id).1 = (start.afterAll before).store.view id →
      (∀ call ∈ (start.afterAll before).store.asSubmitted.loadCalls id,
        last.store.asSubmitted.reply ⟨0⟩ call =
          (start.afterAll before).store.asSubmitted.reply ⟨0⟩ call) →
      (last.view id).1 = (last.load id).1 := by
    intro before same answers
    rw [same, loads, Store.view_of_loadCalls answers]
  have viewed : Viewed last id (last.view id).1 (start.afterAll (events ++ [.get id])).views := by
    rw [afterAll_append]
    exact (calm.afterAll events).viewed id
  cases result : (last.view id).1 with
  | error failure =>
      rw [result] at viewed
      obtain ⟨missed, loaded⟩ := viewed.loaded_of_error
      refine ⟨events, [], rfl, ⟨missed, fun between rest split => ?_⟩, ?_, .inl rfl, ?_⟩
      · cases between <;> cases split
      · rw [loads, loaded]
      · intro answers
        rw [← result]
        exact unchanged (result.trans loaded.symm) answers
  | ok view =>
      rw [result] at viewed
      obtain ⟨filledAt, held⟩ := viewed.exists_slot
      obtain ⟨before, later, split, recalls⟩ := calm.exists_recalls rfl held
      obtain ⟨loadedView, loaded, same⟩ := recalls.loaded
      cases same
      refine ⟨before, later, split, recalls.last, ?_, ?_, ?_⟩
      · rw [loads, loaded]
      · refine (recalls.kept_or_last calm split).imp_right ?_
        rintro ⟨limited, invalidated, cleared, kept⟩
        exact ⟨limited, invalidated, cleared, kept, view, (loads before).trans loaded⟩
      · intro answers
        rw [← result]
        exact unchanged (result.trans loaded.symm) answers

/-- A change that is added after its view was loaded is not shown. -/
theorem view_transparent_stale :
    let events : List CacheEvent :=
      [.store (.add (.builder Sample.linux)),
        .store (.add (.buildset (Sample.submission [Sample.linux.id]) Sample.submittedAt)),
        .get ⟨1⟩, .store (.add (.change ⟨1⟩ (Sample.change ⟨1⟩ "alice" "abc")))]
    let start := initial ⟨1⟩ .default Sample.submittedAt
    let last := start.afterAll events
    last.fills ⟨1⟩ = false ∧
      ∃ before later, later ≠ [] ∧ events ++ [.get ⟨1⟩] = before ++ .get ⟨1⟩ :: later ∧
        (last.view ⟨1⟩).1 = ((start.afterAll before).load ⟨1⟩).1 := by
  intro events start last
  have served : last.fills ⟨1⟩ = false := by decide +kernel
  obtain ⟨before, later, split, ⟨missed, -⟩, same, -⟩ :=
    view_transparent ⟨1⟩ .default Sample.submittedAt events ⟨1⟩
  refine ⟨served, before, later, ?_, split, same⟩
  rintro rfl
  obtain ⟨rfl, -⟩ := List.append_inj' split rfl
  exact absurd (served.symm.trans missed) (by simp)

end World
end BuildQueue
