import BuildQueue.Proofs.Memo.Slots
import BuildQueue.Proofs.Pass.Finding
import BuildQueue.World

/-!
# Passes alone

A pass that is alone at a site meets nothing but faults and the passing of time. A course says which
calls fail, each by itself, and what the clocks show at each step; so whatever is shown of all
courses holds for any fault of any call, also of the calls by which a view is loaded. A world, whose
guard fails all calls of a method alike, is the case of a course that does not change.
-/

namespace BuildQueue

/-- What a pass meets, by the number of steps that were taken before. -/
structure Course where
  /-- How a call fails, if it does not reach the store. -/
  failure : Nat → Call → Option Failure
  now : Nat → Timestamp
  /-- The instants of the clock by which views grow old. -/
  instant : Nat → Nat

/-- A site at which one pass acts, with its view cache. -/
structure Episode extends Site where
  views : Memo RequestId View
  steps : Nat
  /-- The calls of the pass and of its view cache so far. -/
  exchanges : List Exchange

namespace Episode

/-- The site before the first step. -/
def start (site : Site) (views : Memo RequestId View) : Episode where
  toSite := site
  views
  steps := 0
  exchanges := []

/-- The site after a step, which took some exchanges. -/
def advance (episode : Episode) (site : Site) (exchanges : List Exchange) : Episode :=
  { episode with
    toSite := site
    steps := episode.steps + 1
    exchanges := episode.exchanges ++ exchanges }

/-- Nothing but reads was asked of the store. -/
structure Still (before after : Episode) : Prop where
  store : after.store = before.store
  reads : ∃ reads, after.exchanges = before.exchanges ++ reads ∧
    ∀ exchange ∈ reads, exchange.call.method.isWrite = false

variable {first second third : Episode}

theorem Still.refl (episode : Episode) : Still episode episode :=
  ⟨rfl, [], (List.append_nil _).symm, fun _ listed => absurd listed List.not_mem_nil⟩

theorem Still.trans
    (earlier : Still first second)
    (later : Still second third) :
    Still first third := by
  obtain ⟨reads, appended, harmless⟩ := earlier.reads
  obtain ⟨more, appendedMore, harmlessToo⟩ := later.reads
  refine ⟨later.store.trans earlier.store, reads ++ more, ?_, fun exchange listed => ?_⟩
  · rw [appendedMore, appended, List.append_assoc]
  · rcases List.mem_append.1 listed with before | after
    · exact harmless exchange before
    · exact harmlessToo exchange after

end Episode

namespace Course

/-- The site of an episode at the current time. -/
def site (course : Course) (episode : Episode) : Site :=
  { episode.toSite with now := course.now episode.steps }

/-- Makes a call that may fail. -/
def call (course : Course) (account : Account) (asked : Call) (episode : Episode) :
    asked.Reply × Episode :=
  let (reply, site) : asked.Reply × Site :=
    match course.failure episode.steps asked with
    | some failure => (.error failure, course.site episode)
    | none => (course.site episode).callStore account asked
  (reply, episode.advance site [⟨asked, reply⟩])

/-- Loads a view at the cost of the cache. -/
def load (course : Course) (id : RequestId) (episode : Episode) :
    Except Failure View × Episode :=
  Script.run (course.call .cache) (View.load id).run episode

/-- The view of a request as the view cache gives it. A look-up that finds no view loads it; a
failure is handed on and not kept. -/
def view (course : Course) (id : RequestId) (episode : Episode) : Except Failure View × Episode :=
  match episode.views.lookup (course.instant episode.steps) id with
  | (.hit view, views) => (.ok view, { episode with views })
  | (.joined generation, views) | (.started generation, views) =>
    let (result, episode) := course.load id { episode with views }
    let views :=
      match result with
      | .ok view => episode.views.publish (course.instant episode.steps) id generation view
      | .error _ => episode.views.abandon id generation
    (result, { episode with views })

/-- What an effect gives, and the episode after it. -/
def perform (course : Course) : (effect : Effect) → Episode → effect.Reply × Episode
  | .act (.call account asked), episode => course.call account asked episode
  | .act action, episode =>
    let (reply, site) := (course.site episode).act none action
    (reply, episode.advance site (action.exchanges reply))
  | .view id, episode => course.view id episode

/-- Runs a pass to its end. -/
def run {α : Type} (course : Course) (pass : Pass α) (episode : Episode) :
    Except Failure α × Episode :=
  Script.run course.perform (ExceptT.run pass) episode

/-- Whether some call fails. -/
def Faulty (course : Course) : Prop := ∃ step asked, course.failure step asked ≠ none

/-- No call fails. -/
def IsClear (course : Course) : Prop := ∀ step asked, course.failure step asked = none

variable {course : Course} {episode : Episode}

theorem IsClear.not_faulty (clear : course.IsClear) : ¬ course.Faulty :=
  fun ⟨step, asked, fails⟩ => fails (clear step asked)

/-- One pass after the other: an error of the first is one of both. -/
theorem run_bind
    {α β : Type}
    (course : Course)
    (first : Pass α)
    (next : α → Pass β)
    (episode : Episode) :
    course.run (first >>= next) episode =
      match course.run first episode with
      | (.ok value, later) => course.run (next value) later
      | (.error failure, later) => (.error failure, later) := by
  unfold run
  change Script.run course.perform (first.run >>= ExceptT.bindCont next) episode = _
  rw [Script.run_bind]
  generalize Script.run course.perform first.run episode = outcome
  obtain ⟨result, later⟩ := outcome
  cases result <;> rfl

/-- A call is answered by the store or by a fault. -/
theorem answers_call
    (account : Account)
    (asked : Call) :
    episode.store.Answers course.Faulty asked (course.call account asked episode).1
      (course.call account asked episode).2.store := by
  unfold call
  cases failing : course.failure episode.steps asked with
  | none => exact Site.answers_callStore (course.site episode) _ account asked
  | some failure =>
      have faulty : course.Faulty := ⟨episode.steps, asked, failing ▸ Option.some_ne_none failure⟩
      exact .inr ⟨faulty, ⟨failure, rfl⟩, rfl⟩

@[simp] theorem exchanges_call (account : Account) (asked : Call) :
    (course.call account asked episode).2.exchanges =
      episode.exchanges ++ [⟨asked, (course.call account asked episode).1⟩] := rfl

/-- A call that reads leaves the store as it is. -/
theorem still_call
    (account : Account)
    {asked : Call}
    (reads : asked.method.isWrite = false) :
    episode.Still (course.call account asked episode).2 := by
  refine ⟨?_, _, exchanges_call account asked, fun exchange listed => ?_⟩
  · rcases answers_call account asked with ⟨now, -, after⟩ | ⟨-, -, after⟩
    · exact after.trans (Store.perform_of_read _ now reads)
    · exact after
  · rw [List.mem_singleton.1 listed]
    exact reads

/-- An action is answered by the store or by a fault. -/
theorem answers_act (action : Action) :
    action.Answers course.Faulty episode.store (course.perform (.act action) episode).1
      (course.perform (.act action) episode).2.store := by
  have act : ∀ action : Action, action.Answers course.Faulty episode.store
      ((course.site episode).act none action).1 ((course.site episode).act none action).2.store :=
    fun action => (Site.answers_act (course.site episode) none action).mono
      fun impossible => absurd rfl impossible
  cases action with
  | call account asked => exact answers_call account asked
  | direct asked => exact act (.direct asked)
  | time => exact act .time
  | count counter => exact act (.count counter)
  | log level message => exact act (.log level message)

theorem exchanges_act (action : Action) :
    (course.perform (.act action) episode).2.exchanges =
      episode.exchanges ++ action.exchanges (course.perform (.act action) episode).1 := by
  cases action <;> rfl

theorem views_act (action : Action) :
    (course.perform (.act action) episode).2.views = episode.views := by
  cases action <;> rfl

/-- Loading a view takes nothing but reads, and the view is that of the request, unless a call
fails. -/
theorem load_honest
    {base : Store}
    (alike : episode.store.asSubmitted = base.asSubmitted)
    (id : RequestId) :
    Honest base course.Faulty id (course.load id episode).1 ∧
      episode.Still (course.load id episode).2 ∧
      (course.load id episode).2.views = episode.views := by
  have served := (View.load_ensures base course.Faulty id).run (course.call .cache)
    (fun later (_ : Unit) => episode.Still later ∧ later.views = episode.views)
    ?honoured episode ⟨.refl episode, rfl⟩
  case honoured =>
    rintro asked later _ ⟨still, views⟩ reads
    refine ⟨(), ?_, still.trans (still_call .cache reads), views⟩
    rcases answers_call .cache asked with ⟨now, reply, -⟩ | ⟨fault, reply, -⟩
    · exact .inl ⟨later.store, now, still.store ▸ alike, reply⟩
    · exact .inr ⟨fault, reply⟩
  obtain ⟨_, kept, honest⟩ := served
  exact ⟨honest, kept⟩

end Course

/-- Every view that a cache holds is that of the request in a store. -/
def Memo.HoldsViews (views : Memo RequestId View) (base : Store) : Prop :=
  views.Every fun id slot =>
    match slot with
    | .waiting _ => True
    | .complete view _ => base.view id = .ok view

/-- A cache that holds nothing holds views of the requests only. -/
theorem Memo.holdsViews_of_empty
    {views : Memo RequestId View}
    (empty : views.entries = [])
    (base : Store) :
    views.HoldsViews base :=
  fun _ listed => absurd listed (empty ▸ List.not_mem_nil)

namespace Course

variable {course : Course} {episode : Episode}

/-- The cache gives a view at the cost of nothing but reads. -/
theorem still_view (id : RequestId) : episode.Still (course.view id episode).2 := by
  unfold view
  cases found : episode.views.lookup (course.instant episode.steps) id with
  | mk lookup views =>
  -- The end of a fill changes the cache only.
  have filled : Episode.Still { episode with views } (course.load id { episode with views }).2 :=
    (@load_honest course { episode with views } episode.store rfl id).2.1
  cases lookup with
  | hit view => exact ⟨rfl, (Episode.Still.refl episode).reads⟩
  | joined generation => exact ⟨filled.store, filled.reads⟩
  | started generation => exact ⟨filled.store, filled.reads⟩

/-- The end of a fill gives the view of the request, unless a call fails, and leaves the cache with
such views only. -/
theorem fill_honest
    {base : Store}
    (alike : episode.store.asSubmitted = base.asSubmitted)
    (holds : episode.views.HoldsViews base)
    (id : RequestId)
    (generation : Nat) :
    let (result, later) := course.load id episode
    let views :=
      match result with
      | .ok view => later.views.publish (course.instant later.steps) id generation view
      | .error _ => later.views.abandon id generation
    Honest base course.Faulty id result ∧ views.HoldsViews base := by
  have loaded := @load_honest course episode base alike id
  generalize course.load id episode = outcome at loaded
  obtain ⟨result, later⟩ := outcome
  obtain ⟨honest, -, views⟩ := loaded
  dsimp only at honest views ⊢
  refine ⟨honest, ?_⟩
  rw [views]
  cases result with
  | ok view => exact holds.publish _ generation fun _ => honest.view_eq
  | error failure => exact holds.abandon id generation

/-- The view that the cache gives is that of the request, unless a call fails, and the cache goes on
to hold such views only. -/
theorem view_honest
    {base : Store}
    (alike : episode.store.asSubmitted = base.asSubmitted)
    (holds : episode.views.HoldsViews base)
    (id : RequestId) :
    Honest base course.Faulty id (course.view id episode).1 ∧
      (course.view id episode).2.views.HoldsViews base := by
  unfold view
  cases found : episode.views.lookup (course.instant episode.steps) id with
  | mk lookup views =>
  cases lookup with
  | hit view =>
      obtain ⟨slots, -, filledAt, same⟩ := Memo.Every.lookup_hit holds found
      exact ⟨.inl same.symm, slots⟩
  | joined generation =>
      obtain ⟨slots, -, -⟩ := Memo.Every.lookup_joined holds found
      exact @fill_honest course { episode with views } base alike slots id generation
  | started generation =>
      have slots := Memo.Every.lookup_started holds found trivial
      exact @fill_honest course { episode with views } base alike slots id generation

end Course

/-! ## Worlds -/

namespace Site

@[simp] theorem now_countFor (site : Site) (account : Account) (counter : Counter) :
    (site.countFor account counter).now = site.now := by
  cases account <;> rfl

theorem now_callStore (site : Site) (account : Account) (asked : Call) :
    (site.callStore account asked).2.now = site.now :=
  now_countFor ..

theorem now_act (site : Site) (fault : Option String) (action : Action) :
    (site.act fault action).2.now = site.now := by
  cases action with
  | call account asked =>
      cases fault with
      | none => exact now_callStore ..
      | some message => rfl
  | direct asked => exact now_callStore ..
  | count counter => exact now_countFor ..
  | time => rfl
  | log level message => rfl

end Site

namespace World

/-- The course that a world takes, whose guard and clocks do not change. -/
def course (world : World) : Course where
  failure _ asked := (world.guard.fault? asked.method).map Failure.other
  now _ := world.now
  instant _ := world.instant

/-- No call meets a fault. -/
def IsClear (world : World) : Prop := world.guard.faults = []

/-- If no call meets a fault then none fails on the course of the world. -/
theorem IsClear.course {world : World} (clear : world.IsClear) : world.course.IsClear := by
  intro step asked
  change (world.guard.fault? asked.method).map Failure.other = none
  rw [Guard.fault?, clear]
  rfl

/-- An episode shows the same as a world, which has changed since but not in its guard and its
clocks. -/
structure Shows (first world : World) (episode : Episode) : Prop where
  site : episode.toSite = world.toSite
  views : episode.views = world.views
  guard : world.guard = first.guard
  now : world.now = first.now
  instant : world.instant = first.instant

variable {first world : World} {episode : Episode}

theorem Shows.start (world : World) :
    Shows world world (.start world.toSite world.views) :=
  ⟨rfl, rfl, rfl, rfl, rfl⟩

theorem Shows.course_site (shows : Shows first world episode) :
    first.course.site episode = world.toSite := by
  rw [Course.site, shows.site]
  change { world.toSite with now := first.now } = world.toSite
  rw [← shows.now]

theorem Shows.advance
    (shows : Shows first world episode)
    {site : Site}
    (now : site.now = world.now)
    (exchanges : List Exchange) :
    Shows first { world with toSite := site } (episode.advance site exchanges) :=
  ⟨rfl, shows.views, shows.guard, now.trans shows.now, shows.instant⟩

theorem Shows.call
    (shows : Shows first world episode)
    (account : Account)
    (asked : Call) :
    (world.callGuarded account asked).1 = (first.course.call account asked episode).1 ∧
      Shows first (world.callGuarded account asked).2
        (first.course.call account asked episode).2 := by
  have failing : first.course.failure episode.steps asked =
      (world.guard.fault? asked.method).map Failure.other := by
    rw [shows.guard]
    rfl
  unfold callGuarded Course.call Site.callWith
  rw [shows.course_site, failing]
  cases world.guard.fault? asked.method with
  | none => exact ⟨rfl, shows.advance (Site.now_callStore ..) _⟩
  | some message => exact ⟨rfl, shows.advance rfl _⟩

theorem Shows.load
    (shows : Shows first world episode)
    (id : RequestId) :
    (world.load id).1 = (first.course.load id episode).1 ∧
      Shows first (world.load id).2 (first.course.load id episode).2 :=
  Script.run_alike (Shows first) (fun asked _ _ shows => shows.call .cache asked) _ shows

theorem Shows.setViews
    (shows : Shows first world episode)
    (views : Memo RequestId View) :
    Shows first { world with views } { episode with views } :=
  ⟨shows.site, rfl, shows.guard, shows.now, shows.instant⟩

/-- The end of a fill is the same. -/
theorem Shows.fill
    (shows : Shows first world episode)
    (id : RequestId)
    (generation : Nat) :
    let (result, later) := world.load id
    let (other, after) := first.course.load id episode
    let views :=
      match result with
      | .ok view => later.views.publish later.instant id generation view
      | .error _ => later.views.abandon id generation
    let others :=
      match other with
      | .ok view => after.views.publish (first.course.instant after.steps) id generation view
      | .error _ => after.views.abandon id generation
    result = other ∧ Shows first { later with views } { after with views := others } := by
  have loaded := shows.load id
  generalize world.load id = outcome at loaded
  generalize first.course.load id episode = twin at loaded
  obtain ⟨result, later⟩ := outcome
  obtain ⟨other, after⟩ := twin
  obtain ⟨rfl, showsLater⟩ := loaded
  have instant : first.course.instant after.steps = later.instant := showsLater.instant.symm
  refine ⟨rfl, ?_⟩
  dsimp only
  rw [instant, showsLater.views]
  exact showsLater.setViews _

theorem Shows.view
    (shows : Shows first world episode)
    (id : RequestId) :
    (world.view id).1 = (first.course.view id episode).1 ∧
      Shows first (world.view id).2 (first.course.view id episode).2 := by
  have instant : first.course.instant episode.steps = world.instant := shows.instant.symm
  unfold World.view Course.view
  rw [instant, shows.views]
  cases world.views.lookup world.instant id with
  | mk lookup views =>
  cases lookup with
  | hit view => exact ⟨rfl, shows.setViews views⟩
  | joined generation => exact (shows.setViews views).fill id generation
  | started generation => exact (shows.setViews views).fill id generation

theorem Shows.act
    (shows : Shows first world episode)
    (action : Action) :
    (world.toSite.act none action).1 = ((first.course.site episode).act none action).1 ∧
      Shows first { world with toSite := (world.toSite.act none action).2 }
        (episode.advance ((first.course.site episode).act none action).2
          (action.exchanges ((first.course.site episode).act none action).1)) := by
  rw [shows.course_site]
  exact ⟨rfl, shows.advance (Site.now_act ..) _⟩

theorem Shows.perform
    (shows : Shows first world episode)
    (effect : Effect) :
    (world.perform effect).1 = (first.course.perform effect episode).1 ∧
      Shows first (world.perform effect).2 (first.course.perform effect episode).2 := by
  cases effect with
  | view id => exact shows.view id
  | act action =>
      cases action with
      | call account asked => exact shows.call account asked
      | direct asked => exact shows.act (.direct asked)
      | time => exact shows.act .time
      | count counter => exact shows.act (.count counter)
      | log level message => exact shows.act (.log level message)

/-- A pass runs in a world as it runs on the course of the world. -/
theorem run_eq
    {α : Type}
    (world : World)
    (pass : Pass α) :
    (world.run pass).1 = (world.course.run pass (.start world.toSite world.views)).1 ∧
      (world.run pass).2.store =
        (world.course.run pass (.start world.toSite world.views)).2.store := by
  obtain ⟨same, shows⟩ := Script.run_alike (Shows world)
    (fun effect _ _ shows => shows.perform effect) pass.run (.start world)
  exact ⟨same, congrArg Site.store shows.site.symm⟩

end World
end BuildQueue
