import BuildQueue.Proofs.System.Moves
import BuildQueue.Proofs.View.Loading

/-!
# Views under any schedule

While nothing is submitted, every view that a pass is given is the view of the request in the
store, however the passes share their caches and whoever makes the calls of a fill. The invariant
`System.ViewsSound` says that the caches hold and load such views only, and that every get waits
for a fill of its own key.
-/

namespace BuildQueue

namespace ViewCache

/-- A cache holds honest views, and its loads give honest views. -/
structure Sound (base : Store) (faulty : Prop) (cache : ViewCache) : Prop where
  service : cache.service.Sound (Honest base faulty)
  started : cache.loads.length = cache.service.fills.length
  loads : ∀ {generation : Nat} {load id}, cache.loads[generation]? = some load →
    cache.service.fillKeys[generation]? = some id →
    Script.Ensures (loading base faulty) (fun result _ => Honest base faulty id result) load ()
  manual : ∃ settled, cache.service.filler = .manual settled
  /-- The end of a load has settled its fill. -/
  ended : ∀ {generation : Nat} {result}, cache.loads[generation]? = some (.done result) →
    ∀ id, cache.service.result? generation id ≠ none

variable {base : Store} {faulty : Prop} {cache : ViewCache}

theorem sound_empty (limits : CacheLimits) : Sound base faulty (empty limits) where
  service :=
    { slots := Memo.every_empty _ _ _ _
      fills := fun _ listed => absurd listed List.not_mem_nil
      results := fun found =>
        absurd found (by simp [empty, MemoService.fillKeys, MemoService.ofMemo])
      unsettled := fun _ _ => rfl
      generation := rfl }
  started := rfl
  loads found := absurd found (by simp [empty])
  manual := ⟨[], rfl⟩
  ended found := absurd found (by simp [empty])

/-- Two caches whose services differ in the clock only are sound together. -/
theorem Sound.setNow
    (sound : Sound base faulty cache)
    (instant : Nat) :
    Sound base faulty { cache with service := { cache.service with now := instant } } where
  service := ⟨sound.service.slots, sound.service.fills, sound.service.results,
    sound.service.unsettled, sound.service.generation⟩
  started := sound.started
  loads := sound.loads
  manual := sound.manual
  ended := sound.ended

/-- A load is one of a fill, and gives an honest view of its key. -/
theorem Sound.exists_key
    (sound : Sound base faulty cache)
    {generation : Nat}
    {load : Script Call.Reply (Except Failure View)}
    (found : cache.loads[generation]? = some load) :
    ∃ id, cache.service.fillKeys[generation]? = some id ∧
      Script.Ensures (loading base faulty) (fun result _ => Honest base faulty id result)
        load () := by
  obtain ⟨bound, -⟩ := List.getElem?_eq_some_iff.1 found
  rw [sound.started, ← MemoService.fillKeys_length] at bound
  have key := List.getElem?_eq_getElem bound
  exact ⟨_, key, sound.loads found key⟩

/-- The call that a load makes next is a read. -/
theorem Sound.asks
    (sound : Sound base faulty cache)
    {generation : Nat}
    {call : Call}
    {next : call.Reply → Script Call.Reply (Except Failure View)}
    (asked : cache.loads[generation]? = some (.ask call next)) :
    call.method.isWrite = false := by
  obtain ⟨id, -, ensured⟩ := sound.exists_key asked
  exact ensured.1

/-- A poll of a get keeps a cache sound and gives an honest view. -/
theorem Sound.poll
    (sound : Sound base faulty cache)
    {get : Get RequestId}
    (awaits : cache.service.Awaits get) :
    Sound base faulty (cache.poll get).2 ∧
      (cache.poll get).2.service.Extends cache.service ∧
      MemoService.ProgressSound (Honest base faulty) (cache.poll get).2.service get.key
        (cache.poll get).1 := by
  obtain ⟨service, extension, progress⟩ := sound.service.poll awaits
  have filler := MemoService.filler_poll cache.service get
  unfold ViewCache.poll
  generalize cache.service.poll get = outcome at service extension progress filler
  obtain ⟨came, after⟩ := outcome
  dsimp only at service extension progress filler
  have grown : cache.loads.length ≤ after.fillKeys.length := by
    rw [sound.started, ← MemoService.fillKeys_length]
    exact extension.length_le
  refine ⟨⟨service, ?_, ?_, ?_, ?_⟩, extension, progress⟩
  · simp only [startLoads, List.length_append, List.length_map, List.length_drop]
    rw [MemoService.fillKeys_length] at grown ⊢
    omega
  · intro generation load id loading key
    change (cache.loads ++ (after.fillKeys.drop cache.loads.length).map
      fun id => (View.load id).run)[generation]? = some load at loading
    by_cases before : generation < cache.loads.length
    · rw [List.getElem?_append_left before] at loading
      refine sound.loads loading ?_
      obtain ⟨more, split⟩ := extension
      change after.fillKeys[generation]? = some id at key
      rw [← split, List.getElem?_append_left] at key
      · exact key
      · rw [MemoService.fillKeys_length, ← sound.started]
        exact before
    · have there : cache.loads.length ≤ generation := Nat.le_of_not_lt before
      rw [List.getElem?_append_right there, List.getElem?_map, List.getElem?_drop,
        Nat.add_sub_cancel' there] at loading
      change after.fillKeys[generation]? = some id at key
      rw [key] at loading
      cases loading
      exact View.load_ensures base faulty id
  · obtain ⟨settled, manual⟩ := sound.manual
    exact ⟨settled, filler.trans manual⟩
  · intro generation result loading id
    change (cache.loads ++ (after.fillKeys.drop cache.loads.length).map
      fun id => (View.load id).run)[generation]? = some (.done result) at loading
    by_cases before : generation < cache.loads.length
    · rw [List.getElem?_append_left before] at loading
      change after.result? generation id ≠ none
      rw [MemoService.result?_of_filler filler]
      exact sound.ended loading id
    · rw [List.getElem?_append_right (Nat.le_of_not_lt before), List.getElem?_map] at loading
      obtain ⟨id, -, load⟩ := Option.map_eq_some_iff.1 loading
      cases load

@[simp] theorem fillKeys_resume
    (cache : ViewCache)
    (generation : Nat)
    (rest : Script Call.Reply (Except Failure View)) :
    (cache.resume generation rest).service.fillKeys = cache.service.fillKeys := by
  unfold resume
  cases rest with
  | ask call next => rfl
  | done result =>
      dsimp only
      unfold MemoService.settle
      split <;> rfl

theorem loads_resume
    {generation other : Nat}
    {rest load : Script Call.Reply (Except Failure View)}
    (loading : (cache.resume generation rest).loads[other]? = some load) :
    (other = generation ∧ load = rest) ∨
      (other ≠ generation ∧ cache.loads[other]? = some load) := by
  change (cache.loads.set generation rest)[other]? = some load at loading
  rw [List.getElem?_set] at loading
  split at loading
  · next same =>
    split at loading
    · exact .inl ⟨same.symm, (Option.some.inj loading).symm⟩
    · cases loading
  · next different => exact .inr ⟨fun same => different same.symm, loading⟩

/-- A load that goes on to what gives an honest view keeps a cache sound. -/
theorem Sound.resume
    (sound : Sound base faulty cache)
    {generation : Nat}
    {id : RequestId}
    (key : cache.service.fillKeys[generation]? = some id)
    {rest : Script Call.Reply (Except Failure View)}
    (ensured : Script.Ensures (loading base faulty)
      (fun result _ => Honest base faulty id result) rest ()) :
    Sound base faulty (cache.resume generation rest) := by
  obtain ⟨settled, manual⟩ := sound.manual
  have keys := fillKeys_resume cache generation rest
  have lengths := congrArg List.length keys
  rw [MemoService.fillKeys_length, MemoService.fillKeys_length] at lengths
  constructor
  case service =>
    cases rest with
    | done result => exact sound.service.settle key ensured
    | ask call next => exact sound.service
  case started =>
    rw [lengths, ← sound.started]
    exact List.length_set
  case loads =>
    intro other load otherId loading otherKey
    rw [keys] at otherKey
    rcases loads_resume loading with ⟨rfl, rfl⟩ | ⟨-, before⟩
    · obtain rfl : otherId = id := Option.some.inj (otherKey.symm.trans key)
      exact ensured
    · exact sound.loads before otherKey
  case manual =>
    cases rest with
    | done result => exact ⟨(generation, result) :: settled, by
        simp [ViewCache.resume, MemoService.settle, manual]⟩
    | ask call next => exact ⟨settled, manual⟩
  case ended =>
    intro other result loading otherId
    have known : ∀ otherId, cache.service.result? other otherId = settled.lookup other := by
      intro otherId
      rw [MemoService.result?, manual]
    rcases loads_resume loading with ⟨rfl, rfl⟩ | ⟨different, before⟩
    · simp [ViewCache.resume, MemoService.settle, MemoService.result?, manual]
    · have unsettled := sound.ended before otherId
      rw [known] at unsettled
      cases rest with
      | ask call next => exact sound.ended before otherId
      | done last =>
          simp [ViewCache.resume, MemoService.settle, MemoService.result?, manual,
            List.lookup_cons, beq_eq_false_iff_ne.2 different, unsettled]

/-- The next call of a load keeps a cache sound. -/
theorem Sound.drive
    (sound : Sound base faulty cache)
    {site : Site}
    (alike : site.store.asSubmitted = base.asSubmitted)
    {fault : Option String}
    (faults : fault ≠ none → faulty)
    {generation : Nat}
    {call : Call}
    {next : call.Reply → Script Call.Reply (Except Failure View)}
    (asked : cache.loads[generation]? = some (.ask call next)) :
    Sound base faulty
      (cache.resume generation (next (site.callWith fault .cache call).1)) := by
  obtain ⟨id, key, ensured⟩ := sound.exists_key asked
  refine sound.resume key (ensured.2 _ () ?_)
  rcases Site.answers_callWith site fault .cache call with
    ⟨now, reply, -⟩ | ⟨fault, reply, -⟩
  · exact .inl ⟨site.store, now, alike, reply⟩
  · exact .inr ⟨faults fault, reply⟩

end ViewCache

namespace System

variable {ι κ : Type}

/-- The caches of a system are sound, and each get of a pass is one of the view that the pass asks
for, waiting for a fill of it if for any. -/
structure ViewsSound (base : Store) (faulty : Prop) (system : System ι κ) : Prop where
  caches : ∀ cache, (system.caches cache).Sound base faulty
  gets : ∀ {who get}, (system.passes who).get = some get →
    (∃ next, (system.passes who).rest = .ask (.view get.key) next) ∧
      (system.caches (system.passes who).cache).service.Awaits get

variable {base : Store} {faulty : Prop} {system : System ι κ}

/-- At the start there are no gets, so only the caches matter. -/
theorem viewsSound_start
    (site : Site)
    {caches : κ → ViewCache}
    (sound : ∀ cache, (caches cache).Sound base faulty)
    (jobs : ι → Job κ) :
    ViewsSound base faulty (start site caches jobs) where
  caches := sound
  gets polled := by cases polled

/-- The get by which a pass goes on to a view is one of this view. -/
theorem ViewsSound.get
    (sound : ViewsSound base faulty system)
    {who : ι}
    {id : RequestId}
    {next : Except Failure View → Script Effect.Reply (Except Failure (List RequestId))}
    (asked : (system.passes who).rest = .ask (.view id) next) :
    ((system.passes who).get.getD (.ofKey id)).key = id ∧
      (system.caches (system.passes who).cache).service.Awaits
        ((system.passes who).get.getD (.ofKey id)) := by
  cases polled : (system.passes who).get with
  | none => exact ⟨rfl, fun _ waiting => by cases waiting⟩
  | some get =>
      obtain ⟨⟨other, askedAgain⟩, awaits⟩ := sound.gets polled
      rw [asked] at askedAgain
      cases askedAgain
      exact ⟨rfl, awaits⟩

/-- A view that a pass is given is honest. -/
theorem ViewsSound.honest
    (sound : ViewsSound base faulty system)
    {who : ι}
    {id : RequestId}
    {next : Except Failure View → Script Effect.Reply (Except Failure (List RequestId))}
    (asked : (system.passes who).rest = .ask (.view id) next)
    {result : Except Failure View}
    (polled : ((system.caches (system.passes who).cache).poll
      ((system.passes who).get.getD (.ofKey id))).1 = .returned result) :
    Honest base faulty id result := by
  obtain ⟨key, awaits⟩ := sound.get asked
  obtain ⟨-, -, progress⟩ := (sound.caches _).poll awaits
  rw [polled, key] at progress
  exact progress

/-- Only the caches and the passes of a system matter. -/
theorem ViewsSound.of_eq
    (sound : ViewsSound base faulty system)
    {after : System ι κ}
    (caches : after.caches = system.caches)
    (passes : after.passes = system.passes) :
    ViewsSound base faulty after := by
  constructor
  · rw [caches]
    exact sound.caches
  · rw [caches, passes]
    exact sound.gets

theorem ViewsSound.reply
    [DecidableEq ι]
    (sound : ViewsSound base faulty system)
    (who : ι)
    (rest : Script Effect.Reply (Except Failure (List RequestId))) :
    ViewsSound base faulty (system.reply who rest) where
  caches := sound.caches
  gets {other get} polled := by
    by_cases same : other = who
    · subst same
      simp [System.reply] at polled
    · rw [passes_reply_of_ne _ same] at polled ⊢
      exact sound.gets polled

variable [DecidableEq κ]

/-- A cache may be replaced by a sound one with as many fills or more. -/
theorem ViewsSound.setCache
    (sound : ViewsSound base faulty system)
    {cache : κ}
    {new : ViewCache}
    (newSound : new.Sound base faulty)
    (extension : new.service.Extends (system.caches cache).service) :
    ViewsSound base faulty
      { system with caches := Function.update system.caches cache new } where
  caches other := by
    by_cases same : other = cache
    · subst same
      simpa using newSound
    · simpa [same] using sound.caches other
  gets {who get} polled := by
    obtain ⟨asked, awaits⟩ := sound.gets polled
    refine ⟨asked, ?_⟩
    change MemoService.Awaits
      (Function.update system.caches cache new (system.passes who).cache).service get
    by_cases same : (system.passes who).cache = cache
    · rw [same] at awaits ⊢
      rw [Function.update_self]
      exact awaits.extends extension
    · rw [Function.update_of_ne same]
      exact awaits

theorem ViewsSound.drive
    (sound : ViewsSound base faulty system)
    (alike : system.site.store.asSubmitted = base.asSubmitted)
    {client : Option ι}
    {cache : κ}
    {generation : Nat}
    {fault : Option String}
    (faults : fault ≠ none → faulty)
    {after : System ι κ}
    (driven : system.drive client cache generation fault = some after) :
    ViewsSound base faulty after := by
  obtain ⟨call, next, asked, rfl⟩ := drive_eq_some driven
  have resumed := (sound.caches cache).drive alike faults asked
  have extension := MemoService.Extends.of_fillKeys_eq (ViewCache.fillKeys_resume
    (system.caches cache) generation (next (system.site.callWith fault .cache call).1))
  exact (sound.setCache resumed extension).of_eq rfl rfl

variable [DecidableEq ι]

theorem ViewsSound.poll
    (sound : ViewsSound base faulty system)
    {who : ι}
    {id : RequestId}
    {next : Except Failure View → Script Effect.Reply (Except Failure (List RequestId))}
    (asked : (system.passes who).rest = .ask (.view id) next) :
    ViewsSound base faulty
      (system.poll who ((system.passes who).get.getD (.ofKey id)) next) := by
  obtain ⟨key, awaits⟩ := sound.get asked
  obtain ⟨cacheSound, extension, progress⟩ := (sound.caches _).poll awaits
  have set := sound.setCache cacheSound extension
  unfold System.poll
  dsimp only
  split
  · exact set.reply who _
  · next get pending =>
    rw [pending, key] at progress
    refine ⟨set.caches, fun {other polled} found => ?_⟩
    by_cases same : other = who
    · subst same
      obtain rfl : get = polled := by simpa using found
      refine ⟨⟨next, ?_⟩, ?_⟩
      · rw [progress.1]
        simpa using asked
      · simpa using progress.2
    · have before : (system.passes other).get = some polled := by simpa [same] using found
      simpa [same] using set.gets before

/-- While nothing is submitted, every turn keeps the views sound. -/
theorem ViewsSound.step
    (sound : ViewsSound base faulty system)
    (alike : system.site.store.asSubmitted = base.asSubmitted)
    {turn : Turn ι κ}
    (faults : turn.IsFaulty → faulty) :
    ViewsSound base faulty (system.step turn) := by
  cases turn with
  | pass who fault =>
      have advanced := advances system who fault
      change ViewsSound base faulty (system.advance who fault)
      generalize system.advance who fault = after at advanced ⊢
      cases advanced with
      | ended => exact sound
      | acts action next asked => exact (sound.reply who _).of_eq rfl rfl
      | drives id next generation asked driven => exact sound.drive alike faults driven
      | polls id next asked => exact sound.poll asked
  | call call => exact sound.of_eq rfl rfl
  | submit addition => exact sound.of_eq rfl rfl
  | look cache id =>
      have fresh : (system.caches cache).service.Awaits (.ofKey id) :=
        fun _ waiting => by cases waiting
      obtain ⟨polled, extension, -⟩ := (sound.caches cache).poll fresh
      exact sound.setCache polled extension
  | drive cache generation fault =>
      unfold System.step
      dsimp only
      cases driven : system.drive none cache generation fault with
      | none => exact sound
      | some after => exact sound.drive alike faults driven
  | tick cache instant =>
      exact sound.setCache ((sound.caches cache).setNow instant) (.refl _)
  | clock now => exact sound.of_eq rfl rfl

end System
end BuildQueue
