import BuildQueue.Proofs.Memo.Fills
import BuildQueue.Proofs.Memo.Slots

/-!
# Soundness of a memo service

If every fill ends with a result that is good for its key then every get returns such a result,
whatever slots were evicted or refilled meanwhile and however many gets share a fill. A get that
waits for a fill waits for one of its own key.
-/

namespace BuildQueue
namespace MemoService

variable {κ ν ε : Type}

/-- A slot holds a good value of its key or waits for a fill of its key. -/
def SlotSound
    (good : κ → Except ε ν → Prop)
    (keys : List κ)
    (key : κ) : Slot ν → Prop
  | .waiting generation => keys[generation]? = some key
  | .complete value _ => good key (.ok value)

/-- A fill that has ended has ended with a result that is good for its key. -/
def FillSound
    (good : κ → Except ε ν → Prop)
    (fill : Fill κ ν ε) : Prop :=
  match fill.state with
  | .running => True
  | .succeeded value => good fill.key (.ok value)
  | .failed (some error) => good fill.key (.error error)
  | .failed none => ∃ error, good fill.key (.error error)

/-- What a service holds and is going to hold is good. -/
structure Sound (good : κ → Except ε ν → Prop) (service : MemoService κ ν ε) : Prop where
  slots : service.memo.Every (SlotSound good service.fillKeys)
  fills : ∀ fill ∈ service.fills, FillSound good fill
  results : ∀ {generation key result}, service.fillKeys[generation]? = some key →
    service.result? generation key = some result → good key result
  /-- A fill that has not started has no result. -/
  unsettled : ∀ {generation}, service.fills.length ≤ generation →
    ∀ key, service.result? generation key = none
  generation : service.memo.nextGeneration = service.fills.length

variable {good : κ → Except ε ν → Prop} {service after : MemoService κ ν ε}

theorem SlotSound.mono
    {keys more : List κ}
    {key : κ}
    {slot : Slot ν}
    (sound : SlotSound good keys key slot)
    (extension : keys <+: more) :
    SlotSound good more key slot := by
  cases slot with
  | waiting generation => exact getElem?_of_prefix extension sound
  | complete value filledAt => exact sound

/-- Taking in the result of a fill is sound. -/
theorem Sound.refresh
    (sound : Sound good service)
    {generation : Nat}
    {fill : Fill κ ν ε}
    (found : service.fills[generation]? = some fill) :
    FillSound good (service.refresh generation fill) := by
  have before : FillSound good fill := sound.fills fill (List.mem_of_getElem? found)
  unfold MemoService.refresh
  split
  · next result running settled =>
    have goodResult := sound.results (fillKeys_getElem? found) settled
    cases result <;> exact goodResult
  · exact before

theorem Sound.setFill
    (sound : Sound good service)
    {generation : Nat}
    {old new : Fill κ ν ε}
    (found : service.fills[generation]? = some old)
    (same : new.key = old.key)
    (newSound : FillSound good new) :
    Sound good (service.setFill generation new) where
  slots := by
    rw [fillKeys_setFill found same]
    exact sound.slots
  fills fill listed := by
    rcases List.mem_or_eq_of_mem_set listed with before | rfl
    · exact sound.fills fill before
    · exact newSound
  results := by
    rw [fillKeys_setFill found same]
    exact sound.results
  unsettled beyond := sound.unsettled (by simpa [MemoService.setFill] using beyond)
  generation := by simpa [MemoService.setFill] using sound.generation

/-- A table whose slots are sound may take the place of the one of a service. -/
theorem Sound.setMemo
    (sound : Sound good service)
    {memo : Memo κ ν}
    (slots : memo.Every (SlotSound good service.fillKeys))
    (generation : memo.nextGeneration = service.memo.nextGeneration) :
    Sound good { service with memo } where
  slots := slots
  fills := sound.fills
  results := sound.results
  unsettled := sound.unsettled
  generation := generation.trans sound.generation

/-- The service after a fill has started, before anybody waits for it. -/
theorem Sound.append
    (sound : Sound good service)
    {memo : Memo κ ν}
    (key : κ)
    (slots : memo.Every (SlotSound good (service.fillKeys ++ [key])))
    (generation : memo.nextGeneration = service.memo.nextGeneration + 1) :
    Sound good { service with memo, fills := service.fills ++ [Fill.mk key .running] } := by
  have keys : MemoService.fillKeys
      { service with memo, fills := service.fills ++ [Fill.mk key .running] } =
        service.fillKeys ++ [key] := List.map_append ..
  constructor
  case slots =>
    rw [keys]
    exact slots
  case fills =>
    intro fill listed
    rcases List.mem_append.1 listed with before | new
    · exact sound.fills fill before
    · obtain rfl := List.mem_singleton.1 new
      trivial
  case results =>
    intro index other result found settled
    rw [keys] at found
    by_cases before : index < service.fills.length
    · rw [List.getElem?_append_left (by simpa using before)] at found
      exact sound.results found settled
    · have none := sound.unsettled (Nat.le_of_not_lt before) other
      exact absurd (settled.symm.trans none) (by simp)
  case unsettled =>
    intro index beyond other
    rw [List.length_append] at beyond
    exact sound.unsettled (Nat.le_of_add_right_le beyond) other
  case generation =>
    rw [List.length_append, ← sound.generation]
    exact generation

/-- The result of a fill may be settled while it runs. -/
theorem Sound.settle
    (sound : Sound good service)
    {generation : Nat}
    {key : κ}
    (found : service.fillKeys[generation]? = some key)
    {result : Except ε ν}
    (goodResult : good key result) :
    Sound good (service.settle generation result) := by
  unfold MemoService.settle
  cases filler : service.filler with
  | prompt results => exact sound
  | manual settled =>
      have known : ∀ other otherKey, service.result? other otherKey = settled.lookup other := by
        intro other otherKey
        rw [result?, filler]
      refine ⟨sound.slots, sound.fills, ?_, ?_, sound.generation⟩
      · intro other otherKey otherResult otherFound taken
        change ((generation, result) :: settled).lookup other = some otherResult at taken
        rw [List.lookup_cons] at taken
        split at taken
        · next same =>
          obtain rfl := eq_of_beq same
          obtain rfl : otherKey = key := Option.some.inj (otherFound.symm.trans found)
          cases taken
          exact goodResult
        · rw [← known other otherKey] at taken
          exact sound.results otherFound taken
      · intro other beyond otherKey
        have bound := (List.getElem?_eq_some_iff.1 found).1
        rw [fillKeys_length] at bound
        dsimp only at beyond
        have different : (other == generation) = false := beq_eq_false_iff_ne.2 (by omega)
        change ((generation, result) :: settled).lookup other = none
        rw [List.lookup_cons, different, ← known other otherKey]
        exact sound.unsettled beyond otherKey

/-- What a round may come to. -/
def RoundSound
    (good : κ → Except ε ν → Prop)
    (after : MemoService κ ν ε)
    (key : κ) : Round ν ε → Prop
  | .returned result => good key result
  | .waits generation => after.fillKeys[generation]? = some key
  | .again => True

/-- A fill that a get of a key waits for is of this key, and so is what it has come to. -/
theorem Sound.refreshed
    (sound : Sound good service)
    {key : κ}
    {generation : Nat}
    {fill : Fill κ ν ε}
    (awaits : service.fillKeys[generation]? = some key)
    (found : service.fills[generation]? = some fill) :
    fill.key = key ∧ FillSound good ⟨key, (service.refresh generation fill).state⟩ := by
  obtain rfl : fill.key = key := Option.some.inj ((fillKeys_getElem? found).symm.trans awaits)
  refine ⟨rfl, ?_⟩
  have refreshed : FillSound good (service.refresh generation fill) := sound.refresh found
  have sameKey : (service.refresh generation fill).key = fill.key := key_refresh generation fill
  rw [← sameKey]
  exact refreshed

section Rounds

variable [DecidableEq κ]

/-- Waiting for a fill gives its result and no other. -/
theorem Sound.await
    (sound : Sound good service)
    {key : κ}
    {generation : Nat}
    (awaits : service.fillKeys[generation]? = some key) :
    Sound good (service.await key generation).2 ∧
      RoundSound good (service.await key generation).2 key
        (service.await key generation).1 := by
  have own : (service.await key generation).2.fillKeys[generation]? = some key := by
    rw [fillKeys_await]
    exact awaits
  have waited := awaited service key generation
  generalize service.await key generation = outcome at waited own ⊢
  cases waited with
  | missing absent => exact ⟨sound, own⟩
  | running found state =>
      exact ⟨sound.setFill found (key_refresh ..) (sound.refresh found), own⟩
  | succeeded found state =>
      have set := sound.setFill found (key_refresh ..) (sound.refresh found)
      have result := (sound.refreshed awaits found).2
      rw [state] at result
      refine ⟨?_, result⟩
      exact set.setMemo (set.slots.publish _ _ fun _ => result) (Memo.nextGeneration_publish ..)
  | @failed fill error found state =>
      obtain ⟨sameKey, result⟩ := sound.refreshed awaits found
      rw [state] at result
      have set : Sound good (service.setFill generation ⟨fill.key, .failed none⟩) :=
        sound.setFill found rfl ⟨error, sameKey ▸ result⟩
      refine ⟨?_, result⟩
      exact set.setMemo (set.slots.abandon _ _) (Memo.nextGeneration_abandon ..)
  | taken found state =>
      have set := sound.setFill found (key_refresh ..) (sound.refresh found)
      refine ⟨?_, trivial⟩
      exact set.setMemo (set.slots.abandon _ _) (Memo.nextGeneration_abandon ..)

/-- A request for a key is a hit, or it waits for a fill of the key in a service that is sound. -/
theorem Sound.request_cases
    (sound : Sound good service)
    (key : κ) :
    (∃ value memo, service.request key = (.returned (.ok value), { service with memo }) ∧
      good key (.ok value) ∧ Sound good { service with memo }) ∨
    ∃ filling generation, service.request key = filling.await key generation ∧
      Sound good filling ∧ filling.fillKeys[generation]? = some key := by
  unfold MemoService.request
  split
  · next value memo found =>
    obtain ⟨slots, generation, filledAt, goodValue⟩ := sound.slots.lookup_hit found
    exact .inl ⟨value, memo, rfl, goodValue, sound.setMemo slots generation⟩
  · next joined memo found =>
    obtain ⟨slots, generation, sameKey⟩ := sound.slots.lookup_joined found
    exact .inr ⟨_, joined, rfl, sound.setMemo slots generation, sameKey⟩
  · next started memo found =>
    obtain ⟨next, generation, -⟩ := Memo.lookup_started found
    have grown : service.fillKeys <+: service.fillKeys ++ [key] := List.prefix_append ..
    have own : (service.fillKeys ++ [key])[started]? = some key := by
      rw [next, sound.generation, ← fillKeys_length]
      exact List.getElem?_concat_length
    have slots : service.memo.Every (SlotSound good (service.fillKeys ++ [key])) :=
      fun entry listed => SlotSound.mono (sound.slots entry listed) grown
    have filling := sound.append key (slots.lookup_started found own) generation
    have keys : MemoService.fillKeys
        { service with memo, fills := service.fills ++ [Fill.mk key .running] } =
          service.fillKeys ++ [key] := List.map_append ..
    exact .inr ⟨_, started, rfl, filling, keys ▸ own⟩

/-- Looking a key up and waiting for the fill gives a good result. -/
theorem Sound.request
    (sound : Sound good service)
    (key : κ) :
    Sound good (service.request key).2 ∧
      RoundSound good (service.request key).2 key (service.request key).1 := by
  rcases sound.request_cases key with
    ⟨value, memo, hit, goodValue, kept⟩ | ⟨filling, generation, waits, kept, own⟩
  · rw [hit]
    exact ⟨kept, goodValue⟩
  · rw [waits]
    exact kept.await own

/-- A round of a get that waits for its own key, if for any, is sound. -/
theorem Sound.round
    (sound : Sound good service)
    {get : Get κ}
    (awaits : Awaits service get) :
    Sound good (service.round get).2 ∧
      RoundSound good (service.round get).2 get.key (service.round get).1 := by
  unfold MemoService.round
  split
  · next generation waiting => exact sound.await (awaits generation waiting)
  · exact sound.request get.key

/-- What a poll may come to. -/
def ProgressSound
    (good : κ → Except ε ν → Prop)
    (after : MemoService κ ν ε)
    (key : κ) : Progress κ ν ε → Prop
  | .returned result => good key result
  | .pending get => get.key = key ∧ Awaits after get

theorem Sound.rounds
    (sound : Sound good service)
    {get : Get κ}
    (awaits : Awaits service get)
    (count : Nat) :
    Sound good (service.rounds get count).2 ∧
      ProgressSound good (service.rounds get count).2 get.key (service.rounds get count).1 := by
  induction count generalizing service get with
  | zero => exact ⟨sound, rfl, awaits⟩
  | succ count inductionHypothesis =>
      have round := sound.round awaits
      unfold MemoService.rounds
      generalize service.round get = outcome at round
      obtain ⟨result, after⟩ := outcome
      cases result with
      | returned result => exact round
      | waits generation =>
          refine ⟨round.1, rfl, fun waited waiting => ?_⟩
          cases waiting
          exact round.2
      | again =>
          have fresh : Awaits after ⟨get.key, none⟩ := fun _ waiting => by cases waiting
          exact inductionHypothesis round.1 fresh

/-- A poll keeps a service sound and returns only good results. -/
theorem Sound.poll
    (sound : Sound good service)
    {get : Get κ}
    (awaits : Awaits service get) :
    Sound good (service.poll get).2 ∧
      Extends (service.poll get).2 service ∧
      ProgressSound good (service.poll get).2 get.key (service.poll get).1 := by
  obtain ⟨kept, comes⟩ := sound.rounds awaits maxRounds
  exact ⟨kept, extends_poll service get, comes⟩

/-! ## Fills that do not fail -/

/-- Where no error is good, waiting for a fill gives a result as soon as there is one. -/
theorem Sound.await_cases
    (sound : Sound good service)
    {key : κ}
    {generation : Nat}
    (awaits : service.fillKeys[generation]? = some key)
    (total : ∀ error, ¬ good key (.error error)) :
    (∃ result, (service.await key generation).1 = .returned result) ∨
      (service.await key generation).1 = .waits generation ∧
        service.result? generation key = none := by
  have waited := awaited service key generation
  generalize service.await key generation = outcome at waited ⊢
  cases waited with
  | missing absent =>
      rw [fillKeys, List.getElem?_map, absent] at awaits
      cases awaits
  | @running fill found state =>
      refine .inr ⟨rfl, ?_⟩
      obtain ⟨sameKey, -⟩ := sound.refreshed awaits found
      unfold MemoService.refresh at state
      rw [sameKey] at state
      split at state
      · next result running settled => cases result <;> cases state
      · next unsettled =>
        cases result : service.result? generation key with
        | none => rfl
        | some result' => exact absurd result (unsettled result' state)
  | succeeded found state => exact .inl ⟨_, rfl⟩
  | failed found state => exact .inl ⟨_, rfl⟩
  | taken found state =>
      obtain ⟨-, refreshed⟩ := sound.refreshed awaits found
      rw [state] at refreshed
      obtain ⟨error, impossible⟩ := refreshed
      exact absurd impossible (total error)

/-- Where no error is good, a round returns or waits. A get that waits for a fill already goes on to
wait for it until there is a result. -/
theorem Sound.round_cases
    (sound : Sound good service)
    {get : Get κ}
    (awaits : Awaits service get)
    (total : ∀ error, ¬ good get.key (.error error)) :
    (∃ result, (service.round get).1 = .returned result) ∨
      ∃ generation, (service.round get).1 = .waits generation ∧
        (get.awaits = none ∨
          get.awaits = some generation ∧ service.result? generation get.key = none) := by
  unfold MemoService.round
  split
  · next generation waiting =>
    refine (sound.await_cases (awaits generation waiting) total).imp_right fun waits => ?_
    exact ⟨generation, waits.1, .inr ⟨waiting, waits.2⟩⟩
  · next fresh =>
    rcases sound.request_cases get.key with
      ⟨value, memo, hit, -⟩ | ⟨filling, generation, joins, kept, own⟩
    · rw [hit]
      exact .inl ⟨_, rfl⟩
    · rw [joins]
      refine (kept.await_cases own total).imp_right fun waits => ?_
      exact ⟨generation, waits.1, .inl fresh⟩

/-- Where no error is good, a poll comes to a result or to a fill, and if it is a fill that the get
waited for before then there is no result of it. -/
theorem Sound.poll_cases
    (sound : Sound good service)
    {get : Get κ}
    (awaits : Awaits service get)
    (total : ∀ error, ¬ good get.key (.error error)) :
    (∃ result, (service.poll get).1 = .returned result) ∨
      ∃ generation, (service.poll get).1 = .pending ⟨get.key, some generation⟩ ∧
        (get.awaits = none ∨
          get.awaits = some generation ∧ service.result? generation get.key = none) := by
  unfold MemoService.poll maxRounds MemoService.rounds
  rcases sound.round_cases awaits total with ⟨result, returned⟩ | ⟨generation, waits, kept⟩
  · generalize service.round get = outcome at returned
    obtain ⟨_, after⟩ := outcome
    obtain rfl := returned
    exact .inl ⟨result, rfl⟩
  · generalize service.round get = outcome at waits
    obtain ⟨_, after⟩ := outcome
    obtain rfl := waits
    exact .inr ⟨generation, rfl, kept⟩

end Rounds

end MemoService
end BuildQueue
