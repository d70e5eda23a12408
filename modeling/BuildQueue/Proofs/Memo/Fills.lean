import BuildQueue.Memo.Service

/-!
# Fills of a memo service

The fills of a service are numbered in the order of their starts and keep their keys. What waiting
for a fill does is said once, by how far the fill has come: it takes the result of the fill in,
hands it on if there is one, and gives the slot of the fill its value or drops it.
-/

namespace BuildQueue
namespace MemoService

variable {κ ν ε : Type}

/-- The keys of the fills, in the order of their generations. -/
def fillKeys (service : MemoService κ ν ε) : List κ := service.fills.map Fill.key

/-- A get waits for a fill of its own key, if for any. -/
def Awaits (service : MemoService κ ν ε) (get : Get κ) : Prop :=
  ∀ generation, get.awaits = some generation → service.fillKeys[generation]? = some get.key

/-- A service after another one, with as many fills or more. -/
def Extends (after before : MemoService κ ν ε) : Prop :=
  before.fillKeys <+: after.fillKeys

variable {service after last : MemoService κ ν ε}

theorem Extends.refl (service : MemoService κ ν ε) : Extends service service :=
  List.prefix_rfl

theorem Extends.of_fillKeys_eq
    (same : after.fillKeys = service.fillKeys) :
    Extends after service := by
  unfold Extends
  exact same ▸ List.prefix_rfl

theorem Extends.trans
    (second : Extends last after)
    (first : Extends after service) :
    Extends last service :=
  List.IsPrefix.trans first second

theorem getElem?_of_prefix
    {keys more : List κ}
    (extension : keys <+: more)
    {generation : Nat}
    {key : κ}
    (found : keys[generation]? = some key) :
    more[generation]? = some key := by
  obtain ⟨rest, rfl⟩ := extension
  obtain ⟨bound, -⟩ := List.getElem?_eq_some_iff.1 found
  rw [List.getElem?_append_left bound]
  exact found

theorem Awaits.extends
    {get : Get κ}
    (awaits : Awaits service get)
    (extension : Extends after service) :
    Awaits after get :=
  fun generation waiting => getElem?_of_prefix extension (awaits generation waiting)

theorem result?_of_filler
    (same : after.filler = service.filler)
    (generation : Nat)
    (key : κ) :
    after.result? generation key = service.result? generation key := by
  rw [result?, same]
  rfl

@[simp] theorem fillKeys_length : service.fillKeys.length = service.fills.length :=
  List.length_map ..

theorem fillKeys_getElem?
    {generation : Nat}
    {fill : Fill κ ν ε}
    (found : service.fills[generation]? = some fill) :
    service.fillKeys[generation]? = some fill.key := by
  rw [fillKeys, List.getElem?_map, found]
  rfl

@[simp] theorem key_refresh
    (generation : Nat)
    (fill : Fill κ ν ε) :
    (service.refresh generation fill).key = fill.key := by
  unfold refresh
  split <;> rfl

/-- A fill replaced by one of the same key leaves the keys as they are. -/
theorem fillKeys_setFill
    {generation : Nat}
    {old new : Fill κ ν ε}
    (found : service.fills[generation]? = some old)
    (same : new.key = old.key) :
    (service.setFill generation new).fillKeys = service.fillKeys := by
  refine List.ext_getElem? fun index => ?_
  simp only [fillKeys, setFill, List.getElem?_map, List.getElem?_set]
  split
  · next equal =>
    subst equal
    obtain ⟨bound, value⟩ := List.getElem?_eq_some_iff.1 found
    rw [if_pos bound, found, Option.map_some, Option.map_some, same]
  · rfl

theorem fillKeys_settle
    (service : MemoService κ ν ε)
    (generation : Nat)
    (result : Except ε ν) :
    (service.settle generation result).fillKeys = service.fillKeys := by
  unfold settle
  split <;> rfl

section Await

variable [DecidableEq κ]

/-- What waiting for a fill comes to, by how far the fill has come. -/
inductive Awaited
    (service : MemoService κ ν ε)
    (key : κ)
    (generation : Nat) : Round ν ε × MemoService κ ν ε → Prop where
  | missing (absent : service.fills[generation]? = none) :
      Awaited service key generation (.waits generation, service)
  | running
      {fill : Fill κ ν ε}
      (found : service.fills[generation]? = some fill)
      (state : (service.refresh generation fill).state = .running) :
      Awaited service key generation
        (.waits generation, service.setFill generation (service.refresh generation fill))
  | succeeded
      {fill : Fill κ ν ε}
      {value : ν}
      (found : service.fills[generation]? = some fill)
      (state : (service.refresh generation fill).state = .succeeded value) :
      Awaited service key generation
        (.returned (.ok value),
          { service.setFill generation (service.refresh generation fill) with
            memo := service.memo.publish service.now key generation value })
  | failed
      {fill : Fill κ ν ε}
      {error : ε}
      (found : service.fills[generation]? = some fill)
      (state : (service.refresh generation fill).state = .failed (some error)) :
      Awaited service key generation
        (.returned (.error error),
          { service.setFill generation ⟨fill.key, .failed none⟩ with
            memo := service.memo.abandon key generation })
  /-- Another get has taken the error. -/
  | taken
      {fill : Fill κ ν ε}
      (found : service.fills[generation]? = some fill)
      (state : (service.refresh generation fill).state = .failed none) :
      Awaited service key generation
        (.again,
          { service.setFill generation (service.refresh generation fill) with
            memo := service.memo.abandon key generation })

theorem awaited
    (service : MemoService κ ν ε)
    (key : κ)
    (generation : Nat) :
    Awaited service key generation (service.await key generation) := by
  unfold await
  cases found : service.fills[generation]? with
  | none => exact .missing found
  | some fill =>
      dsimp only
      rcases state : (service.refresh generation fill).state with _ | value | _ | error
      · exact .running found state
      · exact .succeeded found state
      · exact .taken found state
      · have sameKey : (service.refresh generation fill).key = fill.key :=
          key_refresh generation fill
        have failed : Awaited service key generation _ := .failed found state
        rw [← sameKey] at failed
        simpa only [setFill, List.set_set] using failed

/-- Waiting for a fill starts none. -/
theorem fillKeys_await
    (service : MemoService κ ν ε)
    (key : κ)
    (generation : Nat) :
    (service.await key generation).2.fillKeys = service.fillKeys := by
  have waited := awaited service key generation
  generalize service.await key generation = outcome at waited ⊢
  cases waited with
  | missing absent => rfl
  | running found state => exact fillKeys_setFill found (key_refresh ..)
  | succeeded found state => exact fillKeys_setFill found (key_refresh ..)
  | failed found state => exact fillKeys_setFill found rfl
  | taken found state => exact fillKeys_setFill found (key_refresh ..)

theorem extends_request
    (service : MemoService κ ν ε)
    (key : κ) :
    Extends (service.request key).2 service := by
  unfold request
  split
  · exact .refl service
  · exact .of_fillKeys_eq (fillKeys_await ..)
  · rw [Extends, fillKeys_await]
    unfold fillKeys
    rw [List.map_append]
    exact List.prefix_append ..

theorem extends_round
    (service : MemoService κ ν ε)
    (get : Get κ) :
    Extends (service.round get).2 service := by
  unfold round
  split
  · exact .of_fillKeys_eq (fillKeys_await ..)
  · exact extends_request service get.key

theorem extends_rounds
    (service : MemoService κ ν ε)
    (get : Get κ)
    (count : Nat) :
    Extends (service.rounds get count).2 service := by
  induction count generalizing service get with
  | zero => exact .refl service
  | succ count inductionHypothesis =>
      have round := extends_round service get
      unfold rounds
      generalize service.round get = outcome at round ⊢
      obtain ⟨result, after⟩ := outcome
      cases result with
      | returned result => exact round
      | waits generation => exact round
      | again => exact (inductionHypothesis after _).trans round

/-- A poll may start fills, after all that have started before. -/
theorem extends_poll
    (service : MemoService κ ν ε)
    (get : Get κ) :
    Extends (service.poll get).2 service :=
  extends_rounds service get maxRounds

@[simp] theorem filler_await (service : MemoService κ ν ε) (key : κ) (generation : Nat) :
    (service.await key generation).2.filler = service.filler := by
  unfold MemoService.await
  split
  · rfl
  · dsimp only
    split <;> rfl

@[simp] theorem filler_round (service : MemoService κ ν ε) (get : Get κ) :
    (service.round get).2.filler = service.filler := by
  unfold MemoService.round MemoService.request
  split
  · exact filler_await ..
  · split
    · rfl
    · exact filler_await ..
    · exact filler_await ..

@[simp] theorem filler_rounds (service : MemoService κ ν ε) (get : Get κ) (count : Nat) :
    (service.rounds get count).2.filler = service.filler := by
  induction count generalizing service get with
  | zero => rfl
  | succ count inductionHypothesis =>
      have round := filler_round service get
      unfold MemoService.rounds
      generalize service.round get = outcome at round
      obtain ⟨result, after⟩ := outcome
      cases result with
      | returned result => exact round
      | waits generation => exact round
      | again => exact (inductionHypothesis _ _).trans round

/-- A poll settles nothing. -/
@[simp] theorem filler_poll (service : MemoService κ ν ε) (get : Get κ) :
    (service.poll get).2.filler = service.filler :=
  filler_rounds service get maxRounds

end Await

end MemoService
end BuildQueue
