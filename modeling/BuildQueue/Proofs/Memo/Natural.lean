import BuildQueue.Memo.Service

/-!
# Values are not looked at

A memo service hands on the values and errors of its fills without ever looking at one. Putting
other values in the place of all values of a service, in its table, in its fills and in what they
are going to give, therefore commutes with everything the service does: what is found, joined,
started, kept, dropped and evicted does not depend on the values.
-/

namespace BuildQueue

variable {κ ν ν' ε ε' : Type}

theorem lookup_map_snd
    [BEq κ]
    (f : ν → ν')
    (key : κ)
    (entries : List (κ × ν)) :
    (entries.map (Prod.map id f)).lookup key = (entries.lookup key).map f := by
  induction entries with
  | nil => rfl
  | cons entry rest inductionHypothesis =>
      obtain ⟨first, value⟩ := entry
      simp only [List.map_cons, Prod.map_apply, id, List.lookup_cons]
      cases key == first with
      | true => rfl
      | false => exact inductionHypothesis

/-- The slot with another value in place of the one that it holds. -/
def Slot.map (f : ν → ν') : Slot ν → Slot ν'
  | waiting generation => .waiting generation
  | complete value filledAt => .complete (f value) filledAt

namespace Memo

/-- What is found, with another value in place of the one that is hit. -/
def Lookup.map (f : ν → ν') : Lookup ν → Lookup ν'
  | hit value => .hit (f value)
  | joined generation => .joined generation
  | started generation => .started generation

/-- The table with other values in its slots. -/
def map (f : ν → ν') (memo : Memo κ ν) : Memo κ ν' where
  shardOf := memo.shardOf
  shardCount := memo.shardCount
  shardLimit := memo.shardLimit
  ttl := memo.ttl
  entries := memo.entries.map (Prod.map id (Slot.map f))
  nextGeneration := memo.nextGeneration
  hits := memo.hits
  misses := memo.misses

variable (f : ν → ν') (memo : Memo κ ν)

theorem isExpired_map (now filledAt : Nat) :
    (memo.map f).isExpired now filledAt = memo.isExpired now filledAt :=
  rfl

theorem length_shard_map (index : Nat) :
    ((memo.map f).shard index).length = (memo.shard index).length := by
  unfold shard map
  rw [List.filter_map, List.length_map]
  rfl

theorem dropFirst_map
    (p : κ × Slot ν' → Bool)
    (count : Nat)
    (entries : List (κ × Slot ν)) :
    dropFirst p count (entries.map (Prod.map id (Slot.map f))) =
      (dropFirst (fun entry => p (Prod.map id (Slot.map f) entry)) count entries).map
        (Prod.map id (Slot.map f)) := by
  induction entries generalizing count with
  | nil =>
      cases count <;> rfl
  | cons entry rest inductionHypothesis =>
      cases count with
      | zero => rfl
      | succ count =>
          simp only [List.map_cons, dropFirst]
          split
          · exact inductionHypothesis count
          · rw [inductionHypothesis (count + 1), List.map_cons]

theorem trim_map (index : Nat) :
    (memo.map f).trim index = (memo.trim index).map f := by
  unfold trim
  rw [length_shard_map]
  simp only [map]
  rw [dropFirst_map]
  rfl

variable [DecidableEq κ]

theorem slot?_map (key : κ) : (memo.map f).slot? key = (memo.slot? key).map (Slot.map f) :=
  lookup_map_snd (Slot.map f) key memo.entries

theorem without_map
    (key : κ)
    (entries : List (κ × Slot ν)) :
    without key (entries.map (Prod.map id (Slot.map f))) =
      (without key entries).map (Prod.map id (Slot.map f)) := by
  unfold without
  rw [List.filter_map]
  rfl

theorem put_map (key : κ) (slot : Slot ν) :
    (memo.map f).put key (slot.map f) = (memo.put key slot).map f := by
  unfold put
  simp only [map, List.map_append, without_map]
  rfl

theorem touch_map (key : κ) : (memo.map f).touch key = (memo.touch key).map f := by
  unfold touch
  rw [slot?_map]
  cases memo.slot? key with
  | none => rfl
  | some slot => exact put_map f memo key slot

theorem invalidate_map (key : κ) :
    (memo.map f).invalidate key = (memo.invalidate key).map f := by
  unfold invalidate
  simp only [map, without_map]

theorem start_map (key : κ) :
    (memo.map f).start key = Prod.map (Lookup.map f) (Memo.map f) (memo.start key) := by
  have filling := put_map f memo key (.waiting memo.nextGeneration)
  have trimmed := trim_map f (memo.put key (.waiting memo.nextGeneration)) (memo.shardOf key)
  rw [← filling] at trimmed
  unfold start
  exact congrArg (fun table : Memo κ ν' =>
    (Lookup.started memo.nextGeneration,
      { table with nextGeneration := memo.nextGeneration + 1, misses := memo.misses + 1 })) trimmed

theorem lookup_map (now : Nat) (key : κ) :
    (memo.map f).lookup now key = Prod.map (Lookup.map f) (Memo.map f) (memo.lookup now key) := by
  unfold lookup
  rw [slot?_map, touch_map]
  cases memo.slot? key with
  | none => exact start_map f (memo.touch key) key
  | some slot =>
      cases slot with
      | waiting generation => rfl
      | complete value filledAt =>
          simp only [Option.map_some, Slot.map]
          have same := isExpired_map f memo now filledAt
          by_cases expired : memo.isExpired now filledAt
          · rw [if_pos (same.trans expired), if_pos expired]
            exact start_map f (memo.touch key) key
          · rw [if_neg (same ▸ expired), if_neg expired]
            rfl

theorem owns_map (key : κ) (generation : Nat) :
    (memo.map f).owns key generation = memo.owns key generation := by
  unfold owns
  rw [slot?_map]
  cases memo.slot? key with
  | none => rfl
  | some slot => cases slot <;> rfl

theorem publish_map (now : Nat) (key : κ) (generation : Nat) (value : ν) :
    (memo.map f).publish now key generation (f value) =
      (memo.publish now key generation value).map f := by
  unfold publish
  rw [owns_map]
  split
  · exact put_map f memo key (.complete value now)
  · rfl

theorem abandon_map (key : κ) (generation : Nat) :
    (memo.map f).abandon key generation = (memo.abandon key generation).map f := by
  unfold abandon
  rw [owns_map]
  split
  · exact invalidate_map f memo key
  · rfl

theorem isPresent_map (now : Nat) (key : κ) :
    (memo.map f).isPresent now key = Prod.map id (Memo.map f) (memo.isPresent now key) := by
  unfold isPresent
  rw [slot?_map, touch_map]
  cases memo.slot? key with
  | none => rfl
  | some slot => cases slot <;> rfl

end Memo

/-- The result with another value, or another error, in its place. -/
def mapResult (f : ν → ν') (g : ε → ε') : Except ε ν → Except ε' ν'
  | .ok value => .ok (f value)
  | .error error => .error (g error)

/-- The filler with other values and errors in the results that it gives. -/
def Filler.map (f : ν → ν') (g : ε → ε') : Filler κ ν ε → Filler κ ν' ε'
  | prompt result => .prompt fun generation key => mapResult f g (result generation key)
  | manual settled => .manual (settled.map (Prod.map id (mapResult f g)))

/-- The state with another value or error in it. -/
def FillState.map (f : ν → ν') (g : ε → ε') : FillState ν ε → FillState ν' ε'
  | running => .running
  | succeeded value => .succeeded (f value)
  | failed error => .failed (error.map g)

/-- The fill with another value or error in its state. -/
def Fill.map (f : ν → ν') (g : ε → ε') (fill : Fill κ ν ε) : Fill κ ν' ε' :=
  ⟨fill.key, fill.state.map f g⟩

/-- What a poll comes to, with another value or error in what is returned. -/
def Progress.map (f : ν → ν') (g : ε → ε') : Progress κ ν ε → Progress κ ν' ε'
  | returned result => .returned (mapResult f g result)
  | pending get => .pending get

namespace MemoService

/-- What a round comes to, with another value or error in what is returned. -/
def Round.map (f : ν → ν') (g : ε → ε') : Round ν ε → Round ν' ε'
  | returned result => .returned (mapResult f g result)
  | waits generation => .waits generation
  | again => .again

/-- The service with other values and errors in its table, its fills and its filler. -/
def map (f : ν → ν') (g : ε → ε') (service : MemoService κ ν ε) : MemoService κ ν' ε' where
  memo := service.memo.map f
  filler := service.filler.map f g
  fills := service.fills.map (Fill.map f g)
  now := service.now

variable (f : ν → ν') (g : ε → ε') (service : MemoService κ ν ε)

theorem result?_map (generation : Nat) (key : κ) :
    (service.map f g).result? generation key =
      (service.result? generation key).map (mapResult f g) := by
  unfold result? map
  cases service.filler with
  | prompt result => rfl
  | manual settled =>
      exact lookup_map_snd (mapResult f g) generation settled

theorem settle_map (generation : Nat) (result : Except ε ν) :
    (service.map f g).settle generation (mapResult f g result) =
      (service.settle generation result).map f g := by
  obtain ⟨memo, filler, fills, now⟩ := service
  cases filler <;> rfl

theorem ofResult_map (result : Except ε ν) :
    FillState.ofResult (mapResult f g result) = (FillState.ofResult result).map f g := by
  cases result <;> rfl

theorem refresh_map (generation : Nat) (fill : Fill κ ν ε) :
    (service.map f g).refresh generation (fill.map f g) =
      (service.refresh generation fill).map f g := by
  obtain ⟨key, state⟩ := fill
  unfold refresh
  simp only [Fill.map, result?_map]
  cases state with
  | running =>
      cases service.result? generation key with
      | none => rfl
      | some result => exact congrArg (Fill.mk key) (ofResult_map f g result)
  | succeeded value => rfl
  | failed error => rfl

theorem setFill_map (generation : Nat) (fill : Fill κ ν ε) :
    (service.map f g).setFill generation (fill.map f g) =
      (service.setFill generation fill).map f g := by
  unfold setFill map
  simp only [List.map_set]

variable [DecidableEq κ]

theorem await_map (key : κ) (generation : Nat) :
    (service.map f g).await key generation =
      Prod.map (Round.map f g) (map f g) (service.await key generation) := by
  unfold await
  have fills : (service.map f g).fills[generation]? =
      (service.fills[generation]?).map (Fill.map f g) := List.getElem?_map
  rw [fills]
  cases service.fills[generation]? with
  | none => rfl
  | some fill =>
      simp only [Option.map_some, refresh_map, setFill_map]
      generalize service.refresh generation fill = ended
      obtain ⟨own, state⟩ := ended
      rcases state with _ | value | _ | error
      · rfl
      · simp only [Fill.map, FillState.map, setFill, map, Memo.publish_map, Prod.map, Round.map,
          mapResult]
      · simp only [Fill.map, FillState.map, Option.map_none, setFill, map, Memo.abandon_map,
          Prod.map, Round.map]
      · simp only [Fill.map, FillState.map, Option.map_some, Option.map_none, setFill, map,
          Memo.abandon_map, List.map_set, Prod.map, Round.map, mapResult]

theorem request_map (key : κ) :
    (service.map f g).request key =
      Prod.map (Round.map f g) (map f g) (service.request key) := by
  unfold request
  have found := Memo.lookup_map f service.memo service.now key
  rw [show (service.map f g).memo.lookup (service.map f g).now key = _ from found]
  generalize service.memo.lookup service.now key = looked
  obtain ⟨lookup, memo⟩ := looked
  cases lookup with
  | hit value => rfl
  | joined generation => exact await_map f g { service with memo } key generation
  | started generation =>
      have waits := await_map f g
        { service with memo, fills := service.fills ++ [Fill.mk key .running] } key generation
      rw [← waits]
      unfold map
      simp only [List.map_append]
      rfl

theorem round_map (get : Get κ) :
    (service.map f g).round get = Prod.map (Round.map f g) (map f g) (service.round get) := by
  unfold round
  cases get.awaits with
  | none => exact request_map f g service get.key
  | some generation => exact await_map f g service get.key generation

theorem rounds_map (get : Get κ) (count : Nat) :
    (service.map f g).rounds get count =
      Prod.map (Progress.map f g) (map f g) (service.rounds get count) := by
  induction count generalizing service get with
  | zero => rfl
  | succ count inductionHypothesis =>
      unfold rounds
      rw [round_map]
      generalize service.round get = outcome
      obtain ⟨round, after⟩ := outcome
      cases round with
      | returned result => rfl
      | waits generation => rfl
      | again => exact inductionHypothesis after ⟨get.key, none⟩

theorem poll_map (get : Get κ) :
    (service.map f g).poll get = Prod.map (Progress.map f g) (map f g) (service.poll get) :=
  rounds_map f g service get maxRounds

end MemoService
end BuildQueue
