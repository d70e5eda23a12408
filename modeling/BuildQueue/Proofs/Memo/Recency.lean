import BuildQueue.Proofs.Memo.Shape
import Mathlib.Data.List.DropRight
import Mathlib.Data.List.Dedup
import Mathlib.Data.Finset.Card

/-!
# Eviction by recency

A table with one shard and no time limit holds the keys that were requested last, as many as its
limit allows. A key that is requested again is found just if fewer other keys than that were
requested in between, so a table with a larger limit finds every key that a smaller one finds. This
is shown for fills that succeed at once, for which each get returns when it is polled first.
-/

namespace BuildQueue

/-! ## The last items of a list -/

section Rtake

variable {κ : Type} {limit : Nat} {keys : List κ} {key : κ}

theorem rtake_of_length_le (short : keys.length ≤ limit) : keys.rtake limit = keys := by
  rw [List.rtake, Nat.sub_eq_zero_of_le short, List.drop_zero]

theorem rtake_append_of_le
    (front : List κ)
    (long : limit ≤ keys.length) :
    (front ++ keys).rtake limit = keys.rtake limit := by
  have split : (front ++ keys).length - limit = front.length + (keys.length - limit) := by
    rw [List.length_append]
    omega
  rw [List.rtake, split, List.drop_length_add_append, List.rtake]

theorem length_rtake (limit : Nat) (keys : List κ) :
    (keys.rtake limit).length = min limit keys.length := by
  rw [List.rtake, List.length_drop]
  omega

/-- Among the last keys of a list is a key just if few enough keys come after it. -/
theorem mem_rtake_iff
    {front back : List κ}
    (distinct : (front ++ key :: back).Nodup) :
    key ∈ (front ++ key :: back).rtake limit ↔ back.length < limit := by
  constructor
  · intro kept
    by_contra! many
    have long : limit ≤ back.length := many
    rw [List.append_cons, rtake_append_of_le _ long] at kept
    have listed := (List.drop_sublist _ _).subset kept
    exact (List.nodup_cons.1 (List.nodup_append.1 distinct).2.1).1 listed
  · intro few
    have last : key :: back <:+ (front ++ key :: back).rtake limit := by
      refine List.suffix_of_suffix_length_le (List.suffix_append _ _) (List.drop_suffix _ _) ?_
      change back.length + 1 ≤ ((front ++ key :: back).rtake limit).length
      rw [length_rtake, List.length_append, List.length_cons]
      omega
    exact last.subset List.mem_cons_self

/-- A key that is dropped makes room for one more. -/
theorem rtake_erase_rtake [DecidableEq κ]
    (distinct : keys.Nodup)
    (limit : Nat)
    (key : κ) :
    ((keys.rtake (limit + 1)).erase key).rtake limit = (keys.erase key).rtake limit := by
  by_cases short : keys.length ≤ limit + 1
  · rw [rtake_of_length_le short]
  · obtain ⟨front, split⟩ : keys.rtake (limit + 1) <:+ keys := List.drop_suffix _ _
    have long : (keys.rtake (limit + 1)).length = limit + 1 := by
      rw [length_rtake]
      omega
    generalize keys.rtake (limit + 1) = back at split long
    subst split
    -- Either nothing changes at the back, or it still has as many keys as are asked for.
    by_cases early : key ∈ front
    · have gone : key ∉ back := fun late => (List.nodup_append.1 distinct).2.2 _ early _ late rfl
      rw [List.erase_append_left _ early, List.erase_of_not_mem gone]
      exact (rtake_append_of_le _ (by omega)).symm
    · rw [List.erase_append_right _ early]
      have enough : limit ≤ (back.erase key).length := by
        have := List.le_length_erase (a := key) (l := back)
        omega
      exact (rtake_append_of_le _ enough).symm

end Rtake

/-! ## The keys requested last -/

section Recent

variable {κ : Type} [DecidableEq κ] {limit : Nat} {requested : List κ} {key : κ}

/-- The keys that were requested last, at most as many as asked for. Each stands where it was
requested last. -/
def recent (limit : Nat) (requested : List κ) : List κ := requested.dedup.rtake limit

/-- A key was requested, and fewer other keys than the limit have been requested since. -/
def RequestedWithin (limit : Nat) (requested : List κ) (key : κ) : Prop :=
  ∃ earlier since, requested = earlier ++ key :: since ∧ key ∉ since ∧ since.toFinset.card < limit

theorem RequestedWithin.mono
    {larger : Nat}
    (within : RequestedWithin limit requested key)
    (bound : limit ≤ larger) :
    RequestedWithin larger requested key := by
  obtain ⟨earlier, since, split, last, few⟩ := within
  exact ⟨earlier, since, split, last, Nat.lt_of_lt_of_le few bound⟩

theorem mem_recent_append_iff
    {earlier since : List κ}
    (last : key ∉ since) :
    key ∈ recent limit (earlier ++ key :: since) ↔ since.toFinset.card < limit := by
  have distinct := List.nodup_dedup (earlier ++ key :: since)
  obtain ⟨front, split⟩ : key :: since.dedup <:+ (earlier ++ key :: since).dedup := by
    rw [List.dedup_append, List.dedup_cons_of_notMem last]
    exact List.suffix_union_right _ _
  rw [← split] at distinct
  rw [recent, ← split, mem_rtake_iff distinct, List.card_toFinset]

theorem mem_recent_iff : key ∈ recent limit requested ↔ RequestedWithin limit requested key := by
  constructor
  · intro kept
    have listed : key ∈ requested.reverse :=
      List.mem_reverse.2 (List.mem_dedup.1 ((List.drop_sublist _ _).subset kept))
    obtain ⟨since, earlier, split, last⟩ := List.eq_append_cons_of_mem listed
    obtain rfl : requested = earlier.reverse ++ key :: since.reverse := by
      rw [← List.reverse_reverse requested, split]
      simp
    have lastToo : key ∉ since.reverse := fun later => last (List.mem_reverse.1 later)
    exact ⟨_, _, rfl, lastToo, (mem_recent_append_iff lastToo).1 kept⟩
  · rintro ⟨earlier, since, rfl, last, few⟩
    exact (mem_recent_append_iff last).2 few

/-- A key that is requested is moved to the end or added there. -/
theorem dedup_concat (requested : List κ) (key : κ) :
    (requested ++ [key]).dedup = requested.dedup.erase key ++ [key] := by
  induction requested with
  | nil => rfl
  | cons first rest inductionHypothesis =>
      by_cases again : first ∈ rest
      · rw [List.cons_append, List.dedup_cons_of_mem (List.mem_append_left _ again),
          List.dedup_cons_of_mem again, inductionHypothesis]
      · rw [List.dedup_cons_of_notMem again]
        by_cases same : first = key
        · subst same
          rw [List.cons_append, List.dedup_cons_of_mem (by simp), inductionHypothesis,
            List.erase_cons_head, List.erase_of_not_mem (by simpa using again)]
        · rw [List.cons_append, List.dedup_cons_of_notMem (by simp [again, same]),
            inductionHypothesis, List.erase_cons_tail (by simpa using same)]
          rfl

/-- The keys requested last after one more key was requested. -/
theorem recent_concat (limit : Nat) (requested : List κ) (key : κ) :
    recent (limit + 1) (requested ++ [key]) =
      ((recent (limit + 1) requested).erase key).rtake limit ++ [key] := by
  unfold recent
  rw [dedup_concat, List.rtake_concat_succ, rtake_erase_rtake (List.nodup_dedup requested)]

end Recent

/-! ## Tables with one shard -/

namespace Memo

variable {κ ν : Type} {memo : Memo κ ν}

theorem shard_eq_entries (oneShard : ∀ key, memo.shardOf key = 0) :
    memo.shard 0 = memo.entries :=
  List.filter_eq_self.2 fun entry _ => beq_iff_eq.2 (oneShard entry.1)

/-- Trimming a table with one shard leaves the keys that were used last. -/
theorem keys_trim (oneShard : ∀ key, memo.shardOf key = 0) :
    (memo.trim 0).keys = memo.keys.rtake memo.shardLimit := by
  have trimmed : (memo.trim 0).entries =
      memo.entries.drop (memo.entries.length - memo.shardLimit) := by
    have stillOne : ∀ key, (memo.trim 0).shardOf key = 0 := oneShard
    have kept : (memo.trim 0).shard 0 = _ := shard_trim_self
    rwa [shard_eq_entries stillOne, shard_eq_entries oneShard] at kept
  rw [keys, trimmed, List.map_drop, List.rtake, keys, List.length_map]

variable [DecidableEq κ] {limit : Nat} {requested : List κ} {key : κ} {slot : Slot ν}

theorem isSome_slot?_iff : (memo.slot? key).isSome ↔ key ∈ memo.keys := by
  rw [Option.isSome_iff_ne_none, ne_eq, slot?, List.lookup_eq_none_iff]
  simp [keys, eq_comm (a := key)]

theorem keys_put_eq_erase (distinct : memo.keys.Nodup) :
    (memo.put key slot).keys = memo.keys.erase key ++ [key] := by
  rw [keys_put, distinct.erase_eq_filter]

theorem touch_of_slot? (held : memo.slot? key = some slot) :
    memo.touch key = memo.put key slot := by
  simp only [touch, held]

/-- Starting a fill in a table with one shard evicts the keys that were used least recently. -/
theorem keys_start
    (oneShard : ∀ key, memo.shardOf key = 0)
    (distinct : memo.keys.Nodup) :
    (memo.start key).2.keys = (memo.keys.erase key ++ [key]).rtake memo.shardLimit := by
  change ((memo.put key (.waiting memo.nextGeneration)).trim (memo.shardOf key)).keys = _
  have stillOne : ∀ other, (memo.put key (.waiting memo.nextGeneration)).shardOf other = 0 :=
    oneShard
  rw [oneShard, keys_trim stillOne, keys_put_eq_erase distinct]
  rfl

/-- A table with one shard and without a time limit that holds values under the keys that were
requested last. -/
structure Settled (limit : Nat) (requested : List κ) (memo : Memo κ ν) : Prop where
  tidy : Tidy memo
  oneShard : ∀ key, memo.shardOf key = 0
  shardLimit : memo.shardLimit = limit + 1
  unlimited : memo.ttl = none
  filled : Every (fun _ slot => ∃ value filledAt, slot = .complete value filledAt) memo
  keys : memo.keys = recent (limit + 1) requested

namespace Settled

theorem isSome_iff (settled : Settled limit requested memo) :
    (memo.slot? key).isSome ↔ RequestedWithin (limit + 1) requested key := by
  rw [isSome_slot?_iff, settled.keys, mem_recent_iff]

/-- A key that is found is moved to the end. -/
theorem touch
    (settled : Settled limit requested memo)
    (found : RequestedWithin (limit + 1) requested key)
    (hits : Nat) :
    Settled limit (requested ++ [key]) { memo.touch key with hits } := by
  have shape : (memo.touch key).clear = memo.clear := clear_touch key
  obtain ⟨slot, held⟩ := Option.isSome_iff_exists.1 (settled.isSome_iff.2 found)
  constructor
  case tidy => exact (settled.tidy.touch key).of_perm (.refl _) rfl rfl rfl
  case oneShard =>
    exact fun other => (congrFun (congrArg shardOf shape) other).trans (settled.oneShard other)
  case shardLimit => exact (congrArg Memo.shardLimit shape).trans settled.shardLimit
  case unlimited => exact (congrArg ttl shape).trans settled.unlimited
  case filled => exact settled.filled.touch key
  case keys =>
    have moved : (memo.touch key).keys = memo.keys.erase key ++ [key] := by
      rw [touch_of_slot? held, keys_put_eq_erase settled.tidy.distinct]
    change (memo.touch key).keys = _
    have listed := mem_recent_iff.2 found
    have short : ((recent (limit + 1) requested).erase key).length ≤ limit := by
      rw [List.length_erase_of_mem listed, recent, length_rtake]
      omega
    rw [moved, recent_concat, settled.keys, rtake_of_length_le short]

/-- A key that is not found is added at the end, when its fill has succeeded at once. -/
theorem fill
    (settled : Settled limit requested memo)
    (now : Nat)
    (key : κ)
    (value : ν) :
    Settled limit (requested ++ [key])
      ((memo.start key).2.publish now key memo.nextGeneration value) := by
  have tidy := settled.tidy.start key
  have slot := settled.tidy.slot?_start (settled.shardLimit ▸ Nat.succ_pos limit) key
  have owned : (memo.start key).2.owns key memo.nextGeneration = true := by
    simp [owns, slot]
  have published : (memo.start key).2.publish now key memo.nextGeneration value =
      (memo.start key).2.put key (.complete value now) := if_pos owned
  rw [published]
  constructor
  case tidy => exact tidy.put_complete slot value now
  case oneShard => exact settled.oneShard
  case shardLimit => exact settled.shardLimit
  case unlimited => exact settled.unlimited
  case filled =>
    rintro entry listed
    rcases List.mem_append.1 listed with kept | last
    · obtain ⟨started, different⟩ := List.mem_filter.1 kept
      exact settled.filled entry (mem_of_mem_start started (bne_iff_ne.1 different))
    · rw [List.mem_singleton.1 last]
      exact ⟨value, now, rfl⟩
  case keys =>
    -- The slot that waits makes room for itself, and the value then stands where it stood.
    have room : (memo.start key).2.keys = (memo.keys.erase key).rtake limit ++ [key] := by
      rw [keys_start settled.oneShard settled.tidy.distinct, settled.shardLimit,
        List.rtake_concat_succ]
    have distinct := tidy.distinct
    rw [keys_put_eq_erase distinct, recent_concat, ← settled.keys, room]
    rw [room] at distinct
    have apart : key ∉ (memo.keys.erase key).rtake limit := fun listed =>
      (List.nodup_append.1 distinct).2.2 key listed key (List.mem_singleton_self key) rfl
    rw [List.erase_append_right _ apart, List.erase_cons_head, List.append_nil]

end Settled

end Memo

/-! ## Gets whose fills succeed at once -/

/-- The filler whose fills succeed at once with given values. -/
def Filler.ready {κ ν ε : Type} (value : Nat → κ → ν) : Filler κ ν ε :=
  .prompt fun generation key => .ok (value generation key)

namespace MemoService

variable {κ ν ε : Type} [DecidableEq κ]

/-- A get of a key that is polled once, at an instant. -/
def serve (service : MemoService κ ν ε) (now : Nat) (key : κ) :
    Progress κ ν ε × MemoService κ ν ε :=
  { service with now }.poll (.ofKey key)

/-- Gets that follow each other, each with its instant. -/
def serveAll (service : MemoService κ ν ε) (gets : List (Nat × κ)) : MemoService κ ν ε :=
  gets.foldl (fun service get => (service.serve get.1 get.2).2) service

/-- A get is counted as a hit and starts no fill. -/
def Hits (service : MemoService κ ν ε) (now : Nat) (key : κ) : Prop :=
  (service.serve now key).2.memo.hits = service.memo.hits + 1 ∧
    (service.serve now key).2.memo.misses = service.memo.misses ∧
      (service.serve now key).2.fills = service.fills

/-- A get is counted as a miss and starts a fill. -/
def Misses (service : MemoService κ ν ε) (now : Nat) (key : κ) : Prop :=
  (service.serve now key).2.memo.hits = service.memo.hits ∧
    (service.serve now key).2.memo.misses = service.memo.misses + 1 ∧
      (service.serve now key).2.fills.length = service.fills.length + 1

/-- A service without a time limit whose fills succeed at once, after some keys were requested. -/
structure Settled
    (limit : Nat)
    (value : Nat → κ → ν)
    (requested : List κ)
    (service : MemoService κ ν ε) : Prop where
  memo : service.memo.Settled limit requested
  filler : service.filler = .ready value
  fills : service.fills.length = service.memo.nextGeneration

variable {limit : Nat} {value : Nat → κ → ν} {requested : List κ} {service : MemoService κ ν ε}
  {key : κ}

theorem Misses.not_hits {now : Nat} (misses : service.Misses now key) : ¬ service.Hits now key :=
  fun hits => Nat.succ_ne_self _ (misses.2.1.symm.trans hits.2.1)

/-- A fill that succeeds at once is waited for in no poll. -/
theorem await_ready
    {generation : Nat}
    (filler : service.filler = .ready value)
    (found : service.fills[generation]? = some ⟨key, .running⟩) :
    service.await key generation =
      (.returned (.ok (value generation key)),
        { service.setFill generation ⟨key, .succeeded (value generation key)⟩ with
          memo := service.memo.publish service.now key generation (value generation key) }) := by
  have refreshed : service.refresh generation ⟨key, .running⟩ =
      ⟨key, .succeeded (value generation key)⟩ := by
    simp only [refresh, result?, filler, Filler.ready]
    rfl
  simp only [await, found, refreshed]
  rfl

theorem serve_of_complete
    {now filledAt : Nat}
    {held : ν}
    (found : service.memo.slot? key = some (.complete held filledAt))
    (unlimited : service.memo.ttl = none) :
    service.serve now key =
      (.returned (.ok held),
        { service with
          now
          memo := { service.memo.touch key with hits := service.memo.hits + 1 } }) := by
  have looked : service.memo.lookup now key =
      (.hit held, { service.memo.touch key with hits := service.memo.hits + 1 }) := by
    simp [Memo.lookup, found, Memo.isExpired, unlimited]
  simp only [serve, poll, maxRounds, rounds, round, Get.ofKey, request, looked]

theorem serve_of_missing
    {now : Nat}
    (filler : service.filler = .ready value)
    (fills : service.fills.length = service.memo.nextGeneration)
    (missing : service.memo.slot? key = none) :
    service.serve now key =
      (.returned (.ok (value service.memo.nextGeneration key)),
        { service with
          now
          fills := service.fills ++ [⟨key, .succeeded (value service.memo.nextGeneration key)⟩]
          memo := (service.memo.start key).2.publish now key service.memo.nextGeneration
            (value service.memo.nextGeneration key) }) := by
  have looked : service.memo.lookup now key =
      (.started service.memo.nextGeneration, (service.memo.start key).2) := by
    simp only [Memo.lookup, missing, Memo.touch]
    rfl
  have found : (service.fills ++ [⟨key, .running⟩])[service.memo.nextGeneration]? =
      some ⟨key, .running⟩ := by
    rw [← fills, List.getElem?_concat_length]
  let joining : MemoService κ ν ε :=
    { service with
      now
      memo := (service.memo.start key).2
      fills := service.fills ++ [⟨key, .running⟩] }
  have waited : joining.await key service.memo.nextGeneration = _ := await_ready filler found
  dsimp only [joining] at waited
  have ended (first fill : Fill κ ν ε) :
      (service.fills ++ [first]).set service.memo.nextGeneration fill =
        service.fills ++ [fill] := by
    rw [← fills, List.set_append_right _ _ (Nat.le_refl _), Nat.sub_self, List.set_cons_zero]
  simp only [serve, poll, maxRounds, rounds, round, Get.ofKey, request, looked, waited, setFill,
    ended]

namespace Settled

/-- A get of a key that was not requested too long ago is a hit. -/
theorem hit
    (settled : service.Settled limit value requested)
    (now : Nat)
    (found : RequestedWithin (limit + 1) requested key) :
    service.Hits now key ∧ (∃ result, (service.serve now key).1 = .returned (.ok result)) ∧
      (service.serve now key).2.Settled limit value (requested ++ [key]) := by
  obtain ⟨slot, held⟩ := Option.isSome_iff_exists.1 (settled.memo.isSome_iff.2 found)
  obtain ⟨result, filledAt, rfl⟩ := Memo.condition_of_slot? settled.memo.filled held
  have shape : (service.memo.touch key).clear = service.memo.clear := Memo.clear_touch key
  have misses : (service.memo.touch key).misses = service.memo.misses :=
    (congrArg Memo.misses shape :)
  unfold Hits
  rw [serve_of_complete held settled.memo.unlimited]
  refine ⟨⟨rfl, misses, rfl⟩, ⟨result, rfl⟩, ?_⟩
  constructor
  case memo => exact settled.memo.touch found _
  case filler => exact settled.filler
  case fills => exact settled.fills.trans (Memo.nextGeneration_touch service.memo key).symm

/-- A get of any other key is a miss. -/
theorem miss
    (settled : service.Settled limit value requested)
    (now : Nat)
    (missing : ¬ RequestedWithin (limit + 1) requested key) :
    service.Misses now key ∧ (∃ result, (service.serve now key).1 = .returned (.ok result)) ∧
      (service.serve now key).2.Settled limit value (requested ++ [key]) := by
  have absent : service.memo.slot? key = none := by
    rwa [← settled.memo.isSome_iff, Option.not_isSome_iff_eq_none] at missing
  unfold Misses
  rw [serve_of_missing settled.filler settled.fills absent]
  generalize value service.memo.nextGeneration key = result
  have shape :
      ((service.memo.start key).2.publish now key service.memo.nextGeneration result).clear =
        (service.memo.start key).2.clear := Memo.clear_publish ..
  have counted (fill : Fill κ ν ε) :
      (service.fills ++ [fill]).length = service.fills.length + 1 := List.length_append
  refine ⟨⟨?_, ?_, counted _⟩, ⟨_, rfl⟩, ?_⟩
  · exact (congrArg Memo.hits shape :)
  · exact (congrArg Memo.misses shape :)
  constructor
  case memo => exact settled.memo.fill now key _
  case filler => exact settled.filler
  case fills =>
    refine ((counted _).trans (congrArg (· + 1) settled.fills)).trans ?_
    exact (congrArg Memo.nextGeneration shape.symm :)

theorem serveAll
    (settled : service.Settled limit value requested)
    (gets : List (Nat × κ)) :
    (service.serveAll gets).Settled limit value (requested ++ gets.map Prod.snd) := by
  induction gets generalizing service requested with
  | nil =>
      rw [List.map_nil, List.append_nil]
      exact settled
  | cons get rest inductionHypothesis =>
      have next : (service.serve get.1 get.2).2.Settled limit value (requested ++ [get.2]) := by
        by_cases found : RequestedWithin (limit + 1) requested get.2
        · exact (settled.hit get.1 found).2.2
        · exact (settled.miss get.1 found).2.2
      rw [List.map_cons, List.append_cons]
      exact inductionHypothesis next

theorem hits_iff
    (settled : service.Settled limit value requested)
    (now : Nat)
    (key : κ) :
    service.Hits now key ↔ RequestedWithin (limit + 1) requested key := by
  refine ⟨fun hits => ?_, fun found => (settled.hit now found).1⟩
  by_contra missing
  exact (settled.miss now missing).1.not_hits hits

theorem misses_iff
    (settled : service.Settled limit value requested)
    (now : Nat)
    (key : κ) :
    service.Misses now key ↔ ¬ RequestedWithin (limit + 1) requested key :=
  ⟨fun misses found => misses.not_hits (settled.hit now found).1,
    fun missing => (settled.miss now missing).1⟩

theorem returns
    (settled : service.Settled limit value requested)
    (now : Nat)
    (key : κ) :
    ∃ result, (service.serve now key).1 = .returned (.ok result) := by
  by_cases found : RequestedWithin (limit + 1) requested key
  · exact (settled.hit now found).2.1
  · exact (settled.miss now found).2.1

end Settled

/-- A new service becomes settled by any gets. -/
theorem exists_settled
    {place : κ → Nat}
    {entryLimit : Nat}
    {memo : Memo κ ν}
    (opened : Memo.withShards place entryLimit none 1 = .ok memo)
    (value : Nat → κ → ν)
    (gets : List (Nat × κ)) :
    ∃ limit, entryLimit = limit + 1 ∧
      ((ofMemo memo (.ready value) : MemoService κ ν ε).serveAll gets).Settled limit value
        (gets.map Prod.snd) := by
  obtain ⟨positive, -, rfl⟩ := Memo.withShards_eq_ok opened
  obtain ⟨limit, rfl⟩ := Nat.exists_eq_succ_of_ne_zero (Nat.ne_of_gt positive)
  suffices opened : (.empty place (limit + 1) 1 none : Memo κ ν).Settled limit [] by
    have settled : (ofMemo (.empty place (limit + 1) 1 none) (.ready value) :
        MemoService κ ν ε).Settled limit value [] := ⟨opened, rfl, rfl⟩
    exact ⟨limit, rfl, settled.serveAll gets⟩
  constructor
  case tidy => exact .empty ..
  case oneShard => exact fun key => Nat.mod_one (place key)
  case shardLimit =>
    change max ((limit + 1) / 1) 1 = limit + 1
    omega
  case unlimited => rfl
  case filled => exact Memo.every_empty place (limit + 1) 1 none
  case keys => exact (List.rtake_nil _).symm

/-- A table with one shard and without a time limit, all of whose fills succeed at once, evicts the
keys that were used least recently: after any gets it holds values under the keys that were
requested last, as many as its limit allows. Another get returns a value. It is a hit if fewer other
keys than the limit were requested since its key was, and a miss otherwise. So whatever is a hit for
some limit is a hit for any larger one. -/
theorem evicts_least_recent
    {place : κ → Nat}
    {entryLimit : Nat}
    {memo : Memo κ ν}
    (opened : Memo.withShards place entryLimit none 1 = .ok memo)
    (value : Nat → κ → ν)
    (gets : List (Nat × κ))
    {service : MemoService κ ν ε}
    (served : (ofMemo memo (.ready value)).serveAll gets = service) :
    service.memo.keys <:+ (gets.map Prod.snd).dedup ∧
      service.memo.keys.length = min entryLimit (gets.map Prod.snd).toFinset.card ∧
      (∀ key ∈ service.memo.keys, ∃ held filledAt,
        service.memo.slot? key = some (.complete held filledAt)) ∧
      ∀ now key,
        (∃ result, (service.serve now key).1 = .returned (.ok result)) ∧
        (service.Hits now key ↔ RequestedWithin entryLimit (gets.map Prod.snd) key) ∧
        (service.Misses now key ↔ ¬ RequestedWithin entryLimit (gets.map Prod.snd) key) ∧
        ∀ {larger : Nat} {largerMemo : Memo κ ν},
          entryLimit ≤ larger →
          Memo.withShards place larger none 1 = .ok largerMemo →
          service.Hits now key →
          ((ofMemo largerMemo (.ready value) : MemoService κ ν ε).serveAll gets).Hits now key := by
  obtain ⟨limit, rfl, settled⟩ := exists_settled (ε := ε) opened value gets
  rw [served] at settled
  refine ⟨?_, ?_, fun key listed => ?_, fun now key => ⟨settled.returns now key,
    settled.hits_iff now key, settled.misses_iff now key, ?_⟩⟩
  · rw [settled.memo.keys]
    exact List.drop_suffix _ _
  · rw [settled.memo.keys, recent, length_rtake, List.card_toFinset]
  · obtain ⟨slot, held⟩ := Option.isSome_iff_exists.1 (Memo.isSome_slot?_iff.2 listed)
    obtain ⟨result, filledAt, rfl⟩ := Memo.condition_of_slot? settled.memo.filled held
    exact ⟨result, filledAt, held⟩
  · intro larger largerMemo bound openedToo hits
    obtain ⟨_, rfl, settledToo⟩ := exists_settled (ε := ε) openedToo value gets
    exact (settledToo.hits_iff now key).2 (((settled.hits_iff now key).1 hits).mono bound)

theorem evicts_least_recent_third :
    let memo : Memo Nat Nat := .empty id 2 1 none
    let service : MemoService Nat Nat Unit :=
      (ofMemo memo (.ready fun _ key => key)).serveAll [(0, 1), (5, 2), (9, 1), (9, 3)]
    Memo.withShards id 2 none 1 = .ok memo ∧ service.memo.keys = [1, 3] ∧ service.Hits 9 1 ∧
      service.Misses 9 2 := by
  intro memo service
  have opened : Memo.withShards id 2 none 1 = .ok memo := rfl
  have served : _ = service := rfl
  obtain ⟨-, -, -, next⟩ := evicts_least_recent opened (fun _ key => key) _ served
  refine ⟨opened, by decide, (next 9 1).2.1.2 ⟨[1, 2], [3], rfl, by decide, by decide⟩, ?_⟩
  exact (next 9 2).2.2.1.2 fun found => absurd (mem_recent_iff.2 found) (by decide)

end MemoService

end BuildQueue
