import BuildQueue.Proofs.Memo.History

/-!
# The shape of a memo table

Whatever is done with a memo service, its table stays tidy, keeps its limits, and counts what
happens: the fills so far are as many as the misses and as the generations given out, and hits and
misses together are the look-ups. From the limit of each shard follows that of the whole table.
-/

namespace BuildQueue

/-- A list is no longer than the number of classes times the size of the largest class. -/
theorem length_le_mul_of_classes
    {κ : Type}
    (classOf : κ → Nat)
    {classes limit : Nat}
    {keys : List κ}
    (bounded : ∀ key ∈ keys, classOf key < classes)
    (within : ∀ index, (keys.filter fun key => classOf key == index).length ≤ limit) :
    keys.length ≤ classes * limit := by
  induction classes generalizing keys with
  | zero =>
      have none : keys = [] :=
        List.eq_nil_iff_forall_not_mem.2 fun key listed => Nat.not_lt_zero _ (bounded key listed)
      rw [none]
      exact Nat.zero_le _
  | succ last inductionHypothesis =>
      let lower := keys.filter fun key => decide ¬ (classOf key == last) = true
      have split : keys.length =
          (keys.filter fun key => classOf key == last).length + lower.length := by
        rw [List.length_eq_countP_add_countP fun key => classOf key == last,
          List.countP_eq_length_filter, List.countP_eq_length_filter]
      have lowerBounded : ∀ key ∈ lower, classOf key < last := by
        intro key listed
        obtain ⟨there, other⟩ := List.mem_filter.1 listed
        have different : classOf key ≠ last := by simpa using other
        exact Nat.lt_of_le_of_ne (Nat.lt_succ_iff.1 (bounded key there)) different
      have lowerWithin : ∀ index,
          (lower.filter fun key => classOf key == index).length ≤ limit := by
        intro index
        exact Nat.le_trans (List.filter_sublist.filter _).length_le (within index)
      have below := inductionHypothesis lowerBounded lowerWithin
      have top := within last
      rw [Nat.succ_mul]
      omega

namespace Memo

variable {κ ν : Type} {memo : Memo κ ν}

theorem length_le_of_within
    {limit : Nat}
    (bounded : ∀ key, memo.shardOf key < memo.shardCount)
    (within : ∀ index, (memo.shard index).length ≤ limit) :
    memo.size ≤ memo.shardCount * limit := by
  have sameLength : memo.size = memo.keys.length := (List.length_map ..).symm
  rw [sameLength]
  refine length_le_mul_of_classes memo.shardOf (fun key _ => bounded key) fun index => ?_
  rw [← length_shard]
  exact within index

/-- The limits of as many shards as a table of an entry limit gets add up to no more than it. -/
theorem shardsFor_mul_le
    {entryLimit : Nat}
    (positive : 0 < entryLimit) :
    shardsFor entryLimit * max (entryLimit / shardsFor entryLimit) 1 ≤ entryLimit := by
  have few : shardsFor entryLimit ≤ entryLimit := by
    unfold shardsFor
    omega
  have some : 0 < shardsFor entryLimit := by
    unfold shardsFor
    omega
  rw [Nat.max_eq_left (Nat.div_pos few some)]
  exact Nat.mul_div_le entryLimit (shardsFor entryLimit)

theorem withShards_eq_ok
    {place : κ → Nat}
    {entryLimit shards : Nat}
    {ttl : Option Nat}
    (made : withShards place entryLimit ttl shards = .ok memo) :
    0 < entryLimit ∧ 0 < shards ∧ memo = empty place entryLimit shards ttl := by
  unfold withShards at made
  split at made
  · cases made
  · next some =>
    split at made
    · cases made
    · next shardsSome =>
      cases made
      exact ⟨Nat.pos_of_ne_zero some, Nat.pos_of_ne_zero shardsSome, rfl⟩

/-! What operations do to a table apart from its slots, which `clear` takes away. -/

section Clear

variable [DecidableEq κ] (key : κ) (generation now : Nat) (value : ν)

@[simp] theorem clear_touch : (memo.touch key).clear = memo.clear := by
  unfold touch
  split <;> rfl

@[simp] theorem clear_publish : (memo.publish now key generation value).clear = memo.clear := by
  unfold publish
  split <;> rfl

@[simp] theorem clear_abandon : (memo.abandon key generation).clear = memo.clear := by
  unfold abandon
  split <;> rfl

/-- Starting a fill counts a miss and gives out a generation. -/
theorem clear_start :
    (memo.start key).2.clear =
      { memo.clear with
        nextGeneration := memo.clear.nextGeneration + 1
        misses := memo.clear.misses + 1 } := rfl

end Clear

end Memo

namespace MemoService

variable {κ ν ε : Type} [DecidableEq κ] {service : MemoService κ ν ε} {get : Get κ}

/-- A fill that ends counts nothing. -/
@[simp] theorem clear_await (key : κ) (generation : Nat) :
    (service.await key generation).2.memo.clear = service.memo.clear := by
  have waited := awaited service key generation
  generalize service.await key generation = outcome at waited
  cases waited with
  | missing absent => rfl
  | running found state => rfl
  | succeeded found state => exact Memo.clear_publish ..
  | failed found state => exact Memo.clear_abandon ..
  | taken found state => exact Memo.clear_abandon ..

/-- Only the first part of a round counts. -/
theorem clear_round :
    (service.round get).2.memo.clear = (service.joining get).memo.clear :=
  round_induction
    (motive := fun after => after.memo.clear = (service.joining get).memo.clear) rfl
    fun _ _ => clear_await ..

theorem tidy_await
    (tidy : service.memo.Tidy)
    (key : κ)
    (generation : Nat) :
    (service.await key generation).2.memo.Tidy := by
  have waited := awaited service key generation
  generalize service.await key generation = outcome at waited
  cases waited with
  | missing absent => exact tidy
  | running found state => exact tidy
  | succeeded found state => exact tidy.publish ..
  | failed found state => exact tidy.abandon ..
  | taken found state => exact tidy.abandon ..

theorem tidy_joining
    (tidy : service.memo.Tidy)
    (get : Get κ) :
    (service.joining get).memo.Tidy := by
  have touched := tidy.touch get.key
  have joined := joined service get
  generalize service.joins? get = fill?, service.joining get = joining at joined
  cases joined with
  | before awaits => exact tidy
  | hit looksUp held fresh => exact touched.of_perm (.refl _) rfl rfl rfl
  | waiting looksUp held => exact touched.of_perm (.refl _) rfl rfl rfl
  | started looksUp missed => exact touched.start get.key

theorem tidy_round
    (tidy : service.memo.Tidy)
    (get : Get κ) :
    (service.round get).2.memo.Tidy :=
  round_induction (motive := fun after => after.memo.Tidy) (tidy_joining tidy get)
    fun generation _ => tidy_await (tidy_joining tidy get) get.key generation

end MemoService

namespace Usage

variable {κ ν ε : Type}

/-- The visits that look their keys up. -/
def lookUps (visits : List (Visit κ ν ε)) : List (Visit κ ν ε) :=
  visits.filter fun visit => visit.get.awaits.isNone

/-- A table without slots that has counted some fills and some hits. -/
def counting (initial : Memo κ ν) (fills hits : Nat) : Memo κ ν :=
  { initial.clear with nextGeneration := fills, misses := fills, hits }

/-- A table is that which a service began with but for its slots and its counts, and it counts the
fills and the look-ups. -/
structure Counts (initial : Memo κ ν) (past : List (Visit κ ν ε)) (service : MemoService κ ν ε) :
    Prop where
  table : service.memo.clear = counting initial service.fillKeys.length service.memo.hits
  total : service.memo.hits + service.fillKeys.length = (lookUps past).length

variable
  {initial : Memo κ ν}
  {past : List (Visit κ ν ε)}
  {service after : MemoService κ ν ε}

theorem Counts.of_clear
    (counts : Counts initial past service)
    (same : after.memo.clear = service.memo.clear)
    (sameFills : after.fillKeys = service.fillKeys) :
    Counts initial past after := by
  have hits := congrArg Memo.hits same
  change after.memo.hits = service.memo.hits at hits
  constructor
  · rw [same, sameFills, hits]
    exact counts.table
  · rw [sameFills, hits]
    exact counts.total

theorem length_lookUps_concat (past : List (Visit κ ν ε)) (visit : Visit κ ν ε) :
    (lookUps (past ++ [visit])).length =
      (lookUps past).length + if visit.get.awaits.isNone then 1 else 0 := by
  unfold lookUps
  rw [List.filter_append, List.length_append, List.filter_cons, List.filter_nil]
  split <;> rfl

variable [DecidableEq κ] {get : Get κ}

/-- A hit is counted. -/
theorem Counts.hit
    (counts : Counts initial past service)
    (number : Nat)
    (looksUp : get.awaits = none) :
    Counts initial (past ++ [⟨number, get, service⟩])
      { service with
        memo := { service.memo.touch get.key with hits := service.memo.hits + 1 } } where
  table := by
    change { (service.memo.touch get.key).clear with hits := service.memo.hits + 1 } = _
    rw [Memo.clear_touch, counts.table]
    rfl
  total := by
    change service.memo.hits + 1 + service.fillKeys.length = _
    rw [length_lookUps_concat, looksUp, ← counts.total]
    exact Nat.add_right_comm ..

/-- A miss is counted, and gives out a generation. -/
theorem Counts.started
    (counts : Counts initial past service)
    (number : Nat)
    (looksUp : get.awaits = none) :
    Counts initial (past ++ [⟨number, get, service⟩])
      { service with
        memo := ((service.memo.touch get.key).start get.key).2
        fills := service.fills ++ [Fill.mk get.key .running] } := by
  have table : ((service.memo.touch get.key).start get.key).2.clear =
      counting initial (service.fillKeys.length + 1) service.memo.hits := by
    rw [Memo.clear_start, Memo.clear_touch, counts.table]
    rfl
  have hits := congrArg Memo.hits table
  have fills : (service.fills ++ [Fill.mk get.key .running]).map Fill.key =
      service.fillKeys ++ [get.key] := List.map_append
  constructor
  · change _ = counting initial (List.map _ _).length
      ((service.memo.touch get.key).start get.key).2.clear.hits
    rw [fills, hits, List.length_append]
    exact table
  · change ((service.memo.touch get.key).start get.key).2.clear.hits + (List.map _ _).length = _
    rw [fills, hits, List.length_append, length_lookUps_concat, looksUp, ← counts.total]
    rfl

/-- A round counts its look-up, if it makes one, as a hit or as a miss. -/
theorem Counts.round
    (counts : Counts initial past service)
    (number : Nat)
    (get : Get κ) :
    Counts initial (past ++ [⟨number, get, service⟩]) (service.round get).2 := by
  suffices joined : Counts initial (past ++ [⟨number, get, service⟩]) (service.joining get) from
    joined.of_clear MemoService.clear_round (MemoService.fillKeys_round ..)
  have joined := MemoService.joined service get
  generalize service.joins? get = fill?, service.joining get = joining at joined
  cases joined with
  | before awaits =>
      refine ⟨counts.table, ?_⟩
      rw [length_lookUps_concat, awaits]
      exact counts.total
  | hit looksUp held fresh => exact counts.hit number looksUp
  | waiting looksUp held => exact counts.hit number looksUp
  | started looksUp missed => exact counts.started number looksUp

omit [DecidableEq κ] in
theorem counts_ofMemo
    (place : κ → Nat)
    (entryLimit shards : Nat)
    (ttl : Option Nat)
    (filler : Filler κ ν ε) :
    Counts (.empty place entryLimit shards ttl) []
      (ofMemo (.empty place entryLimit shards ttl) filler).service :=
  ⟨rfl, rfl⟩

variable {allowed : Nat → Except ε ν → Prop} {start last : Usage κ ν ε}

/-- A table stays tidy and keeps count, whatever happens. -/
theorem History.shape
    (history : History allowed start past last)
    (tidy : start.service.memo.Tidy)
    (counts : Counts initial [] start.service) :
    last.service.memo.Tidy ∧ Counts initial past last.service := by
  induction history with
  | start => exact ⟨tidy, counts⟩
  | round history live inductionHypothesis =>
      obtain ⟨tidyBefore, countsBefore⟩ := inductionHypothesis
      exact ⟨MemoService.tidy_round tidyBefore _, countsBefore.round _ _⟩
  | @use past usage history use quiet settles inductionHypothesis =>
      obtain ⟨tidyBefore, countsBefore⟩ := inductionHypothesis
      cases use with
      | begin key => exact ⟨tidyBefore, countsBefore⟩
      | poll number => exact absurd rfl (quiet number)
      | drop number => exact ⟨tidyBefore, countsBefore⟩
      | settle generation result =>
          have same : (usage.service.settle generation result).memo = usage.service.memo := by
            unfold MemoService.settle
            split <;> rfl
          change (usage.service.settle generation result).memo.Tidy ∧
            Counts initial past (usage.service.settle generation result)
          rw [same]
          exact ⟨tidyBefore, countsBefore.of_clear (congrArg Memo.clear same)
            (MemoService.fillKeys_settle ..)⟩
      | invalidate key => exact ⟨tidyBefore.invalidate key, countsBefore.of_clear rfl rfl⟩
      | clear => exact ⟨tidyBefore.clear, countsBefore.of_clear rfl rfl⟩
      | present key =>
          exact ⟨tidyBefore.touch key, countsBefore.of_clear (Memo.clear_touch key) rfl⟩
      | tick instant => exact ⟨tidyBefore, countsBefore.of_clear rfl rfl⟩

/-- A run is a history. -/
theorem history_run (start : Usage κ ν ε) (uses : List (Use κ ν ε)) :
    History (fun _ _ => True) start (start.trail uses) (start.run uses) := by
  have settles : ∀ use ∈ uses, use.Settles fun _ _ => True := fun use _ => by
    cases use <;> trivial
  have run := (History.start : History (fun _ _ => True) start [] start).run settles
  rwa [List.nil_append] at run

/-- A table of positive limits is the empty one, which has the shape that a run keeps. -/
theorem shape_run
    {place : κ → Nat}
    {entryLimit shards : Nat}
    {ttl : Option Nat}
    {memo : Memo κ ν}
    (made : Memo.withShards place entryLimit ttl shards = .ok memo)
    (filler : Filler κ ν ε)
    (uses : List (Use κ ν ε)) :
    ((ofMemo memo filler).run uses).service.memo.Tidy ∧
      Counts (.empty place entryLimit shards ttl) ((ofMemo memo filler).trail uses)
        ((ofMemo memo filler).run uses).service := by
  obtain ⟨-, -, rfl⟩ := Memo.withShards_eq_ok made
  exact (history_run _ uses).shape (.empty place entryLimit shards ttl) (counts_ofMemo ..)

omit [DecidableEq κ] in
theorem Counts.memo_eq
    {place : κ → Nat}
    {entryLimit shards : Nat}
    {ttl : Option Nat}
    (counts : Counts (.empty place entryLimit shards ttl) past service) :
    service.memo.shardOf = (fun key => place key % shards) ∧
      service.memo.shardCount = shards ∧
      service.memo.shardLimit = max (entryLimit / shards) 1 ∧
      service.memo.nextGeneration = service.fills.length ∧
      service.memo.misses = service.fills.length := by
  have table := counts.table
  rw [MemoService.fillKeys_length] at table
  exact ⟨congrArg Memo.shardOf table, congrArg Memo.shardCount table,
    congrArg Memo.shardLimit table, congrArg Memo.nextGeneration table,
    congrArg Memo.misses table⟩

/-- A table that was made for an entry limit alone never has more slots than that. -/
theorem size_run_le
    {place : κ → Nat}
    {entryLimit : Nat}
    {ttl : Option Nat}
    {memo : Memo κ ν}
    (made : Memo.withLimit place entryLimit ttl = .ok memo)
    (filler : Filler κ ν ε)
    (uses : List (Use κ ν ε)) :
    ((ofMemo memo filler).run uses).service.memo.size ≤ entryLimit := by
  obtain ⟨positive, somewhere, -⟩ := Memo.withShards_eq_ok made
  obtain ⟨tidy, counts⟩ := shape_run made filler uses
  obtain ⟨shardOf, shardCount, shardLimit, -⟩ := counts.memo_eq
  have size := Memo.length_le_of_within (fun key => ?_) tidy.within
  · rw [shardCount, shardLimit] at size
    exact Nat.le_trans size (Memo.shardsFor_mul_le positive)
  · rw [shardOf, shardCount]
    exact Nat.mod_lt _ somewhere

/-- A table keeps its shape, however it is used and wherever its keys are placed. Each key has at
most one slot, in its own shard; no shard holds more than its limit, so that a table for an entry
limit alone has no more slots than that; the slot of a fill that a look-up starts is there after
the look-up; waiting slots wait for different fills, which have started. Generations, misses and
fills are equally many, and hits and misses together are the look-ups. -/
theorem shape_kept
    (place : κ → Nat)
    (entryLimit : Nat)
    (ttl : Option Nat)
    (shards : Nat)
    (filler : Filler κ ν ε)
    (uses : List (Use κ ν ε))
    {memo : Memo κ ν}
    (made : Memo.withShards place entryLimit ttl shards = .ok memo) :
    let trail := (ofMemo memo filler).trail uses
    let last := (ofMemo memo filler).run uses
    let table := last.service.memo
    (table.keys.Nodup ∧ ∀ entry ∈ table.entries, ∀ index,
      entry ∈ table.shard index ↔ index = place entry.1 % shards) ∧
    (∀ index, (table.shard index).length ≤ max (entryLimit / shards) 1) ∧
    (0 < entryLimit → ∃ limited, Memo.withLimit place entryLimit ttl = .ok limited ∧
      ((ofMemo limited filler).run uses).service.memo.size ≤ entryLimit) ∧
    (∀ visit ∈ trail, ∀ generation after, visit.LooksUp →
      visit.service.memo.lookup visit.service.now visit.get.key = (.started generation, after) →
      after.slot? visit.get.key = some (.waiting generation)) ∧
    (table.generations.Nodup ∧
      ∀ generation ∈ table.generations, generation < table.nextGeneration) ∧
    (table.nextGeneration = last.service.fills.length ∧
      table.misses = last.service.fills.length) ∧
    table.hits + table.misses = (lookUps trail).length := by
  intro trail last table
  obtain ⟨tidy, counts⟩ : table.Tidy ∧ Counts _ trail last.service := shape_run made filler uses
  obtain ⟨shardOf, -, shardLimit, generations, misses⟩ := counts.memo_eq
  refine ⟨⟨tidy.distinct, ?own⟩, ?within, ?limited, ?inserted,
    ⟨tidy.generations, tidy.started⟩, ⟨generations, misses⟩, ?total⟩
  case own =>
    intro entry listed index
    rw [Memo.mem_shard_iff, shardOf]
    exact ⟨fun own => own.2.symm, fun own => ⟨listed, own.symm⟩⟩
  case within =>
    rw [← shardLimit]
    exact tidy.within
  case limited =>
    intro positive
    have some : Memo.shardsFor entryLimit ≠ 0 := by
      unfold Memo.shardsFor
      omega
    have limited : Memo.withLimit place entryLimit ttl =
        .ok (.empty place entryLimit (Memo.shardsFor entryLimit) ttl : Memo κ ν) := by
      unfold Memo.withLimit Memo.withShards
      rw [if_neg (Nat.ne_of_gt positive), if_neg some]
    exact ⟨_, limited, size_run_le limited filler uses⟩
  case inserted =>
    intro visit listed generation after looksUp started
    obtain ⟨positive, somewhere, rfl⟩ := Memo.withShards_eq_ok made
    obtain ⟨earlier, usage, history, same, -⟩ := (history_run _ uses).visited listed
    obtain ⟨tidyThen, countsThen⟩ :=
      history.shape (.empty place entryLimit shards ttl) (counts_ofMemo ..)
    obtain ⟨-, -, limitThen, -⟩ := countsThen.memo_eq
    rw [same] at started
    refine tidyThen.slot?_lookup ?_ started
    rw [limitThen]
    exact Nat.lt_of_lt_of_le Nat.one_pos (Nat.le_max_right _ _)
  case total =>
    have total := counts.total
    rw [MemoService.fillKeys_length, ← misses] at total
    exact total

/-- Three keys come to a table for two. -/
theorem shape_kept_evicting :
    let uses : List (Use Nat Nat Nat) :=
      [.begin 1, .poll 0, .begin 2, .poll 1, .begin 3, .poll 2]
    let last := (ofMemo (.empty id 2 1 none) (.prompt fun _ key => .ok key)).run uses
    Memo.withShards id 2 none 1 = .ok (.empty id 2 1 none : Memo Nat Nat) ∧
      last.service.memo.keys = [2, 3] ∧
      (∀ index, (last.service.memo.shard index).length ≤ 2) ∧
      last.service.memo.misses = last.service.fills.length := by
  intro uses last
  have made : Memo.withShards id 2 none 1 = .ok (.empty id 2 1 none : Memo Nat Nat) := rfl
  obtain ⟨-, within, -, -, -, counted, -⟩ :=
    shape_kept id 2 none 1 (.prompt fun _ key => .ok key) uses made
  exact ⟨made, by decide, within, counted.2⟩

end Usage
end BuildQueue
