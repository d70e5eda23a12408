import BuildQueue.Proofs.Memo.Slots

/-!
# Tables of slots

In a tidy table the slots stand under different keys, no shard holds more slots than its limit, and
the slots that wait do so for different fills, all of which have started. Every operation keeps a
table tidy. Most of them only drop slots or move one to the end; a look-up that finds nothing puts a
new slot at the end and evicts from the front of its shard, so it never evicts the new slot.
-/

namespace BuildQueue

/-- The generation of the fill that a slot waits for. -/
def Slot.generation? {ν : Type} : Slot ν → Option Nat
  | waiting generation => some generation
  | complete _ _ => none

namespace Memo

variable {κ ν : Type}

/-- The keys that have slots, from the least to the most recently used. -/
def keys (memo : Memo κ ν) : List κ := memo.entries.map Prod.fst

/-- The generations that slots wait for. -/
def generations (memo : Memo κ ν) : List Nat :=
  memo.entries.filterMap fun entry => entry.2.generation?

/-- What holds of the slots of a table however it is used. -/
structure Tidy (memo : Memo κ ν) : Prop where
  distinct : memo.keys.Nodup
  within : ∀ index, (memo.shard index).length ≤ memo.shardLimit
  generations : memo.generations.Nodup
  started : ∀ generation ∈ memo.generations, generation < memo.nextGeneration

/-! ## Shards -/

section Shards

variable {memo : Memo κ ν} {index other : Nat}

theorem mem_shard_iff {entry : κ × Slot ν} :
    entry ∈ memo.shard index ↔ entry ∈ memo.entries ∧ memo.shardOf entry.1 = index := by
  unfold shard
  rw [List.mem_filter, beq_iff_eq]

/-- The size of a shard depends on the keys only. -/
theorem length_shard :
    (memo.shard index).length =
      (memo.keys.filter fun key => memo.shardOf key == index).length := by
  unfold shard keys
  rw [List.filter_map, List.length_map]
  rfl

variable {p q : κ × Slot ν → Bool} {count : Nat} {entries : List (κ × Slot ν)}

theorem dropFirst_sublist (p : κ × Slot ν → Bool) (count : Nat) (entries : List (κ × Slot ν)) :
    (dropFirst p count entries).Sublist entries := by
  induction entries generalizing count with
  | nil => cases count <;> exact .refl _
  | cons first rest inductionHypothesis =>
      cases count with
      | zero => exact .refl _
      | succ count =>
          rw [dropFirst]
          split
          · exact (inductionHypothesis count).cons first
          · exact (inductionHypothesis (count + 1)).cons_cons first

/-- Of the entries that satisfy the condition the first ones are dropped. -/
theorem filter_dropFirst :
    (dropFirst p count entries).filter p = (entries.filter p).drop count := by
  induction entries generalizing count with
  | nil => cases count <;> rfl
  | cons first rest inductionHypothesis =>
      cases count with
      | zero => rfl
      | succ count =>
          rw [dropFirst]
          split
          · next satisfied =>
            rw [inductionHypothesis, List.filter_cons_of_pos satisfied, List.drop_succ_cons]
          · next refuted =>
            rw [List.filter_cons_of_neg refuted, List.filter_cons_of_neg refuted,
              inductionHypothesis]

/-- The entries that do not satisfy the condition stay. -/
theorem filter_dropFirst_of_disjoint
    (disjoint : ∀ entry, q entry = true → p entry = false) :
    (dropFirst p count entries).filter q = entries.filter q := by
  induction entries generalizing count with
  | nil => cases count <;> rfl
  | cons first rest inductionHypothesis =>
      cases count with
      | zero => rfl
      | succ count =>
          rw [dropFirst]
          split
          · next satisfied =>
            have excluded : ¬ q first = true := fun wanted => by
              rw [disjoint first wanted] at satisfied
              cases satisfied
            rw [inductionHypothesis, List.filter_cons_of_neg excluded]
          · rw [List.filter_cons, List.filter_cons, inductionHypothesis]

/-- Trimming a shard drops the slots that were used least recently, as many as are too many. -/
theorem shard_trim_self :
    (memo.trim index).shard index =
      (memo.shard index).drop ((memo.shard index).length - memo.shardLimit) :=
  filter_dropFirst

/-- Trimming a shard leaves the other shards as they are. -/
theorem shard_trim_of_ne (different : other ≠ index) :
    (memo.trim index).shard other = memo.shard other := by
  refine filter_dropFirst_of_disjoint fun entry wanted => beq_false_of_ne ?_
  have own : memo.shardOf entry.1 = other := eq_of_beq wanted
  rw [own]
  exact different

theorem length_shard_trim_self_le : ((memo.trim index).shard index).length ≤ memo.shardLimit := by
  rw [shard_trim_self, List.length_drop]
  omega

end Shards

/-! ## Slots by key -/

section Keys

variable [DecidableEq κ] {memo : Memo κ ν} {key other : κ} {slot held : Slot ν}

theorem lookup_without_self (key : κ) (entries : List (κ × Slot ν)) :
    (without key entries).lookup key = none := by
  rw [List.lookup_eq_none_iff]
  intro entry kept
  rw [bne_comm]
  exact (List.mem_filter.1 kept).2

theorem lookup_without_of_ne
    (different : other ≠ key)
    (entries : List (κ × Slot ν)) :
    (without key entries).lookup other = entries.lookup other := by
  induction entries with
  | nil => rfl
  | cons first rest inductionHypothesis =>
      obtain ⟨owner, slot⟩ := first
      unfold without at inductionHypothesis ⊢
      by_cases dropped : owner = key
      · subst dropped
        rw [List.filter_cons_of_neg (by simp), inductionHypothesis, List.lookup_cons,
          beq_false_of_ne different]
      · rw [List.filter_cons_of_pos (by simpa using dropped), List.lookup_cons, List.lookup_cons,
          inductionHypothesis]

@[simp] theorem slot?_put_self : (memo.put key slot).slot? key = some slot := by
  change (without key memo.entries ++ [(key, slot)]).lookup key = some slot
  rw [List.lookup_append, lookup_without_self]
  simp

theorem slot?_put_of_ne (different : other ≠ key) :
    (memo.put key slot).slot? other = memo.slot? other := by
  change (without key memo.entries ++ [(key, slot)]).lookup other = memo.entries.lookup other
  rw [List.lookup_append, lookup_without_of_ne different, List.lookup_cons,
    beq_false_of_ne different]
  exact Option.or_none

@[simp] theorem slot?_invalidate_self : (memo.invalidate key).slot? key = none :=
  lookup_without_self key memo.entries

theorem slot?_invalidate_of_ne (different : other ≠ key) :
    (memo.invalidate key).slot? other = memo.slot? other :=
  lookup_without_of_ne different memo.entries

@[simp] theorem slot?_touch (key other : κ) : (memo.touch key).slot? other = memo.slot? other := by
  unfold touch
  split
  · rfl
  · next slot held =>
    by_cases same : other = key
    · rw [same, slot?_put_self, held]
    · exact slot?_put_of_ne same

@[simp] theorem shardLimit_touch (memo : Memo κ ν) (key : κ) :
    (memo.touch key).shardLimit = memo.shardLimit := by
  unfold touch
  split <;> rfl

/-- Under different keys, the slot of a key is the only one that stands under it. -/
theorem slot?_eq_some_iff (distinct : memo.keys.Nodup) :
    memo.slot? key = some slot ↔ (key, slot) ∈ memo.entries := by
  refine ⟨mem_of_slot?_eq_some, fun listed => ?_⟩
  obtain ⟨before, after, split⟩ := List.append_of_mem listed
  refine List.lookup_eq_some_iff.2 ⟨before, after, split, fun entry earlier => ?_⟩
  rw [keys, split, List.map_append, List.nodup_append] at distinct
  have different : entry.1 ≠ key :=
    distinct.2.2 _ (List.mem_map_of_mem earlier) _ List.mem_cons_self
  exact bne_iff_ne.2 different.symm

/-- Giving a key the slot that it has only moves this slot to the end. -/
theorem perm_put
    (distinct : memo.keys.Nodup)
    (found : memo.slot? key = some slot) :
    (memo.put key slot).entries.Perm memo.entries := by
  obtain ⟨before, after, split, absent⟩ := List.lookup_eq_some_iff.1 found
  have beforeKept : without key before = before :=
    List.filter_eq_self.2 fun entry listed => by
      rw [bne_comm]
      exact absent entry listed
  have afterKept : without key after = after := by
    refine List.filter_eq_self.2 fun entry listed => bne_iff_ne.2 fun same => ?_
    rw [keys, split, List.map_append, List.map_cons, List.nodup_append, List.nodup_cons] at distinct
    exact distinct.2.1.1 (List.mem_map.2 ⟨entry, listed, same⟩)
  have rest : without key memo.entries = before ++ after := by
    rw [split]
    unfold without at beforeKept afterKept ⊢
    rw [List.filter_append, List.filter_cons_of_neg (by simp), beforeKept, afterKept]
  change (without key memo.entries ++ [(key, slot)]).Perm memo.entries
  rw [rest, split, List.append_assoc]
  exact (List.perm_append_singleton (key, slot) after).append_left before

/-- Touching a key moves at most one slot to the end. -/
theorem perm_touch
    (distinct : memo.keys.Nodup)
    (key : κ) :
    (memo.touch key).entries.Perm memo.entries := by
  unfold touch
  split
  · exact .refl _
  · next slot found => exact perm_put distinct found

/-- Starting a fill gives no other key a slot. -/
theorem mem_of_mem_start
    {entry : κ × Slot ν}
    (listed : entry ∈ (memo.start key).2.entries)
    (different : entry.1 ≠ key) :
    entry ∈ memo.entries := by
  rcases List.mem_append.1 ((dropFirst_sublist _ _ _).subset listed) with kept | new
  · exact (List.mem_filter.1 kept).1
  · rw [List.mem_singleton.1 new] at different
    exact absurd rfl different

/-- A slot that is put comes last in the shard of its key. -/
theorem shard_put_self :
    (memo.put key slot).shard (memo.shardOf key) =
      (memo.invalidate key).shard (memo.shardOf key) ++ [(key, slot)] := by
  change (without key memo.entries ++ [(key, slot)]).filter
    (fun entry => memo.shardOf entry.1 == memo.shardOf key) = _
  rw [List.filter_append, List.filter_cons_of_pos (by simp)]
  rfl

/-- A slot that is put stands in no other shard. -/
theorem shard_put_of_ne
    {index : Nat}
    (different : index ≠ memo.shardOf key) :
    (memo.put key slot).shard index = (memo.invalidate key).shard index := by
  change (without key memo.entries ++ [(key, slot)]).filter
    (fun entry => memo.shardOf entry.1 == index) = _
  rw [List.filter_append, List.filter_cons_of_neg (by simpa using different.symm), List.filter_nil,
    List.append_nil]
  rfl

theorem keys_put :
    (memo.put key slot).keys = (memo.keys.filter fun other => other != key) ++ [key] := by
  change (without key memo.entries ++ [(key, slot)]).map Prod.fst = _
  rw [List.map_append, keys, List.filter_map]
  rfl

/-- Any slot that a key with a slot is given leaves the keys the same. -/
theorem perm_keys_put
    (distinct : memo.keys.Nodup)
    (found : memo.slot? key = some held) :
    (memo.put key slot).keys.Perm memo.keys := by
  have same : (memo.put key slot).keys = (memo.put key held).keys := keys_put.trans keys_put.symm
  rw [same]
  exact (perm_put distinct found).map Prod.fst

theorem nodup_keys_put (distinct : memo.keys.Nodup) : (memo.put key slot).keys.Nodup := by
  rw [keys_put, List.nodup_append]
  refine ⟨distinct.filter _, List.pairwise_singleton _ key, ?_⟩
  intro other kept last listed
  rw [List.mem_singleton.1 listed]
  exact bne_iff_ne.1 (List.mem_filter.1 kept).2

end Keys

/-! ## Look-ups -/

section Looked

variable [DecidableEq κ]

/-- Whether a look-up of a key finds no slot or one whose value is too old. -/
def needsFill (now : Nat) (memo : Memo κ ν) (key : κ) : Bool :=
  match memo.slot? key with
  | none => true
  | some (.complete _ filledAt) => memo.isExpired now filledAt
  | some (.waiting _) => false

/-- What a look-up of a key comes to, by the slot of the key. -/
inductive Looked (now : Nat) (memo : Memo κ ν) (key : κ) : Lookup ν × Memo κ ν → Prop where
  | hit
      {value : ν}
      {filledAt : Nat}
      (held : memo.slot? key = some (.complete value filledAt))
      (fresh : memo.isExpired now filledAt = false) :
      Looked now memo key (.hit value, { memo.touch key with hits := memo.hits + 1 })
  | joined
      {generation : Nat}
      (held : memo.slot? key = some (.waiting generation)) :
      Looked now memo key (.joined generation, { memo.touch key with hits := memo.hits + 1 })
  | started
      (missed : memo.needsFill now key = true) :
      Looked now memo key (.started memo.nextGeneration, ((memo.touch key).start key).2)

theorem looked (now : Nat) (memo : Memo κ ν) (key : κ) :
    Looked now memo key (memo.lookup now key) := by
  have started : memo.needsFill now key = true →
      Looked now memo key ((memo.touch key).start key) := by
    intro missed
    have same : ((memo.touch key).start key).1 = .started memo.nextGeneration :=
      congrArg Lookup.started (nextGeneration_touch memo key)
    rw [← Prod.eta ((memo.touch key).start key), same]
    exact .started missed
  unfold lookup
  cases held : memo.slot? key with
  | none => exact started (by simp only [needsFill, held])
  | some slot =>
      cases slot with
      | waiting generation => exact .joined held
      | complete value filledAt =>
          dsimp only
          split
          · next expired => exact started (by simpa only [needsFill, held] using expired)
          · next fresh => exact .hit held (eq_false_of_ne_true fresh)

end Looked

/-! ## Tidiness -/

namespace Tidy

variable {memo after : Memo κ ν}

theorem empty
    (place : κ → Nat)
    (entryLimit shards : Nat)
    (ttl : Option Nat) :
    Tidy (Memo.empty place entryLimit shards ttl : Memo κ ν) where
  distinct := List.nodup_nil
  within _ := Nat.zero_le _
  generations := List.nodup_nil
  started _ listed := absurd listed List.not_mem_nil

/-- A table from which slots have been dropped is tidy. -/
theorem of_sublist
    (tidy : Tidy memo)
    (fewer : after.entries.Sublist memo.entries)
    (shardOf : after.shardOf = memo.shardOf)
    (shardLimit : after.shardLimit = memo.shardLimit)
    (nextGeneration : after.nextGeneration = memo.nextGeneration) :
    Tidy after where
  distinct := (fewer.map Prod.fst).nodup tidy.distinct
  within index := by
    rw [shardLimit]
    unfold Memo.shard
    rw [shardOf]
    exact Nat.le_trans (fewer.filter _).length_le (tidy.within index)
  generations := (fewer.filterMap _).nodup tidy.generations
  started generation listed := by
    rw [nextGeneration]
    exact tidy.started generation ((fewer.filterMap _).subset listed)

/-- A table whose slots have changed their order is tidy. -/
theorem of_perm
    (tidy : Tidy memo)
    (moved : after.entries.Perm memo.entries)
    (shardOf : after.shardOf = memo.shardOf)
    (shardLimit : after.shardLimit = memo.shardLimit)
    (nextGeneration : after.nextGeneration = memo.nextGeneration) :
    Tidy after where
  distinct := (moved.map Prod.fst).nodup_iff.2 tidy.distinct
  within index := by
    rw [shardLimit]
    unfold Memo.shard
    rw [shardOf, (moved.filter _).length_eq]
    exact tidy.within index
  generations := (moved.filterMap _).nodup_iff.2 tidy.generations
  started generation listed := by
    rw [nextGeneration]
    exact tidy.started generation ((moved.filterMap _).mem_iff.1 listed)

theorem clear (tidy : Tidy memo) : Tidy memo.clear :=
  tidy.of_sublist (List.nil_sublist _) rfl rfl rfl

variable [DecidableEq κ]

theorem touch (tidy : Tidy memo) (key : κ) : Tidy (memo.touch key) := by
  have moved := perm_touch tidy.distinct key
  unfold Memo.touch at moved ⊢
  split
  · exact tidy
  · next slot found =>
    simp only [found] at moved
    exact tidy.of_perm moved rfl rfl rfl

theorem invalidate (tidy : Tidy memo) (key : κ) : Tidy (memo.invalidate key) :=
  tidy.of_sublist List.filter_sublist rfl rfl rfl

/-- A waiting slot of a new generation comes to stand among waiting slots of older ones. -/
theorem generations_put
    (tidy : Tidy memo)
    (key : κ) :
    (memo.put key (.waiting memo.nextGeneration)).generations.Nodup ∧
      ∀ generation ∈ (memo.put key (.waiting memo.nextGeneration)).generations,
        generation < memo.nextGeneration + 1 := by
  have older := tidy.invalidate key
  have split : (memo.put key (.waiting memo.nextGeneration)).generations =
      (memo.invalidate key).generations ++ [memo.nextGeneration] := List.filterMap_append
  rw [split]
  constructor
  · refine List.nodup_append.2 ⟨older.generations, List.pairwise_singleton _ _, ?_⟩
    intro generation listed next isNext
    rw [List.mem_singleton.1 isNext]
    exact Nat.ne_of_lt (older.started generation listed)
  · intro generation listed
    rcases List.mem_append.1 listed with before | isNext
    · exact Nat.lt_succ_of_lt (older.started generation before)
    · rw [List.mem_singleton.1 isNext]
      exact Nat.lt_succ_self _

/-- Starting a fill fills the shard of its key up to its limit at most and leaves the other shards
no larger. -/
theorem length_shard_start_le
    (tidy : Tidy memo)
    (key : κ)
    (index : Nat) :
    ((memo.start key).2.shard index).length ≤ memo.shardLimit := by
  change (((memo.put key (.waiting memo.nextGeneration)).trim (memo.shardOf key)).shard
    index).length ≤ memo.shardLimit
  by_cases own : index = memo.shardOf key
  · rw [own]
    exact length_shard_trim_self_le
  · rw [shard_trim_of_ne own, shard_put_of_ne own]
    exact (tidy.invalidate key).within index

theorem start (tidy : Tidy memo) (key : κ) : Tidy (memo.start key).2 where
  distinct :=
    ((dropFirst_sublist _ _ _).map Prod.fst).nodup (nodup_keys_put tidy.distinct)
  within := tidy.length_shard_start_le key
  generations := ((dropFirst_sublist _ _ _).filterMap _).nodup (tidy.generations_put key).1
  started generation listed :=
    (tidy.generations_put key).2 generation
      (((dropFirst_sublist _ _ _).filterMap _).subset listed)

/-- Evicting from the front of a shard never reaches the slot of the fill that was just started. -/
theorem slot?_start
    (tidy : Tidy memo)
    (positive : 0 < memo.shardLimit)
    (key : κ) :
    (memo.start key).2.slot? key = some (.waiting memo.nextGeneration) := by
  rw [slot?_eq_some_iff (tidy.start key).distinct]
  have last : (key, .waiting memo.nextGeneration) ∈
      ((memo.put key (.waiting memo.nextGeneration)).trim (memo.shardOf key)).shard
        (memo.shardOf key) := by
    rw [shard_trim_self, shard_put_self, List.length_append, List.length_singleton,
      List.drop_append]
    have inFront : ((memo.invalidate key).shard (memo.shardOf key)).length + 1 -
        memo.shardLimit - ((memo.invalidate key).shard (memo.shardOf key)).length = 0 := by
      omega
    refine List.mem_append_right _ ?_
    change _ ∈ List.drop (_ - memo.shardLimit - _) _
    rw [inFront]
    exact List.mem_singleton_self _
  exact (mem_shard_iff.1 last).1

/-- Starting a fill leaves each other key the slot that it had, or none. -/
theorem slot?_start_of_ne
    (tidy : Tidy memo)
    {key other : κ}
    {slot : Slot ν}
    (different : other ≠ key)
    (held : (memo.start key).2.slot? other = some slot) :
    memo.slot? other = some slot := by
  rw [slot?_eq_some_iff (tidy.start key).distinct] at held
  rw [slot?_eq_some_iff tidy.distinct]
  exact mem_of_mem_start held different

/-- A look-up that starts a fill leaves the slot of this fill in the table. -/
theorem slot?_lookup
    (tidy : Tidy memo)
    (positive : 0 < memo.shardLimit)
    {now generation : Nat}
    {key : κ}
    {after : Memo κ ν}
    (started : memo.lookup now key = (.started generation, after)) :
    after.slot? key = some (.waiting generation) := by
  obtain ⟨same, -, rfl⟩ := lookup_started started
  rw [same, ← nextGeneration_touch memo key]
  exact (tidy.touch key).slot?_start ((shardLimit_touch memo key).symm ▸ positive) key

/-- A slot that is given a value stays where it counts, and waits no more. -/
theorem put_complete
    (tidy : Tidy memo)
    {key : κ}
    {held : Slot ν}
    (found : memo.slot? key = some held)
    (value : ν)
    (now : Nat) :
    Tidy (memo.put key (.complete value now)) := by
  have moved : (memo.put key (.complete value now)).keys.Perm memo.keys :=
    perm_keys_put tidy.distinct found
  have fewer : (memo.put key (.complete value now)).generations =
      (memo.invalidate key).generations :=
    List.filterMap_append.trans (List.append_nil _)
  refine ⟨moved.nodup_iff.2 tidy.distinct, fun index => ?_, ?_, ?_⟩
  · have same : ((memo.put key (.complete value now)).shard index).length =
        (memo.shard index).length := by
      rw [length_shard, (moved.filter _).length_eq, length_shard]
      rfl
    rw [same]
    exact tidy.within index
  · rw [fewer]
    exact (tidy.invalidate key).generations
  · rw [fewer]
    exact (tidy.invalidate key).started

theorem publish
    (tidy : Tidy memo)
    (now : Nat)
    (key : κ)
    (generation : Nat)
    (value : ν) :
    Tidy (memo.publish now key generation value) := by
  unfold Memo.publish
  split
  · next owned => exact tidy.put_complete (slot?_of_owns owned) value now
  · exact tidy

theorem abandon
    (tidy : Tidy memo)
    (key : κ)
    (generation : Nat) :
    Tidy (memo.abandon key generation) := by
  unfold Memo.abandon
  split
  · exact tidy.invalidate key
  · exact tidy

end Tidy

end Memo
end BuildQueue
