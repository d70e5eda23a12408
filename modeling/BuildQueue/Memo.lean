/-!
# Memo tables

A memo table remembers the values that a slow computation gave for its keys. A key that is looked
up and not found, or whose value is too old, gets a slot that waits for a fill; look-ups of the
key join this fill until it ends. The value of a fill is kept only if the slot is still the one
that this fill created: after an invalidation, an eviction or a refill it is not.

Each key belongs to one shard. When a shard holds more slots than its limit the one that was used
least recently is evicted. The entries of all shards are kept in one list, from the least to the
most recently used.
-/

namespace BuildQueue

/-- What a memo table holds for a key. -/
inductive Slot (ν : Type) where
  /-- The fill of this generation has not ended. -/
  | waiting (generation : Nat)
  /-- The value that a fill gave, and when it was put here. -/
  | complete (value : ν) (filledAt : Nat)
deriving DecidableEq, Repr

/-- A memo table from keys of type `κ` to values of type `ν`. -/
structure Memo (κ ν : Type) where
  /-- The shard that a key belongs to. -/
  shardOf : κ → Nat
  /-- The number of shards. -/
  shardCount : Nat
  /-- The number of slots that a shard may hold. -/
  shardLimit : Nat
  /-- For how long a value may be served, unlimited if absent. -/
  ttl : Option Nat
  /-- The slots by key, from the least to the most recently used. -/
  entries : List (κ × Slot ν)
  /-- The generation of the next fill: the number of fills so far. -/
  nextGeneration : Nat
  hits : Nat
  misses : Nat

namespace Memo

/-- Why there is no memo table of some limits. -/
inductive Unusable where
  | noEntries
  | noShards
deriving DecidableEq, Repr

/-- The wording of unusable limits. -/
def Unusable.message : Unusable → String
  | noEntries => "assertion failed: entrylimit > 0"
  | noShards => "assertion failed: shards > 0"

/-- What a look-up finds. -/
inductive Lookup (ν : Type) where
  /-- A value that is not too old. -/
  | hit (value : ν)
  /-- A fill that another look-up started. -/
  | joined (generation : Nat)
  /-- Nothing; a fill has been started. -/
  | started (generation : Nat)
deriving DecidableEq, Repr

variable {κ ν : Type}

/-- The greatest number of shards that a table gets when only its limit is given. -/
def maxShards : Nat := 64

/-- An entry limit that is never reached. -/
def unboundedLimit : Nat := UInt64.size - 1

/-- The empty table of the given limits, its entries split evenly over the shards. -/
def empty (place : κ → Nat) (entryLimit shards : Nat) (ttl : Option Nat) : Memo κ ν where
  shardOf key := place key % shards
  shardCount := shards
  shardLimit := max (entryLimit / shards) 1
  ttl
  entries := []
  nextGeneration := 0
  hits := 0
  misses := 0

/-- The empty table of the given limits, which have to be positive. -/
def withShards (place : κ → Nat) (entryLimit : Nat) (ttl : Option Nat) (shards : Nat) :
    Except Unusable (Memo κ ν) :=
  if entryLimit = 0 then .error .noEntries
  else if shards = 0 then .error .noShards
  else .ok (empty place entryLimit shards ttl)

/-- The number of shards for an entry limit: one for each entry, at most `maxShards`. -/
def shardsFor (entryLimit : Nat) : Nat := max (min maxShards entryLimit) 1

/-- The empty table of an entry limit, which has to be positive. -/
def withLimit (place : κ → Nat) (entryLimit : Nat) (ttl : Option Nat) :
    Except Unusable (Memo κ ν) :=
  withShards place entryLimit ttl (shardsFor entryLimit)

/-- The empty table that keeps everything. -/
def unbounded (place : κ → Nat) (shards : Nat) : Except Unusable (Memo κ ν) :=
  withShards place unboundedLimit none shards

/-- Whether a value is too old at an instant. -/
def isExpired (memo : Memo κ ν) (now filledAt : Nat) : Bool :=
  match memo.ttl with
  | none => false
  | some ttl => ttl ≤ now - filledAt

/-- The number of slots. -/
def size (memo : Memo κ ν) : Nat := memo.entries.length

/-- Whether there are no slots. -/
def isEmpty (memo : Memo κ ν) : Bool := memo.entries.isEmpty

/-- The entries of a shard, from the least to the most recently used. -/
def shard (memo : Memo κ ν) (index : Nat) : List (κ × Slot ν) :=
  memo.entries.filter fun entry => memo.shardOf entry.1 == index

/-- The entries without the first ones that satisfy a condition, as many as asked for. -/
def dropFirst (p : κ × Slot ν → Bool) : Nat → List (κ × Slot ν) → List (κ × Slot ν)
  | 0, entries => entries
  | _ + 1, [] => []
  | count + 1, entry :: rest =>
    if p entry then dropFirst p count rest else entry :: dropFirst p (count + 1) rest

/-- Evicts the least recently used slots of a shard that holds too many. -/
def trim (memo : Memo κ ν) (index : Nat) : Memo κ ν :=
  { memo with
    entries := dropFirst (fun entry => memo.shardOf entry.1 == index)
      ((memo.shard index).length - memo.shardLimit) memo.entries }

variable [DecidableEq κ]

/-- The slot of a key. -/
def slot? (memo : Memo κ ν) (key : κ) : Option (Slot ν) := memo.entries.lookup key

/-- The entries without that of a key. -/
def without (key : κ) (entries : List (κ × Slot ν)) : List (κ × Slot ν) :=
  entries.filter fun entry => entry.1 != key

/-- Gives a key a slot, which becomes the most recently used. -/
def put (memo : Memo κ ν) (key : κ) (slot : Slot ν) : Memo κ ν :=
  { memo with entries := without key memo.entries ++ [(key, slot)] }

/-- Makes the slot of a key, if there is one, the most recently used. -/
def touch (memo : Memo κ ν) (key : κ) : Memo κ ν :=
  match memo.slot? key with
  | none => memo
  | some slot => memo.put key slot

/-- Drops the slot of a key. A fill that waits for it goes on, but its value will not be kept. -/
def invalidate (memo : Memo κ ν) (key : κ) : Memo κ ν :=
  { memo with entries := without key memo.entries }

/-- Drops all slots. -/
def clear (memo : Memo κ ν) : Memo κ ν := { memo with entries := [] }

/-- Starts a fill of a key. -/
def start (memo : Memo κ ν) (key : κ) : Lookup ν × Memo κ ν :=
  let generation := memo.nextGeneration
  let filling := memo.put key (.waiting generation)
  (.started generation,
    { filling.trim (memo.shardOf key) with
      nextGeneration := generation + 1
      misses := memo.misses + 1 })

/-- Looks a key up. A value that is not too old and a waiting fill are hits, anything else is a
miss and starts a fill. -/
def lookup (now : Nat) (memo : Memo κ ν) (key : κ) : Lookup ν × Memo κ ν :=
  let touched := memo.touch key
  match memo.slot? key with
  | some (.complete value filledAt) =>
    if memo.isExpired now filledAt then touched.start key
    else (.hit value, { touched with hits := memo.hits + 1 })
  | some (.waiting generation) => (.joined generation, { touched with hits := memo.hits + 1 })
  | none => touched.start key

/-- Whether the slot of a key waits for the fill of a generation. -/
def owns (memo : Memo κ ν) (key : κ) (generation : Nat) : Bool :=
  match memo.slot? key with
  | some (.waiting current) => current == generation
  | _ => false

/-- Keeps the value of a fill if the slot is still its own. -/
def publish (now : Nat) (memo : Memo κ ν) (key : κ) (generation : Nat) (value : ν) : Memo κ ν :=
  if memo.owns key generation then memo.put key (.complete value now) else memo

/-- Drops the slot of a fill that failed if it is still its own. -/
def abandon (memo : Memo κ ν) (key : κ) (generation : Nat) : Memo κ ν :=
  if memo.owns key generation then memo.invalidate key else memo

/-- Whether a key has a value that is not too old. Asking counts as a use of the slot. -/
def isPresent (now : Nat) (memo : Memo κ ν) (key : κ) : Bool × Memo κ ν :=
  let fresh :=
    match memo.slot? key with
    | some (.complete _ filledAt) => !memo.isExpired now filledAt
    | _ => false
  (fresh, memo.touch key)

end Memo
end BuildQueue
