import BuildQueue.Memo

/-!
# Gets and fills

A memo service is a memo table together with the fills that its look-ups started. A get looks its
key up and then waits for a fill, which it shares with all other gets that joined it. When the
fill succeeds, each of them returns its value. When it fails, the first of them that is polled
takes the error and returns it; the others find it taken and start over.

Nothing runs by itself: a get goes on only when it is polled, and one poll takes it to its result
or to a fill that has not ended.
-/

namespace BuildQueue

/-- Where the results of fills come from. Fills are numbered in the order of their starts. -/
inductive Filler (κ ν ε : Type) where
  /-- Each fill has its result at once. -/
  | prompt (result : Nat → κ → Except ε ν)
  /-- A fill has a result as soon as it is settled. -/
  | manual (settled : List (Nat × Except ε ν))

/-- How far a fill has come. -/
inductive FillState (ν ε : Type) where
  | running
  | succeeded (value : ν)
  /-- The fill failed; its error is there until a get takes it. -/
  | failed (error : Option ε)
deriving DecidableEq, Repr

/-- A fill of a key. -/
structure Fill (κ ν ε : Type) where
  key : κ
  state : FillState ν ε
deriving DecidableEq, Repr

/-- A get of a key that has not returned, and the fill that it waits for, if any. -/
structure Get (κ : Type) where
  key : κ
  awaits : Option Nat
deriving DecidableEq, Repr

/-- What a poll of a get comes to. -/
inductive Progress (κ ν ε : Type) where
  | returned (result : Except ε ν)
  | pending (get : Get κ)

/-- A memo table with its fills, in the order of their generations. -/
structure MemoService (κ ν ε : Type) where
  memo : Memo κ ν
  filler : Filler κ ν ε
  fills : List (Fill κ ν ε)
  /-- The current instant. -/
  now : Nat

namespace MemoService

variable {κ ν ε : Type}

/-- The service of a table that was never used. -/
def ofMemo (memo : Memo κ ν) (filler : Filler κ ν ε) : MemoService κ ν ε := ⟨memo, filler, [], 0⟩

/-- The result of a fill as far as there is one. -/
def result? (service : MemoService κ ν ε) (generation : Nat) (key : κ) : Option (Except ε ν) :=
  match service.filler with
  | .prompt result => some (result generation key)
  | .manual settled => settled.lookup generation

/-- Sets the result of a fill, which may not have started yet. A fill whose end has been seen
keeps the result that was seen. -/
def settle (service : MemoService κ ν ε) (generation : Nat) (result : Except ε ν) :
    MemoService κ ν ε :=
  match service.filler with
  | .prompt _ => service
  | .manual settled => { service with filler := .manual ((generation, result) :: settled) }

/-- The state of a fill after a result. -/
def FillState.ofResult : Except ε ν → FillState ν ε
  | .ok value => .succeeded value
  | .error error => .failed (some error)

/-- The fill with its result taken in, if there is one by now. -/
def refresh (service : MemoService κ ν ε) (generation : Nat) (fill : Fill κ ν ε) : Fill κ ν ε :=
  match fill.state, service.result? generation fill.key with
  | .running, some result => { fill with state := FillState.ofResult result }
  | _, _ => fill

/-- The service with the state of one fill replaced. -/
def setFill (service : MemoService κ ν ε) (generation : Nat) (fill : Fill κ ν ε) :
    MemoService κ ν ε :=
  { service with fills := service.fills.set generation fill }

/-- What one round of a get comes to: like a poll, except that it may have to start over. -/
inductive Round (ν ε : Type) where
  | returned (result : Except ε ν)
  | waits (generation : Nat)
  | again

variable [DecidableEq κ]

/-- Waits for a fill: the end of a successful one publishes its value, the end of a failed one
gives up its slot. -/
def await (service : MemoService κ ν ε) (key : κ) (generation : Nat) :
    Round ν ε × MemoService κ ν ε :=
  match service.fills[generation]? with
  | none => (.waits generation, service)
  | some fill =>
    let fill := service.refresh generation fill
    let service := service.setFill generation fill
    match fill.state with
    | .running => (.waits generation, service)
    | .succeeded value =>
      (.returned (.ok value),
        { service with memo := service.memo.publish service.now key generation value })
    | .failed (some error) =>
      (.returned (.error error),
        { service.setFill generation { fill with state := .failed none } with
          memo := service.memo.abandon key generation })
    | .failed none => (.again, { service with memo := service.memo.abandon key generation })

/-- Looks a key up and waits for the fill if there is no value. -/
def request (service : MemoService κ ν ε) (key : κ) : Round ν ε × MemoService κ ν ε :=
  match service.memo.lookup service.now key with
  | (.hit value, memo) => (.returned (.ok value), { service with memo })
  | (.joined generation, memo) => { service with memo }.await key generation
  | (.started generation, memo) =>
    { service with memo, fills := service.fills ++ [Fill.mk key .running] }.await key generation

/-- One round of a get. -/
def round (service : MemoService κ ν ε) (get : Get κ) : Round ν ε × MemoService κ ν ε :=
  match get.awaits with
  | some generation => service.await get.key generation
  | none => service.request get.key

/-- At most so many rounds of a get. -/
def rounds (service : MemoService κ ν ε) (get : Get κ) :
    Nat → Progress κ ν ε × MemoService κ ν ε
  | 0 => (.pending get, service)
  | count + 1 =>
    match service.round get with
    | (.returned result, service) => (.returned result, service)
    | (.waits generation, service) => (.pending ⟨get.key, some generation⟩, service)
    | (.again, service) => service.rounds ⟨get.key, none⟩ count

/-- As many rounds as a poll can take, and more: a get starts over if the error of its fill was
taken, and it gives up the slot of that fill, so that its next look-up comes to another one. -/
def maxRounds : Nat := 3

/-- Polls a get once. -/
def poll (service : MemoService κ ν ε) (get : Get κ) : Progress κ ν ε × MemoService κ ν ε :=
  service.rounds get maxRounds

end MemoService

/-- A get that has not been polled. -/
def Get.ofKey {κ : Type} (key : κ) : Get κ := ⟨key, none⟩

end BuildQueue
