import BuildQueue.Memo.Placement
import BuildQueue.Memo.Service
import BuildQueue.Pass
import BuildQueue.Proofs.Memo.Sound
import BuildQueue.Proofs.Store.Exchange
import BuildQueue.Proofs.Store.History
import BuildQueue.Site
import Mathlib.Logic.Function.Basic

/-!
# Passes under any schedule

A system is any number of passes over one store, together with other clients of it. A turn of the
system is one call of the store or less: a pass takes one step, somebody else calls the store or
submits something, a view cache is used from outside, or time goes on. A schedule is a list of
turns, so whatever is shown of all lists of turns holds however the clients are interleaved.

A view that a cache does not hold is loaded by a fill, one call of the store at a time. Whoever
waits for the fill makes its next call, since the gets of one key share their fill.
-/

namespace BuildQueue

/-- A view cache with its fills under way. -/
structure ViewCache where
  service : MemoService RequestId View Failure
  /-- What is left of the load of each fill, in the order of their generations. -/
  loads : List (Script Call.Reply (Except Failure View))

namespace ViewCache

/-- The view cache of some limits that was never used. -/
def empty (limits : CacheLimits) : ViewCache where
  service := .ofMemo
    (.empty Ident.place (max limits.entryLimit 1) (Memo.shardsFor (max limits.entryLimit 1))
      limits.ttl)
    (.manual [])
  loads := []

/-- The cache with a load for each fill that has none. -/
def startLoads (cache : ViewCache) : ViewCache :=
  { cache with
    loads := cache.loads ++
      (cache.service.fillKeys.drop cache.loads.length).map fun id => (View.load id).run }

/-- Polls a get once. -/
def poll (cache : ViewCache) (get : Get RequestId) :
    Progress RequestId View Failure × ViewCache :=
  let (progress, service) := cache.service.poll get
  (progress, { cache with service }.startLoads)

/-- Replaces what is left of a load; one that has ended settles its fill. -/
def resume
    (cache : ViewCache)
    (generation : Nat)
    (rest : Script Call.Reply (Except Failure View)) : ViewCache where
  service :=
    match rest with
    | .done result => cache.service.settle generation result
    | .ask _ _ => cache.service
  loads := cache.loads.set generation rest

/-- Makes the next call of a load, if it has not ended. -/
def drive (fault : Option String) (generation : Nat) (cache : ViewCache) (site : Site) :
    Option (Exchange × ViewCache × Site) :=
  match cache.loads[generation]? with
  | some (.ask call next) =>
      let (reply, site) := site.callWith fault .cache call
      some (⟨call, reply⟩, cache.resume generation (next reply), site)
  | _ => none

end ViewCache

/-- A pass under way. -/
structure Running (κ : Type) where
  /-- Where it gets its views. -/
  cache : κ
  /-- What is left of it. -/
  rest : Script Effect.Reply (Except Failure (List RequestId))
  /-- The get that it has polled and that has not returned. -/
  get : Option (Get RequestId)

/-- What a pass has returned. -/
def Running.result? {κ : Type} (pass : Running κ) : Option (Except Failure (List RequestId)) :=
  match pass.rest with
  | .done result => some result
  | .ask _ _ => none

/-- What a pass is started with. -/
structure Job (κ : Type) where
  cache : κ
  policy : Policy Strategy
  newIds : List RequestId

/-- A pass that has not taken a step. -/
def Job.running {κ : Type} (job : Job κ) : Running κ where
  cache := job.cache
  rest := (Pass.collapse job.policy job.newIds).run
  get := none

/-- Passes, numbered by `ι`, with caches, numbered by `κ`, over one store. -/
structure System (ι κ : Type) where
  site : Site
  caches : κ → ViewCache
  passes : ι → Running κ
  /-- The calls of the store so far. -/
  history : List (Event ι)

/-- One turn of a system. -/
inductive Turn (ι κ : Type) where
  /-- A pass takes a step; if it is a guarded call it may meet a fault. -/
  | pass (who : ι) (fault : Option String)
  /-- Somebody else calls the store. -/
  | call (call : Call)
  /-- Somebody adds to the store. -/
  | submit (addition : Addition)
  /-- Somebody else polls a get of a view. -/
  | look (cache : κ) (id : RequestId)
  /-- Somebody else waits for a fill and makes its next call. -/
  | drive (cache : κ) (generation : Nat) (fault : Option String)
  /-- The clock of a cache changes. -/
  | tick (cache : κ) (instant : Nat)
  /-- The time changes. -/
  | clock (now : Timestamp)

namespace Turn

variable {ι κ : Type}

/-- Whether a call of the turn may meet a fault. -/
def IsFaulty : Turn ι κ → Prop
  | .pass _ fault | .drive _ _ fault => fault ≠ none
  | _ => False

/-- Whether the turn adds to the store. -/
def IsSubmission : Turn ι κ → Prop
  | .submit _ => True
  | _ => False

/-- Whether somebody who is no pass and no view cache calls the store. -/
def IsForeign : Turn ι κ → Prop
  | .call _ => True
  | _ => False

end Turn

/-- The calls that are made by an action. -/
def Action.exchanges : (action : Action) → action.Reply → List Exchange
  | .call _ asked, reply | .direct asked, reply => [⟨asked, reply⟩]
  | .time, _ | .count _, _ | .log _ _, _ => []

namespace System

variable {ι κ : Type} [DecidableEq ι] [DecidableEq κ]

/-- A system whose passes have not taken a step. -/
def start (site : Site) (caches : κ → ViewCache) (jobs : ι → Job κ) : System ι κ where
  site
  caches
  passes who := (jobs who).running
  history := []

/-- A pass gets a reply. -/
def reply
    (system : System ι κ)
    (who : ι)
    (rest : Script Effect.Reply (Except Failure (List RequestId))) : System ι κ :=
  { system with
    passes := Function.update system.passes who
      { cache := (system.passes who).cache, rest, get := none } }

/-- A load makes its next call, if it has not ended. -/
def drive
    (system : System ι κ)
    (client : Option ι)
    (cache : κ)
    (generation : Nat)
    (fault : Option String) : Option (System ι κ) :=
  ((system.caches cache).drive fault generation system.site).map fun (exchange, after, site) =>
    { system with
      site
      caches := Function.update system.caches cache after
      history := system.history ++ [⟨exchange, client⟩] }

/-- A pass polls a get. -/
def poll
    (system : System ι κ)
    (who : ι)
    (get : Get RequestId)
    (next : Except Failure View → Script Effect.Reply (Except Failure (List RequestId))) :
    System ι κ :=
  let pass := system.passes who
  let (progress, cache) := (system.caches pass.cache).poll get
  let system := { system with caches := Function.update system.caches pass.cache cache }
  match progress with
  | .returned result => system.reply who (next result)
  | .pending get =>
      { system with passes := Function.update system.passes who { pass with get := some get } }

/-- A pass takes a step: it acts, or goes on to get a view. -/
def advance (system : System ι κ) (who : ι) (fault : Option String) : System ι κ :=
  let pass := system.passes who
  match pass.rest with
  | .done _ => system
  | .ask (.act action) next =>
      let (reply, site) := system.site.act fault action
      { system.reply who (next reply) with
        site
        history := system.history ++
          (action.exchanges reply).map fun exchange => ⟨exchange, some who⟩ }
  | .ask (.view id) next =>
      let get := pass.get.getD (.ofKey id)
      let driven := get.awaits.bind fun generation =>
        system.drive (some who) pass.cache generation fault
      driven.getD (system.poll who get next)

/-- The system after a turn. -/
def step (system : System ι κ) : Turn ι κ → System ι κ
  | .pass who fault => system.advance who fault
  | .call call =>
      let (result, store) := system.site.store.perform system.site.now call
      { system with
        site := { system.site with store }
        history := system.history ++ [⟨⟨call, result.mapError .store⟩, none⟩] }
  | .submit addition =>
      { system with site := { system.site with store := system.site.store.add addition } }
  | .look cache id =>
      { system with
        caches := Function.update system.caches cache ((system.caches cache).poll (.ofKey id)).2 }
  | .drive cache generation fault => (system.drive none cache generation fault).getD system
  | .tick cache instant =>
      let before := system.caches cache
      { system with
        caches := Function.update system.caches cache
          { before with service := { before.service with now := instant } } }
  | .clock now => { system with site := { system.site with now } }

/-- The system after a schedule. -/
def run (system : System ι κ) (turns : List (Turn ι κ)) : System ι κ := turns.foldl step system

end System
end BuildQueue
