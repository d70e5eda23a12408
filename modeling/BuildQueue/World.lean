import BuildQueue.Memo.Placement
import BuildQueue.Settings
import BuildQueue.Site

/-!
# The surroundings of a pass

A world is what passes act on one at a time: a site whose store is behind a guard, and a view cache
with the clock by which its views grow old. `World.perform` says what an effect does to it.
-/

namespace BuildQueue

/-- A guard in front of the store. A call of a method with a fault fails and does not reach the
store; a call of a method that suspends waits once before it is made. -/
structure Guard where
  faults : List (Method × String)
  suspending : List Method
deriving DecidableEq, Repr

namespace Guard

/-- The guard that lets everything through. -/
def clear : Guard := ⟨[], []⟩

/-- Sets the fault of a method, or removes it. -/
def setFault (guard : Guard) (method : Method) (message : Option String) : Guard :=
  let others := guard.faults.filter fun fault => fault.1 != method
  { guard with faults := (message.map fun message => (method, message)).toList ++ others }

/-- Sets whether a method suspends. -/
def setSuspending (guard : Guard) (method : Method) (on : Bool) : Guard :=
  let others := guard.suspending.filter (· != method)
  { guard with suspending := if on then method :: others else others }

/-- The fault of a method. -/
def fault? (guard : Guard) (method : Method) : Option String := guard.faults.lookup method

end Guard

/-- The surroundings of passes. -/
structure World extends Site where
  views : Memo RequestId View
  guard : Guard
  /-- The current instant of the clock by which views grow old. -/
  instant : Nat

namespace World

/-- Makes a call that has to pass the guard. -/
def callGuarded (account : Account) (call : Call) (world : World) : call.Reply × World :=
  let (reply, site) := world.toSite.callWith (world.guard.fault? call.method) account call
  (reply, { world with toSite := site })

/-- Loads a view at the cost of the cache. -/
def load (world : World) (id : RequestId) : Except Failure View × World :=
  Script.run (callGuarded .cache) (View.load id).run world

/-- The view of a request as the view cache gives it. A look-up that finds no view loads it; a
failure is handed on and not kept. -/
def view (world : World) (id : RequestId) : Except Failure View × World :=
  match world.views.lookup world.instant id with
  | (.hit view, views) => (.ok view, { world with views })
  | (.joined generation, views) | (.started generation, views) =>
    let (result, world) := { world with views }.load id
    let views :=
      match result with
      | .ok view => world.views.publish world.instant id generation view
      | .error _ => world.views.abandon id generation
    (result, { world with views })

/-- What the world replies to an effect, and the world after it. Of the actions only a call that
passes the guard meets a fault. -/
def perform : (effect : Effect) → World → effect.Reply × World
  | .act (.call account call), world => world.callGuarded account call
  | .act action, world =>
    let (reply, site) := world.toSite.act none action
    (reply, { world with toSite := site })
  | .view id, world => world.view id

/-- Whether an effect waits before it is performed. -/
def suspends : Effect → World → Bool
  | .act (.call _ call), world => world.guard.suspending.contains call.method
  | _, _ => false

/-- Runs a pass to its end. -/
def run {α : Type} (world : World) (pass : Pass α) : Except Failure α × World :=
  Script.run perform (ExceptT.run pass) world

/-- The world of a fresh session: its store is empty, its cache has the given limits. -/
def initial (firstRequest : RequestId) (limits : CacheLimits) (now : Timestamp) : World where
  store := .startingAt firstRequest
  views := Memo.empty Ident.place (max limits.entryLimit 1)
    (Memo.shardsFor (max limits.entryLimit 1)) limits.ttl
  caller := ∅
  cache := ∅
  lines := []
  guard := .clear
  now
  instant := 0

end World
end BuildQueue
