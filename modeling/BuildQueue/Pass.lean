import BuildQueue.Pass.Strategy
import BuildQueue.Policy

/-!
# Collapse passes

A pass retires the pending requests that newly submitted ones make redundant. It first looks for
candidates, which may be out of date as soon as they are found, since workers and other passes act
meanwhile. Then it claims each candidate, and only what it claims it completes as skipped. If the
completion fails the claim is released, so that the request goes back to the queue.

Any failure ends the pass. Requests that were retired before stay so.
-/

namespace BuildQueue
namespace Pass

/-- The items of a list for which a decision is positive, decided one after the other. -/
def select {α : Type} (decision : α → Pass Bool) : List α → Pass (List α)
  | [] => return []
  | item :: rest => do
    if ← decision item then return item :: (← select decision rest)
    else select decision rest

/-- The strategy of a choice. -/
def strategyOf : Choice Strategy → Strategy
  | .standard => .standard
  | .registered strategy => strategy

/-- The pending requests of the same builder that a new request makes redundant. -/
def findRedundant (policy : Policy Strategy) (newId : RequestId) : Pass (List RequestId) := do
  let some new ← call (.getRequest newId) | throw (.assembly (.missingRequest newId))
  let some builder ← call (.getBuilder new.builderId)
    | do
      log .debug ("build request " ++ toString new.id ++ ": builder " ++ toString new.builderId ++
        " is gone, not collapsing")
      return []
  let some choice := policy.forBuilder builder.name | return []
  let pending ← call (.listUnclaimed builder.id)
  let others := pending.filter fun old => old.id != new.id
  let redundant ← select (strategyOf choice builder new) others
  return redundant.map (·.id)

/-- Releases the claim of a request whose completion failed. -/
def releaseClaim (id : RequestId) (failure : Failure) : Pass Unit := do
  match ← attempt (.unclaim [id]) with
  | .ok () =>
    log .warning ("failed to skip build request " ++ toString id ++ ", released its claim: " ++
      failure.message)
  | .error releaseFailure =>
    log .error ("failed to skip build request " ++ toString id ++ " and to release its claim: " ++
      releaseFailure.message)

/-- Claims a candidate and completes it as skipped. Gives false if somebody else was faster. -/
def claimAndSkip (id : RequestId) : Pass Bool := do
  let now ← act .time
  count .claimsAttempted
  unless ← call (.claim [id] (some now)) do
    count .claimsLost
    log .debug ("build request " ++ toString id ++
      " was claimed by someone else, not collapsing")
    return false
  match ← attempt (.complete [id] .skipped (some now)) with
  | .error failure =>
    releaseClaim id failure
    throw failure
  | .ok () =>
    count .requestsCollapsed
    log .info ("collapsed build request " ++ toString id)
    return true

/-- The identifiers of a list once each, in ascending order. -/
def ascending (ids : List RequestId) : List RequestId :=
  (SortedMap.ofList (ids.map fun id => (id, ()))).keys

/-- Retires every pending request that one of the new requests makes redundant, and gives those
that were claimed and completed as skipped, in ascending order. -/
def collapse (policy : Policy Strategy) (newIds : List RequestId) : Pass (List RequestId) := do
  let redundant ← newIds.mapM (findRedundant policy)
  select claimAndSkip (ascending redundant.flatten)

end Pass
end BuildQueue
