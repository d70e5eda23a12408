import BuildQueue.Pass.Effect
import BuildQueue.View.Merge

/-!
# Strategies

A strategy decides whether a pending request of a builder may be retired in favour of one that
was just submitted to it. The standard strategy compares the views of both requests, unless the
requests themselves decide already. The others are simple ones to register under a name.
-/

namespace BuildQueue

/-- Decides on a builder, its new request, and an old one that is pending. -/
abbrev Strategy := Builder → Request → Request → Pass Bool

namespace Strategy

/-- What is logged about two compared requests. -/
def verdictMessage (builder : Builder) (new old : Request) (collapsible : Bool) : String :=
  builder.name ++ " request " ++ toString old.id ++ " into " ++ toString new.id ++ ": " ++
    if collapsible then "collapsible" else "distinct"

/-- The standard strategy. -/
def standard : Strategy := fun builder new old => do
  if new.buildsetId = old.buildsetId then return true
  if new.id < old.id then return false
  let newView ← Pass.view new.id
  let oldView ← Pass.view old.id
  let collapsible := newView.canCollapse oldView
  Pass.log .debug (verdictMessage builder new old collapsible)
  return collapsible

/-- Retires every request. -/
def always : Strategy := fun _ _ _ => return true

/-- Retires no request. -/
def never : Strategy := fun _ _ _ => return false

/-- Retires requests of no higher priority. -/
def byPriority : Strategy := fun _ new old => return old.priority ≤ new.priority

/-- Retires requests of the same reason. -/
def byReason : Strategy := fun _ new old => do
  let newView ← Pass.view new.id
  let oldView ← Pass.view old.id
  return newView.reason == oldView.reason

/-- Fails with a message. -/
def failing (message : String) : Strategy := fun _ _ _ => throw (.other message)

/-- Lets somebody else claim the old request at a time, and retires it all the same. -/
def overtaken (time : Timestamp) : Strategy := fun _ _ old => do
  let _ ← Pass.direct (.claim [old.id] (some time))
  return true

end Strategy
end BuildQueue
