import BuildQueue.Pass
import BuildQueue.World

/-!
# Sessions

A session runs collapse passes over one world: to their end, or as tasks that stop wherever the
guard of the store suspends a call and go on when they are polled.
-/

namespace BuildQueue

/-- A pass that has not ended. -/
structure Task where
  rest : Script Effect.Reply (Except Failure (List RequestId))
  /-- Whether the pass has waited at its first effect already. -/
  waited : Bool

/-- A world with the policy of its passes and the tasks under way, by name. -/
structure Session where
  world : World
  policy : Policy Strategy
  tasks : SortedMap String Task

namespace Session

/-- A session without tasks over a fresh world. -/
def start (firstRequest : RequestId) (policy : Policy Strategy) (now : Timestamp) : Session where
  world := .initial firstRequest policy.settings.cache now
  policy
  tasks := ∅

/-- Runs a computation to its end. -/
def run {α : Type} (session : Session) (pass : Pass α) : Except Failure α × Session :=
  let (result, world) := session.world.run pass
  (result, { session with world })

/-- Starts a collapse pass as a task, in place of the one of the same name. It does nothing until
it is polled. -/
def startTask (session : Session) (name : String) (ids : List RequestId) : Session :=
  let task : Task := ⟨(Pass.collapse session.policy ids).run, false⟩
  { session with tasks := session.tasks.insert name task }

/-- Drops a task. -/
def dropTask (session : Session) (name : String) : Session :=
  { session with tasks := session.tasks.filter fun other _ => other != name }

/-- Polls a task once: gives its result if it ended, none if it waits; and none at all if there
is no task of that name. -/
def poll (session : Session) (name : String) :
    Option (Option (Except Failure (List RequestId)) × Session) :=
  (session.tasks.get? name).map fun task =>
    match task.rest.advance World.suspends World.perform task.waited session.world with
    | (.inl result, world) => (some result, { session.dropTask name with world })
    | (.inr rest, world) =>
      (none, { session with world, tasks := session.tasks.insert name ⟨rest, true⟩ })

end Session
end BuildQueue
