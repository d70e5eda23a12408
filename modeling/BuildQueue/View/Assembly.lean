import BuildQueue.Script
import BuildQueue.Store.Call
import BuildQueue.View

/-!
# Assembly of views

The view of a request is put together from several calls of the store: the request, its buildset,
the properties and the source stamps of the buildset, and the changes of each stamp. It fails at
the first thing that is missing.
-/

namespace BuildQueue

/-! ## Failures -/

/-- Why a computation over the store fails: the store refuses, a view cannot be assembled, or
something else went wrong on the way. -/
inductive Failure where
  | store (error : StoreError)
  | assembly (error : AssemblyError)
  | other (message : String)
deriving DecidableEq, Repr

/-- The wording of a failure. -/
def Failure.message : Failure → String
  | store error => error.message
  | assembly error => error.message
  | other message => message

/-! ## Calls -/

/-- What the surroundings reply to a call. -/
@[reducible] def Call.Reply (call : Call) : Type := Except Failure call.Value

/-- A computation that calls the store and may fail. -/
abbrev Calling (α : Type) := ExceptT Failure (Script Call.Reply) α

/-- Makes a call. -/
def Call.make (call : Call) : Calling call.Value := ExceptT.mk (Script.single call)

/-! ## Loading -/

namespace View

/-- Fetches the changes of a source stamp. -/
def fetchSource (stamp : SourceStamp) : Calling Source := do
  return ⟨stamp, ← (Call.getChanges stamp.id).make⟩

/-- Assembles the view of a request that is at hand. -/
def ofRequest (request : Request) : Calling View := do
  let some buildset ← (Call.getBuildset request.buildsetId).make
    | throw (.assembly (.missingBuildset request.id request.buildsetId))
  let properties ← (Call.getProperties request.buildsetId).make
  let stamps ← (Call.getSourceStamps request.buildsetId).make
  if stamps.isEmpty then throw (.assembly (.noSourceStamps request.buildsetId))
  let fetched ← stamps.mapM fetchSource
  match sourcesByCodebase request.buildsetId fetched with
  | .error error => throw (.assembly error)
  | .ok sources =>
    return {
      id := request.id
      buildsetId := request.buildsetId
      builderId := request.builderId
      builderName := request.builderName
      priority := request.priority
      submittedAt := request.submittedAt
      reason := buildset.reason
      properties
      sources
      waitedFor := request.waitedFor }

/-- Fetches a request and assembles its view. -/
def load (id : RequestId) : Calling View := do
  let some request ← (Call.getRequest id).make | throw (.assembly (.missingRequest id))
  ofRequest request

end View
end BuildQueue
