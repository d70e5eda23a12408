import BuildQueue.Record

/-!
# The build request store

The store keeps builders, buildsets with their properties and source stamps, the changes of
source stamps, and build requests. Submitting a buildset creates one pending request per builder.
A claim takes all of its requests or none; only claimed requests can be completed.
-/

namespace BuildQueue

/-- Why the store refuses an operation. -/
inductive StoreError where
  | notClaimed (id : RequestId)
  | alreadyComplete (id : RequestId)
  | unknownRequest (id : RequestId)
  | unknownBuilder (id : BuilderId)
  | unknownSourceStamp (id : SourceStampId)
deriving DecidableEq, Repr

/-- The wording of a refusal. -/
def StoreError.message : StoreError → String
  | notClaimed id => "Build request " ++ toString id ++ " is not claimed"
  | alreadyComplete id => "Build request " ++ toString id ++ " is already complete"
  | unknownRequest id => "Unknown build request " ++ toString id
  | unknownBuilder id => "Unknown builder " ++ toString id
  | unknownSourceStamp id => "Unknown sourcestamp " ++ toString id

/-- What is submitted as a buildset. Without a submission time the current one counts. -/
structure Submission where
  reason : String
  externalId : Option String := none
  properties : Properties := ∅
  sourceStamps : List SourceStamp
  builderIds : List BuilderId
  submittedAt : Option Timestamp := none
  priority : Int := 0
  waitedFor : Bool := false

/-- The identifiers that a submission was given: its buildset, and a request for each builder. -/
structure Submitted where
  buildsetId : BuildsetId
  requestIds : SortedMap BuilderId RequestId
deriving DecidableEq

/-- The content of a store, and the identifiers that it gives out next. -/
structure Store where
  nextBuildset : BuildsetId
  nextRequest : RequestId
  builders : SortedMap BuilderId Builder
  buildsets : SortedMap BuildsetId Buildset
  properties : SortedMap BuildsetId Properties
  /-- The source stamps of each buildset, in the order of the submission. -/
  stampIds : SortedMap BuildsetId (List SourceStampId)
  sourceStamps : SortedMap SourceStampId SourceStamp
  /-- The changes of each source stamp, in the order in which they were added. -/
  changes : SortedMap SourceStampId (List Change)
  requests : SortedMap RequestId Request

namespace Request

/-- The request as a claim leaves it. -/
def claim (request : Request) (time : Timestamp) : Request :=
  { request with claimed := true, claimedAt := some time }

/-- The request as its completion leaves it. -/
def finish (request : Request) (outcome : Outcome) (time : Timestamp) : Request :=
  { request with complete := true, outcome := some outcome, completeAt := some time }

/-- The request as the release of a claim leaves it: a completed one stays as it is. -/
def release (request : Request) : Request :=
  if request.claimed && !request.complete then
    { request with claimed := false, claimedAt := none }
  else request

/-- Whether a request comes before another in the queue of a builder: by submission time, those
without one first, and by identifier. -/
def queuedBefore (a b : Request) : Bool :=
  ((compare a.submittedAt b.submittedAt).then (compare a.id b.id)).isLE

end Request

namespace Store

/-- The empty store whose first request gets the given identifier. -/
def startingAt (firstRequest : RequestId) : Store where
  nextBuildset := ⟨1⟩
  nextRequest := firstRequest
  builders := ∅
  buildsets := ∅
  properties := ∅
  stampIds := ∅
  sourceStamps := ∅
  changes := ∅
  requests := ∅

/-- The empty store. -/
def empty : Store := startingAt ⟨1⟩

instance : Inhabited Store := ⟨empty⟩

/-! ## Submissions -/

/-- The store with a builder added, in place of the one of the same identifier. -/
def addBuilder (store : Store) (builder : Builder) : Store :=
  { store with builders := store.builders.insert builder.id builder }

/-- The name of a builder that is known. -/
def builderName (store : Store) (id : BuilderId) : String :=
  ((store.builders.get? id).map Builder.name).getD ""

/-- The pending requests that a submission creates, numbered in the order of its builders. -/
def newRequests (store : Store) (submission : Submission) (submittedAt : Timestamp) :
    List Request :=
  submission.builderIds.zipIdx.map fun (builderId, index) =>
    { id := ⟨store.nextRequest.number + index⟩
      buildsetId := store.nextBuildset
      builderId
      builderName := store.builderName builderId
      priority := submission.priority
      claimed := false
      claimedAt := none
      complete := false
      outcome := none
      submittedAt := some submittedAt
      completeAt := none
      waitedFor := submission.waitedFor }

/-- Submits a buildset at the given time. An unknown builder refuses it as a whole. -/
def addBuildset (store : Store) (submission : Submission) (now : Timestamp) :
    Except StoreError (Submitted × Store) :=
  match submission.builderIds.find? fun id => !store.builders.contains id with
  | some unknown => .error (.unknownBuilder unknown)
  | none =>
    let id := store.nextBuildset
    let submittedAt := submission.submittedAt.getD now
    let created := store.newRequests submission submittedAt
    let buildset : Buildset :=
      { id
        reason := submission.reason
        externalId := submission.externalId
        submittedAt
        complete := false
        completeAt := none
        outcome := none }
    .ok (
      { buildsetId := id
        requestIds := .ofList (created.map fun request => (request.builderId, request.id)) },
      { store with
        nextBuildset := id.next
        nextRequest := ⟨store.nextRequest.number + submission.builderIds.length⟩
        buildsets := store.buildsets.insert id buildset
        properties := store.properties.insert id submission.properties
        stampIds := store.stampIds.insert id (submission.sourceStamps.map (·.id))
        sourceStamps := store.sourceStamps.insertAll
          (submission.sourceStamps.map fun stamp => (stamp.id, stamp))
        requests := store.requests.insertAll
          (created.map fun request => (request.id, request)) })

/-- Adds a change to a source stamp that is there. -/
def addChange (store : Store) (stampId : SourceStampId) (change : Change) :
    Except StoreError Store :=
  if store.sourceStamps.contains stampId then
    let before := (store.changes.get? stampId).getD []
    .ok { store with changes := store.changes.insert stampId (before ++ [change]) }
  else .error (.unknownSourceStamp stampId)

/-- The store with a request put in as it is, whether or not its buildset and builder are
there. Identifiers given out later are larger. -/
def insertRequest (store : Store) (request : Request) : Store :=
  { store with
    nextRequest := ⟨max store.nextRequest.number (request.id.number + 1)⟩
    requests := store.requests.insert request.id request }

/-! ## Look-ups -/

/-- The properties of a buildset; an unknown one has none. -/
def propertiesOf (store : Store) (id : BuildsetId) : Properties := (store.properties.get? id).getD ∅

/-- A source stamp that has to be there. -/
def sourceStamp (store : Store) (id : SourceStampId) : Except StoreError SourceStamp :=
  match store.sourceStamps.get? id with
  | some stamp => .ok stamp
  | none => .error (.unknownSourceStamp id)

/-- The source stamps of a buildset; an unknown one has none. -/
def stampsOf (store : Store) (id : BuildsetId) : Except StoreError (List SourceStamp) :=
  ((store.stampIds.get? id).getD []).mapM store.sourceStamp

/-- The changes of a source stamp. -/
def changesOf (store : Store) (id : SourceStampId) : List Change := (store.changes.get? id).getD []

/-- The requests of a builder that can be claimed, in the order of its queue. -/
def pendingOf (store : Store) (builderId : BuilderId) : List Request :=
  (store.requests.values.filter fun request =>
    request.builderId == builderId && request.isPending).mergeSort Request.queuedBefore

/-! ## Claims -/

/-- Whether a request is there and can be claimed. -/
def claimable (store : Store) (id : RequestId) : Bool :=
  ((store.requests.get? id).map Request.isPending).getD false

/-- The store with the listed requests changed. -/
def updateRequests (store : Store) (ids : List RequestId) (change : Request → Request) : Store :=
  { store with
    requests := store.requests.mapValues fun id request =>
      if id ∈ ids then change request else request }

/-- Claims all of the listed requests, or none if one of them cannot be claimed. -/
def claim (store : Store) (ids : List RequestId) (time : Timestamp) : Bool × Store :=
  if ids.all store.claimable then (true, store.updateRequests ids (·.claim time))
  else (false, store)

/-- Whether a request can be completed, or why not. -/
def checkCompletable (store : Store) (id : RequestId) : Except StoreError Unit :=
  match store.requests.get? id with
  | none => .error (.unknownRequest id)
  | some request =>
    if request.complete then .error (.alreadyComplete id)
    else if request.claimed then .ok ()
    else .error (.notClaimed id)

/-- Completes all of the listed requests, or none if one of them cannot be completed. -/
def complete (store : Store) (ids : List RequestId) (outcome : Outcome) (time : Timestamp) :
    Except StoreError Store := do
  ids.forM store.checkCompletable
  return store.updateRequests ids (·.finish outcome time)

/-- Releases the claims on the listed requests. -/
def unclaim (store : Store) (ids : List RequestId) : Store :=
  store.updateRequests ids Request.release

end Store
end BuildQueue
