import BuildQueue.Store.Call
import BuildQueue.View.Assembly

/-!
# What claims leave alone

Claims, completions and releases change five fields of a request and nothing else. Two stores that
differ only in these fields have the same form *as submitted*. The calls that assemble a view read
nothing else of the store, so their answers can be compared across any number of claims.
-/

namespace BuildQueue

namespace Request

/-- The request as its submission left it: without a claim and without an outcome. -/
def asSubmitted (request : Request) : Request :=
  { request with
    claimed := false
    claimedAt := none
    complete := false
    outcome := none
    completeAt := none }

variable (request : Request)

@[simp] theorem asSubmitted_id : request.asSubmitted.id = request.id := rfl

@[simp] theorem asSubmitted_buildsetId : request.asSubmitted.buildsetId = request.buildsetId := rfl

@[simp] theorem asSubmitted_builderId : request.asSubmitted.builderId = request.builderId := rfl

@[simp] theorem asSubmitted_asSubmitted :
    request.asSubmitted.asSubmitted = request.asSubmitted := rfl

@[simp] theorem asSubmitted_claim (time : Timestamp) :
    (request.claim time).asSubmitted = request.asSubmitted := rfl

@[simp] theorem asSubmitted_finish (outcome : Outcome) (time : Timestamp) :
    (request.finish outcome time).asSubmitted = request.asSubmitted := rfl

@[simp] theorem asSubmitted_release : request.release.asSubmitted = request.asSubmitted := by
  unfold release
  split <;> rfl

/-- Requests that were submitted alike have the same identifier. -/
theorem id_of_asSubmitted
    {request other : Request}
    (alike : request.asSubmitted = other.asSubmitted) :
    request.id = other.id := by
  simpa only [asSubmitted_id] using congrArg Request.id alike

/-- Requests that were submitted alike have the same buildset. -/
theorem buildsetId_of_asSubmitted
    {request other : Request}
    (alike : request.asSubmitted = other.asSubmitted) :
    request.buildsetId = other.buildsetId := by
  simpa only [asSubmitted_buildsetId] using congrArg Request.buildsetId alike

/-- Requests that were submitted alike have the same builder. -/
theorem builderId_of_asSubmitted
    {request other : Request}
    (alike : request.asSubmitted = other.asSubmitted) :
    request.builderId = other.builderId := by
  simpa only [asSubmitted_builderId] using congrArg Request.builderId alike

end Request

/-- Whether a call reads only what no claim changes. -/
def Call.isStatic : Call → Bool
  | .getBuildset _ | .getProperties _ | .getSourceStamps _ | .getChanges _ | .getBuilder _ => true
  | _ => false

namespace Store

variable {store other : Store}

/-- The store with each request as its submission left it. -/
def asSubmitted (store : Store) : Store :=
  { store with requests := store.requests.mapValues fun _ request => request.asSubmitted }

/-- Stores that differ in their requests only are the same if they hold the same requests. -/
theorem eq_of_get?
    (base : Store)
    {requests others : SortedMap RequestId Request}
    (same : ∀ id, requests.get? id = others.get? id) :
    { base with requests := requests } = { base with requests := others } :=
  congrArg (fun requests => { base with requests }) (SortedMap.ext_get? same)

@[simp] theorem builders_asSubmitted (store : Store) :
    store.asSubmitted.builders = store.builders := rfl

@[simp] theorem get?_asSubmitted (store : Store) (id : RequestId) :
    store.asSubmitted.requests.get? id = (store.requests.get? id).map Request.asSubmitted := by
  simp [asSubmitted]

@[simp] theorem get?_updateRequests
    (store : Store)
    (ids : List RequestId)
    (change : Request → Request)
    (id : RequestId) :
    (store.updateRequests ids change).requests.get? id =
      (store.requests.get? id).map fun request => if id ∈ ids then change request else request := by
  simp [updateRequests]

/-- The row of a request after a change of some rows. -/
theorem get?_updateRequests_eq_some
    {ids : List RequestId}
    {change : Request → Request}
    {id : RequestId}
    {request : Request}
    (found : store.requests.get? id = some request) :
    (store.updateRequests ids change).requests.get? id =
      some (if id ∈ ids then change request else request) := by
  rw [get?_updateRequests, found]
  rfl

/-- A change that keeps each request as submitted keeps the store as submitted. -/
theorem asSubmitted_updateRequests
    (store : Store)
    (ids : List RequestId)
    (change : Request → Request)
    (kept : ∀ request, (change request).asSubmitted = request.asSubmitted) :
    (store.updateRequests ids change).asSubmitted = store.asSubmitted := by
  refine eq_of_get? store fun id => ?_
  rw [SortedMap.get?_mapValues, SortedMap.get?_mapValues, get?_updateRequests, Option.map_map]
  congr 1
  funext request
  by_cases listed : id ∈ ids
  · simp [listed, kept]
  · simp [listed]

@[simp] theorem asSubmitted_asSubmitted (store : Store) :
    store.asSubmitted.asSubmitted = store.asSubmitted := by
  refine eq_of_get? store fun id => ?_
  rw [SortedMap.get?_mapValues, get?_asSubmitted, SortedMap.get?_mapValues, Option.map_map]
  rfl

/-- No call changes what was submitted. -/
theorem asSubmitted_perform
    (store : Store)
    (now : Timestamp)
    (call : Call) :
    (store.perform now call).2.asSubmitted = store.asSubmitted := by
  cases call with
  | claim ids time =>
      simp only [perform, claim]
      split
      · exact asSubmitted_updateRequests store ids _ fun request => rfl
      · rfl
  | complete ids outcome time =>
      simp only [perform, complete]
      cases ids.forM store.checkCompletable with
      | error error => rfl
      | ok _ => exact asSubmitted_updateRequests store ids _ fun request => rfl
  | unclaim ids =>
      exact asSubmitted_updateRequests store ids _ Request.asSubmitted_release
  | _ => rfl

/-- What a client is told of a call. -/
def reply
    (store : Store)
    (now : Timestamp)
    (call : Call) : call.Reply :=
  (store.perform now call).1.mapError .store

/-- A read leaves the store as it is. -/
theorem perform_of_read
    (store : Store)
    (now : Timestamp)
    {call : Call}
    (reads : call.method.isWrite = false) :
    (store.perform now call).2 = store := by
  cases call <;> first | rfl | cases reads

/-- Stores that were submitted alike answer static calls alike. -/
theorem reply_of_isStatic
    {call : Call}
    (static : call.isStatic = true)
    (alike : store.asSubmitted = other.asSubmitted)
    (now later : Timestamp) :
    store.reply now call = other.reply later call := by
  have builders : store.builders = other.builders := by
    simpa only [asSubmitted] using congrArg Store.builders alike
  have buildsets : store.buildsets = other.buildsets := by
    simpa only [asSubmitted] using congrArg Store.buildsets alike
  have properties : store.properties = other.properties := by
    simpa only [asSubmitted] using congrArg Store.properties alike
  have stampIds : store.stampIds = other.stampIds := by
    simpa only [asSubmitted] using congrArg Store.stampIds alike
  have stamps : store.sourceStamps = other.sourceStamps := by
    simpa only [asSubmitted] using congrArg Store.sourceStamps alike
  have changes : store.changes = other.changes := by
    simpa only [asSubmitted] using congrArg Store.changes alike
  cases call with
  | getBuildset id => simp only [reply, perform, buildsets]
  | getProperties id => simp only [reply, perform, propertiesOf, properties]
  | getSourceStamps id =>
      have stamp : store.sourceStamp = other.sourceStamp := by
        funext id
        simp only [sourceStamp, stamps]
      simp only [reply, perform, stampsOf, stampIds, stamp]
  | getChanges id => simp only [reply, perform, changesOf, changes]
  | getBuilder id => simp only [reply, perform, builders]
  | _ => cases static

/-- Stores that were submitted alike hold the same requests, up to claims and outcomes. -/
theorem get?_of_asSubmitted
    (alike : store.asSubmitted = other.asSubmitted)
    {id : RequestId}
    {request : Request}
    (found : store.requests.get? id = some request) :
    ∃ twin, other.requests.get? id = some twin ∧ twin.asSubmitted = request.asSubmitted := by
  have same := congrArg (fun store : Store => store.requests.get? id) alike
  simp only [get?_asSubmitted, found, Option.map_some] at same
  exact Option.map_eq_some_iff.1 same.symm

/-- Stores that were submitted alike lack the same requests. -/
theorem get?_eq_none_of_asSubmitted
    (alike : store.asSubmitted = other.asSubmitted)
    {id : RequestId}
    (missing : store.requests.get? id = none) :
    other.requests.get? id = none := by
  have same := congrArg (fun store : Store => store.requests.get? id) alike
  simp only [get?_asSubmitted, missing, Option.map_none] at same
  exact Option.map_eq_none_iff.1 same.symm

end Store
end BuildQueue
