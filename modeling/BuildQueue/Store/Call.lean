import BuildQueue.Store

/-!
# Calls of the store

The interface of the store as its clients see it: each call is a value, so that it can be part of
a script, refused by a guard, or charged to an account. Reads leave the store as it is.
-/

namespace BuildQueue

/-- The methods of the store interface. -/
inductive Method where
  | getRequest
  | getBuildset
  | getProperties
  | getSourceStamps
  | getChanges
  | listUnclaimed
  | getBuilder
  | claim
  | complete
  | unclaim
deriving DecidableEq, Repr

namespace Method

/-- All methods. -/
def all : List Method :=
  [getRequest, getBuildset, getProperties, getSourceStamps, getChanges, listUnclaimed, getBuilder,
    claim, complete, unclaim]

/-- The name of a method. -/
def name : Method → String
  | getRequest => "get_build_request"
  | getBuildset => "get_buildset"
  | getProperties => "get_buildset_properties"
  | getSourceStamps => "get_sourcestamps_for_buildset"
  | getChanges => "get_changes_for_sourcestamp"
  | listUnclaimed => "list_unclaimed_requests"
  | getBuilder => "get_builder"
  | claim => "claim_build_requests"
  | complete => "complete_build_requests"
  | unclaim => "unclaim_build_requests"

/-- The method of a name. -/
def ofName? (name : String) : Option Method := all.find? fun method => method.name == name

/-- Whether a method may change the store. -/
def isWrite : Method → Bool
  | claim | complete | unclaim => true
  | _ => false

end Method

/-- A call of the store. A claim or completion without a time happens at the current one. -/
inductive Call where
  | getRequest (id : RequestId)
  | getBuildset (id : BuildsetId)
  | getProperties (id : BuildsetId)
  | getSourceStamps (id : BuildsetId)
  | getChanges (id : SourceStampId)
  | listUnclaimed (id : BuilderId)
  | getBuilder (id : BuilderId)
  | claim (ids : List RequestId) (time : Option Timestamp)
  | complete (ids : List RequestId) (outcome : Outcome) (time : Option Timestamp)
  | unclaim (ids : List RequestId)
deriving DecidableEq, Repr

namespace Call

/-- The method that is called. -/
def method : Call → Method
  | getRequest _ => .getRequest
  | getBuildset _ => .getBuildset
  | getProperties _ => .getProperties
  | getSourceStamps _ => .getSourceStamps
  | getChanges _ => .getChanges
  | listUnclaimed _ => .listUnclaimed
  | getBuilder _ => .getBuilder
  | claim _ _ => .claim
  | complete _ _ _ => .complete
  | unclaim _ => .unclaim

/-- What a successful call gives. -/
@[reducible] def Value : Call → Type
  | getRequest _ => Option Request
  | getBuildset _ => Option Buildset
  | getProperties _ => Properties
  | getSourceStamps _ => List SourceStamp
  | getChanges _ => List Change
  | listUnclaimed _ => List Request
  | getBuilder _ => Option Builder
  | claim _ _ => Bool
  | complete _ _ _ => Unit
  | unclaim _ => Unit

end Call

/-- What a call gives at the given time, and the store after it. -/
def Store.perform (now : Timestamp) (store : Store) :
    (call : Call) → Except StoreError call.Value × Store
  | .getRequest id => (.ok (store.requests.get? id), store)
  | .getBuildset id => (.ok (store.buildsets.get? id), store)
  | .getProperties id => (.ok (store.propertiesOf id), store)
  | .getSourceStamps id => (store.stampsOf id, store)
  | .getChanges id => (.ok (store.changesOf id), store)
  | .listUnclaimed id => (.ok (store.pendingOf id), store)
  | .getBuilder id => (.ok (store.builders.get? id), store)
  | .claim ids time =>
    let (won, store) := store.claim ids (time.getD now)
    (.ok won, store)
  | .complete ids outcome time =>
    match store.complete ids outcome (time.getD now) with
    | .ok store => (.ok (), store)
    | .error error => (.error error, store)
  | .unclaim ids => (.ok (), store.unclaim ids)

end BuildQueue
