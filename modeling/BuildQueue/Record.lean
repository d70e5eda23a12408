import BuildQueue.Ident
import BuildQueue.Json
import BuildQueue.Outcome
import BuildQueue.SortedMap
import BuildQueue.Timestamp

/-!
# Records

The rows that a build request store keeps: build requests, the buildsets that they belong to,
the source stamps that a buildset builds, the changes of a source stamp, and builders. A source is
put together from a source stamp and the changes that went into it.

Buildsets and changes carry named properties. A property is a JSON value together with a label of
whatever set it.
-/

namespace BuildQueue

/-! ## Properties -/

/-- A property: its value and the label of its source. -/
structure Property where
  value : Json
  source : String
deriving BEq, Inhabited

/-- Named properties in the order of their names. -/
abbrev Properties := SortedMap String Property

namespace Properties

/-- The label of properties that a scheduler sets. -/
def schedulerSource : String := "Scheduler"

/-- The property that every scheduler sets to its own name. -/
def schedulerProperty : String := "scheduler"

/-- The properties with one more set. -/
def set (properties : Properties) (name : String) (value : Json) (source : String) :
    Properties :=
  properties.insert name ⟨value, source⟩

/-- The values of the properties that a scheduler set, except its own name: the part of the
properties that matters when buildsets are compared. -/
def schedulerValues (properties : Properties) : SortedMap String Json :=
  (properties.filter fun name property =>
    name != schedulerProperty && property.source == schedulerSource).mapValues
      fun _ property => property.value

end Properties

/-! ## Rows -/

/-- A build request: one buildset to be built by one builder. A worker that takes the request
claims it, and completes it with an outcome. -/
structure Request where
  id : RequestId
  buildsetId : BuildsetId
  builderId : BuilderId
  builderName : String
  priority : Int
  claimed : Bool
  claimedAt : Option Timestamp
  complete : Bool
  outcome : Option Outcome
  submittedAt : Option Timestamp
  completeAt : Option Timestamp
  waitedFor : Bool
deriving DecidableEq, Repr, Inhabited

/-- A buildset: what one submission asked for. -/
structure Buildset where
  id : BuildsetId
  reason : String
  externalId : Option String
  submittedAt : Timestamp
  complete : Bool
  completeAt : Option Timestamp
  outcome : Option Outcome
deriving DecidableEq, Repr, Inhabited

/-- A patch on top of a source stamp. -/
structure Patch where
  level : Int
  body : List UInt8
  subdir : Option String
  author : Option String
  comment : Option String
deriving DecidableEq, Repr, Inhabited

/-- The source of one codebase: what to check out, and a patch to apply. -/
structure SourceStamp where
  id : SourceStampId
  codebase : String
  repository : String
  branch : Option String
  project : String
  revision : Option String
  patch : Option Patch
deriving DecidableEq, Repr, Inhabited

/-- A change that went into a source stamp. -/
structure Change where
  id : ChangeId
  author : String
  revision : Option String
  time : Option Timestamp
  properties : Properties
deriving BEq, Inhabited

/-- A builder. -/
structure Builder where
  id : BuilderId
  name : String
deriving DecidableEq, Repr, Inhabited

/-- Whether a request can be claimed: it is neither claimed nor complete. -/
def Request.isPending (request : Request) : Bool := !request.claimed && !request.complete

/-! ## Sources -/

/-- The source of one codebase within a build request: a source stamp with its changes. -/
structure Source extends SourceStamp where
  changes : List Change
deriving BEq, Inhabited

namespace Source

/-- Whether changes went into the source. -/
def hasChanges (source : Source) : Bool := !source.changes.isEmpty

/-- Level, body and directory of the patch. -/
def patchContent (source : Source) : Option (Int × List UInt8 × Option String) :=
  source.patch.map fun patch => (patch.level, patch.body, patch.subdir)

/-- Author and comment of the patch; absent without a patch. -/
def patchInfo (source : Source) : Option String × Option String :=
  match source.patch with
  | some patch => (patch.author, patch.comment)
  | none => (none, none)

end Source
end BuildQueue
