import BuildQueue.Record
import BuildQueue.Text.Character

/-!
# Views

The view of a build request is everything that matters when requests are compared: the request
itself, the reason and the properties of its buildset, and its sources by codebase. Whether the
request is claimed is not part of its view.
-/

namespace BuildQueue

/-- The view of a build request. -/
structure View where
  id : RequestId
  buildsetId : BuildsetId
  builderId : BuilderId
  builderName : String
  priority : Int
  submittedAt : Option Timestamp
  reason : String
  properties : Properties
  /-- The sources by their codebases. -/
  sources : SortedMap String Source
  waitedFor : Bool
deriving BEq

/-- Why a view cannot be assembled. -/
inductive AssemblyError where
  | missingRequest (id : RequestId)
  | missingBuildset (request : RequestId) (buildset : BuildsetId)
  | noSourceStamps (buildset : BuildsetId)
  | duplicateCodebase (buildset : BuildsetId) (codebase : String)
deriving DecidableEq, Repr

/-- The wording of an assembly error. -/
def AssemblyError.message : AssemblyError → String
  | missingRequest id => "Build request " ++ toString id ++ " not found"
  | missingBuildset request buildset =>
    "Build request " ++ toString request ++ " references buildset " ++ toString buildset ++
      ", which does not exist"
  | noSourceStamps buildset => "Buildset " ++ toString buildset ++ " has no sourcestamps"
  | duplicateCodebase buildset codebase =>
    "Buildset " ++ toString buildset ++ " has more than one sourcestamp for codebase " ++
      Text.quoted codebase

/-- Sources by codebase; refuses the first one whose codebase occurred before. -/
def sourcesByCodebase (buildset : BuildsetId) (sources : List Source) :
    Except AssemblyError (SortedMap String Source) :=
  sources.foldlM
    (fun byCodebase source =>
      if byCodebase.contains source.codebase then
        .error (.duplicateCodebase buildset source.codebase)
      else .ok (byCodebase.insert source.codebase source))
    ∅

end BuildQueue
