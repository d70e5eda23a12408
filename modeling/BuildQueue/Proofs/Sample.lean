import BuildQueue.Pass
import BuildQueue.Proofs.Store.History
import BuildQueue.Sample
import BuildQueue.World

/-!
# Sample stores

A small queue of requests that are redundant with each other, for tests and examples.
-/

namespace BuildQueue
namespace Sample

/-- A submission of the main codebase to a list of builders. -/
def submission (builderIds : List BuilderId) : Submission where
  reason := "commit"
  sourceStamps := [sourceStamp ⟨1⟩ mainCodebase none]
  builderIds

/-- A submission of source stamps to one builder. -/
def stamped (sourceStamps : List SourceStamp) : Submission :=
  { submission [linux.id] with sourceStamps }

/-- A request of the first buildset that waits for a builder. -/
def early : Request where
  id := ⟨5⟩
  buildsetId := ⟨1⟩
  builderId := linux.id
  builderName := linux.name
  priority := 0
  claimed := false
  claimedAt := none
  complete := false
  outcome := none
  submittedAt := some submittedAt
  completeAt := none
  waitedFor := false

/-- The store with a builder and nothing else. -/
def ready : Store := .populated ⟨1⟩ [.builder linux]

/-- The same is submitted twice to a builder, so that the first request is redundant. -/
def resubmission : List Addition :=
  [.builder linux, .buildset (submission [linux.id]) submittedAt,
    .buildset (submission [linux.id]) submittedAt]

/-- The store with two requests for the same. -/
def resubmitted : Store := .reached ⟨1⟩ (resubmission.map .add)

/-- The store with two requests for the same, the second of which is being built. -/
def started : Store :=
  .reached ⟨1⟩ (resubmission.map .add ++ [.call submittedAt (.claim [⟨2⟩] none)])

/-- The store with two requests for the same, the second of which was built. -/
def rebuilt : Store :=
  .reached ⟨1⟩ (resubmission.map .add ++
    [.call submittedAt (.claim [⟨2⟩] none), .call submittedAt (.complete [⟨2⟩] .success none)])

/-- The store with two requests of one buildset, which lists their builder twice. -/
def twins : Store :=
  .reached ⟨1⟩
    [.add (.builder linux), .add (.buildset (submission [linux.id, linux.id]) submittedAt)]

/-- The store in which each of two submissions has a request of either builder. -/
def fannedOut : Store :=
  .populated ⟨1⟩
    [.builder linux, .builder mac, .buildset (submission [linux.id, mac.id]) submittedAt,
      .buildset (submission [linux.id, mac.id]) submittedAt]

/-- A site with a store. -/
def site (store : Store) : Site where
  store
  caller := ∅
  cache := ∅
  lines := []
  now := submittedAt

/-- A fresh world with a store. -/
def world (store : Store) : World :=
  { World.initial ⟨1⟩ .default submittedAt with store }

/-- The request of one of the resubmissions. -/
def resubmittedRequest (number : Nat) : Request :=
  { early with id := ⟨number⟩, buildsetId := ⟨number⟩ }

/-- A fresh world with two requests for the same and one whose buildset is missing, and with a cache
for one view only. -/
def narrow : World :=
  { World.initial ⟨1⟩ ⟨1, some 5⟩ submittedAt with
    store := resubmitted.insertRequest (resubmittedRequest 9) }

/-- What a pass alone makes of a store. -/
def collapse (store : Store) (newIds : List RequestId) :
    Except Failure (List RequestId) × World :=
  (world store).run (Pass.collapse .standard newIds)

end Sample
end BuildQueue
