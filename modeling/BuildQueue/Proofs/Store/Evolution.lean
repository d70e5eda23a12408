import BuildQueue.Proofs.Store.Exchange
import BuildQueue.Proofs.Store.Updates

/-!
# Stores with rows put in

Besides submissions and calls, rows can be put into a store as they are. Such a row may belong to a
buildset that is not there, or that will only be submitted later. However the rows of a store came
in, a buildset is never changed, and the tables of source stamps and changes are what the additions
that were accepted have made of them.
-/

namespace BuildQueue
namespace Addition

/-- The source stamps that an addition submits. -/
def stamps : Addition → List SourceStamp
  | .buildset submission _ => submission.sourceStamps
  | _ => []

/-- The changes that an addition adds to a source stamp. -/
def changesTo (addition : Addition) (id : SourceStampId) : List Change :=
  match addition with
  | .change stampId added => if stampId = id then [added] else []
  | _ => []

end Addition

namespace Store

variable {before after store : Store}

/-- The store after some updates. -/
def evolve (store : Store) (updates : List Update) : Store := updates.foldl updated store

/-- The store that some updates make of an empty one. -/
def evolved (firstRequest : RequestId) (updates : List Update) : Store :=
  (startingAt firstRequest).evolve updates

/-- The additions that are accepted in the course of some updates. -/
def additions (store : Store) : List Update → List Addition
  | [] => []
  | update :: rest => store.taken update ++ (store.updated update).additions rest

@[simp] theorem evolve_nil (store : Store) : store.evolve [] = store := rfl

@[simp] theorem evolve_cons (store : Store) (update : Update) (rest : List Update) :
    store.evolve (update :: rest) = (store.updated update).evolve rest := rfl

/-- What every update keeps some updates keep. -/
theorem evolve_induction
    {motive : Store → Prop}
    (updates : List Update)
    (start : motive store)
    (step : ∀ before update after, update ∈ updates →
      before.Updates update (before.taken update) after → motive before → motive after) :
    motive (store.evolve updates) :=
  List.foldlRecOn updates updated start fun before holds update listed =>
    step before update _ listed (before.updates update) holds

/-! ## Buildsets -/

section

variable {update : Update} {made : List Addition}

/-- Buildsets are numbered upwards. -/
theorem Updates.nextBuildset_le
    (updates : before.Updates update made after) :
    before.nextBuildset ≤ after.nextBuildset := by
  cases updates with
  | buildset now submits =>
      rw [submits.nextBuildset]
      exact le_of_lt (Ident.lt_next _)
  | call now call =>
      obtain ⟨requests, same⟩ := tables_perform before now call
      rw [same]
  | _ => exact le_refl _

/-- An update changes nothing about the buildsets that are there. -/
theorem Updates.buildset_kept
    (updates : before.Updates update made after)
    {id : BuildsetId}
    (below : id < before.nextBuildset) :
    after.buildsets.get? id = before.buildsets.get? id ∧
      after.properties.get? id = before.properties.get? id ∧
      after.stampIds.get? id = before.stampIds.get? id := by
  cases updates with
  | buildset now submits =>
      obtain ⟨buildset, buildsets⟩ := submits.buildsets
      have other : compare id before.nextBuildset ≠ .eq := by
        rw [Ident.compare_eq_lt_iff.2 below]
        simp
      rw [buildsets, submits.properties, submits.stampIds]
      simp only [SortedMap.get?_insert, if_neg other, and_self]
  | call now call =>
      obtain ⟨requests, same⟩ := tables_perform before now call
      rw [same]
      exact ⟨rfl, rfl, rfl⟩
  | _ => exact ⟨rfl, rfl, rfl⟩

/-- Updates change nothing about the buildsets that are there. -/
theorem buildset_evolve
    (updates : List Update)
    {id : BuildsetId}
    (below : id < store.nextBuildset) :
    (store.evolve updates).buildsets.get? id = store.buildsets.get? id ∧
      (store.evolve updates).properties.get? id = store.properties.get? id ∧
      (store.evolve updates).stampIds.get? id = store.stampIds.get? id := by
  induction updates generalizing store with
  | nil => exact ⟨rfl, rfl, rfl⟩
  | cons update rest inductionHypothesis =>
      have first := store.updates update
      obtain ⟨buildsets, properties, stampIds⟩ :=
        inductionHypothesis (lt_of_lt_of_le below first.nextBuildset_le)
      obtain ⟨sameBuildset, sameProperties, sameStampIds⟩ := first.buildset_kept below
      exact ⟨buildsets.trans sameBuildset, properties.trans sameProperties,
        stampIds.trans sameStampIds⟩

/-! ## Source stamps and changes -/

/-- An update files the source stamps of its addition under their identifiers. -/
theorem Updates.sourceStamps
    (updates : before.Updates update made after) :
    after.sourceStamps = before.sourceStamps.insertAll
      ((made.flatMap Addition.stamps).map fun stamp => (stamp.id, stamp)) := by
  cases updates with
  | buildset now submits =>
      rw [submits.sourceStamps]
      simp [Addition.stamps]
  | call now call =>
      obtain ⟨requests, same⟩ := tables_perform before now call
      rw [same]
      rfl
  | _ => rfl

/-- The table of source stamps is what filing all source stamps that were accepted makes of it. -/
theorem sourceStamps_evolve (store : Store) (updates : List Update) :
    (store.evolve updates).sourceStamps = store.sourceStamps.insertAll
      (((store.additions updates).flatMap Addition.stamps).map fun stamp => (stamp.id, stamp)) := by
  induction updates generalizing store with
  | nil => rfl
  | cons update rest inductionHypothesis =>
      rw [evolve_cons, inductionHypothesis, (store.updates update).sourceStamps, additions,
        List.flatMap_append, List.map_append, SortedMap.insertAll_append]

/-- An update adds the change of its addition behind the earlier ones. -/
theorem Updates.changesOf
    (updates : before.Updates update made after)
    (id : SourceStampId) :
    after.changesOf id = before.changesOf id ++ made.flatMap (·.changesTo id) := by
  cases updates with
  | change change known =>
      next stampId =>
      simp only [Store.changesOf, SortedMap.get?_insert, List.flatMap_cons, List.flatMap_nil,
        Addition.changesTo, List.append_nil]
      by_cases same : stampId = id
      · subst same
        simp
      · have other : compare id stampId ≠ .eq := fun equal =>
          same (Std.LawfulEqCmp.eq_of_compare equal).symm
        simp only [if_neg other, if_neg same, List.append_nil]
  | buildset now submits => simp [Store.changesOf, submits.changes, Addition.changesTo]
  | call now call =>
      obtain ⟨requests, same⟩ := tables_perform before now call
      rw [same]
      simp [Store.changesOf]
  | _ => simp [Store.changesOf, addBuilder, insertRequest, Addition.changesTo]

/-- A source stamp has the changes that were added to it, in their order. -/
theorem changesOf_evolve (store : Store) (updates : List Update) (id : SourceStampId) :
    (store.evolve updates).changesOf id =
      store.changesOf id ++ (store.additions updates).flatMap (·.changesTo id) := by
  induction updates generalizing store with
  | nil => simp [additions]
  | cons update rest inductionHypothesis =>
      rw [evolve_cons, inductionHypothesis, (store.updates update).changesOf, additions,
        List.flatMap_append, List.append_assoc]

end

end Store
end BuildQueue
