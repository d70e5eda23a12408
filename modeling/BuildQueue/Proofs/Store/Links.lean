import BuildQueue.Proofs.Store.Evolution

/-!
# References between the tables of a store

Rows refer to each other by identifiers. Whatever is done to a store, the rows stand under their own
identifiers, and a buildset that is there has its properties and the list of its source stamps, all
of which are there too. Only the references of requests to buildsets may lead nowhere, since a row
can be put in as it is.
-/

namespace BuildQueue
namespace Store

variable {before after store : Store} {update : Update} {made : List Addition}

/-- The references between buildsets and source stamps lead somewhere. -/
structure Linked (store : Store) : Prop where
  own : ∀ {id stamp}, store.sourceStamps.get? id = some stamp → stamp.id = id
  /-- A buildset that is there has properties and a list of source stamps. -/
  whole : ∀ {id buildset}, store.buildsets.get? id = some buildset →
    (store.properties.get? id).isSome ∧ (store.stampIds.get? id).isSome
  /-- A source stamp that a buildset lists is there. -/
  known : ∀ {id stampIds}, store.stampIds.get? id = some stampIds →
    ∀ stampId ∈ stampIds, (store.sourceStamps.get? stampId).isSome

/-- The source stamps that a buildset lists, as they are now. -/
structure Lists (store : Store) (id : BuildsetId) (stamps : List SourceStamp) : Prop where
  listed : store.stampIds.get? id = some (stamps.map (·.id))
  current : ∀ stamp ∈ stamps, store.sourceStamps.get? stamp.id = some stamp

/-! ## Requests -/

theorem keyed_startingAt (firstRequest : RequestId) : (startingAt firstRequest).Keyed where
  own found := by cases found
  below found := by cases found

theorem Keyed.step
    (keyed : before.Keyed)
    (updates : before.Updates update made after) :
    after.Keyed := by
  cases updates with
  | builder builder => exact ⟨keyed.own, keyed.below⟩
  | change change known => exact ⟨keyed.own, keyed.below⟩
  | refused => exact keyed
  | call now call => exact keyed.of_asSubmitted (asSubmitted_perform before now call)
  | buildset now submits => exact submits.keyed keyed
  | insert row =>
      constructor
      case own =>
        intro id request found
        rcases insertRequest_cases found with ⟨rfl, rfl⟩ | earlier
        · rfl
        · exact keyed.own earlier
      case below =>
        intro id request found
        rw [insertRequest, Ident.lt_iff]
        dsimp only
        rcases insertRequest_cases found with ⟨rfl, rfl⟩ | earlier
        · omega
        · have below := Ident.lt_iff.1 (keyed.below earlier)
          omega

/-- The requests of every store stand under their own identifiers. -/
theorem keyed_evolved (firstRequest : RequestId) (updates : List Update) :
    (evolved firstRequest updates).Keyed :=
  evolve_induction updates (keyed_startingAt firstRequest)
    fun _ _ _ _ updates keyed => keyed.step updates

/-! ## Builders -/

/-- The builders of every store stand under their own identifiers. -/
theorem id_of_builder_evolved
    {firstRequest : RequestId}
    {updates : List Update}
    {id : BuilderId}
    {builder : Builder}
    (found : (evolved firstRequest updates).builders.get? id = some builder) :
    builder.id = id := by
  revert found
  refine @evolve_induction (startingAt firstRequest)
    (fun store => store.builders.get? id = some builder → builder.id = id) updates
    (fun impossible => by cases impossible) fun before update after _ updates own found => ?_
  generalize before.taken update = made at updates
  cases updates with
  | builder added =>
      rw [addBuilder, SortedMap.get?_insert] at found
      split at found
      · next same =>
        cases found
        exact (Std.LawfulEqCmp.eq_of_compare same).symm
      · exact own found
  | call now call =>
      obtain ⟨requests, same⟩ := tables_perform before now call
      rw [same] at found
      exact own found
  | buildset now submits => exact own (submits.builders ▸ found)
  | _ => exact own found

/-! ## Buildsets and source stamps -/

theorem linked_startingAt (firstRequest : RequestId) : (startingAt firstRequest).Linked where
  own found := by cases found
  whole found := by cases found
  known found := by cases found

theorem Linked.step
    (linked : before.Linked)
    (updates : before.Updates update made after) :
    after.Linked := by
  cases updates with
  | builder builder => exact ⟨linked.own, linked.whole, linked.known⟩
  | change change known => exact ⟨linked.own, linked.whole, linked.known⟩
  | insert row => exact ⟨linked.own, linked.whole, linked.known⟩
  | refused => exact linked
  | call now call =>
      obtain ⟨requests, same⟩ := tables_perform before now call
      rw [same]
      exact ⟨linked.own, linked.whole, linked.known⟩
  | buildset now submits =>
      constructor
      case own =>
        intro id stamp found
        rw [submits.sourceStamps] at found
        rcases SortedMap.get?_insertAll_map_cases found with ⟨-, same⟩ | earlier
        · exact same
        · exact linked.own earlier
      case whole =>
        intro id buildset found
        obtain ⟨row, buildsets⟩ := submits.buildsets
        rw [buildsets, SortedMap.get?_insert] at found
        rw [submits.properties, submits.stampIds, SortedMap.get?_insert, SortedMap.get?_insert]
        by_cases same : compare id before.nextBuildset = .eq
        · simp only [if_pos same, Option.isSome_some, and_self]
        · simp only [if_neg same] at found ⊢
          exact linked.whole found
      case known =>
        intro id stampIds found stampId listed
        rw [submits.stampIds, SortedMap.get?_insert] at found
        rw [submits.sourceStamps, SortedMap.isSome_get?_insertAll]
        split at found
        · cases found
          exact .inl (by simpa using listed)
        · exact .inr (linked.known found stampId listed)

/-- In every store the references between buildsets and source stamps lead somewhere. -/
theorem linked_evolved (firstRequest : RequestId) (updates : List Update) :
    (evolved firstRequest updates).Linked :=
  evolve_induction updates (linked_startingAt firstRequest)
    fun _ _ _ _ updates linked => linked.step updates

/-- Source stamps that are there can be looked up one after the other. -/
theorem Linked.exists_stamps
    (linked : store.Linked)
    {stampIds : List SourceStampId}
    (known : ∀ stampId ∈ stampIds, (store.sourceStamps.get? stampId).isSome) :
    ∃ stamps : List SourceStamp, stamps.map (·.id) = stampIds ∧
      ∀ stamp ∈ stamps, store.sourceStamps.get? stamp.id = some stamp := by
  induction stampIds with
  | nil => exact ⟨[], rfl, by simp⟩
  | cons stampId rest inductionHypothesis =>
      rw [List.forall_mem_cons] at known
      obtain ⟨stamp, found⟩ := Option.isSome_iff_exists.1 known.1
      obtain ⟨stamps, ids, current⟩ := inductionHypothesis known.2
      have own : stamp.id = stampId := linked.own found
      refine ⟨stamp :: stamps, by simp [own, ids], ?_⟩
      rw [List.forall_mem_cons]
      exact ⟨by rw [own, found], current⟩

/-- A buildset that is there has properties and lists source stamps. -/
theorem Linked.exists_lists
    (linked : store.Linked)
    {id : BuildsetId}
    {buildset : Buildset}
    (found : store.buildsets.get? id = some buildset) :
    ∃ properties stamps, store.properties.get? id = some properties ∧ store.Lists id stamps := by
  obtain ⟨propertiesThere, listThere⟩ := linked.whole found
  obtain ⟨properties, propertiesFound⟩ := Option.isSome_iff_exists.1 propertiesThere
  obtain ⟨stampIds, listFound⟩ := Option.isSome_iff_exists.1 listThere
  obtain ⟨stamps, rfl, current⟩ := linked.exists_stamps (linked.known listFound)
  exact ⟨properties, stamps, propertiesFound, listFound, current⟩

/-- Looking up source stamps that are there gives them in their order. -/
theorem mapM_sourceStamp
    {stamps : List SourceStamp}
    {current : SourceStamp → SourceStamp}
    (found : ∀ stamp ∈ stamps, store.sourceStamps.get? stamp.id = some (current stamp)) :
    (stamps.map (·.id)).mapM store.sourceStamp = .ok (stamps.map current) := by
  induction stamps with
  | nil => rfl
  | cons stamp rest inductionHypothesis =>
      rw [List.forall_mem_cons] at found
      rw [List.map_cons, List.mapM_cons, inductionHypothesis found.2, sourceStamp, found.1]
      rfl

/-- The source stamps of a buildset are those that it lists. -/
theorem Lists.stampsOf
    {id : BuildsetId}
    {stamps : List SourceStamp}
    (lists : store.Lists id stamps) :
    store.stampsOf id = .ok stamps := by
  have same : (stamps.map (·.id)).mapM store.sourceStamp = .ok (stamps.map fun stamp => stamp) :=
    mapM_sourceStamp lists.current
  rw [Store.stampsOf, lists.listed, Option.getD_some, same, List.map_id']

end Store
end BuildQueue
