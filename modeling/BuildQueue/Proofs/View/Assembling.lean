import Mathlib.Data.List.Induction
import BuildQueue.Proofs.Store.Links
import BuildQueue.Proofs.View.Caching

/-!
# What assembling a view comes to

`Assembly` says when a view is assembled, of what, and when and why it is not: each case excludes
the others, and the first thing that is missing decides. Assembling is exact in every store, whatever
rows were put into it: since buildsets list source stamps that are there, no other failure is
possible.
-/

namespace BuildQueue

/-! ## Sources by codebase -/

/-- Files a source under its codebase, unless one is there. -/
def Source.file
    (buildset : BuildsetId)
    (byCodebase : SortedMap String Source)
    (source : Source) : Except AssemblyError (SortedMap String Source) :=
  if byCodebase.contains source.codebase then
    .error (.duplicateCodebase buildset source.codebase)
  else .ok (byCodebase.insert source.codebase source)

/-- Sources with their codebases. -/
def Source.byCodebase (sources : List Source) : List (String × Source) :=
  sources.map fun source => (source.codebase, source)

section

variable {buildset : BuildsetId} {sources before later : List Source} {source : Source}

theorem Source.contains_ofList_byCodebase {codebase : String} :
    (SortedMap.ofList (byCodebase sources)).contains codebase = true ↔
      codebase ∈ sources.map fun source => source.codebase := by
  rw [SortedMap.contains_ofList, byCodebase, List.map_map]
  rfl

theorem sourcesByCodebase_eq_foldlM (buildset : BuildsetId) (sources : List Source) :
    sourcesByCodebase buildset sources = sources.foldlM (Source.file buildset) ∅ := rfl

theorem sourcesByCodebase_append (buildset : BuildsetId) (first rest : List Source) :
    sourcesByCodebase buildset (first ++ rest) =
      (sourcesByCodebase buildset first).bind (rest.foldlM (Source.file buildset)) := by
  rw [sourcesByCodebase_eq_foldlM, sourcesByCodebase_eq_foldlM, List.foldlM_append]
  rfl

/-- Sources of different codebases are all filed. -/
theorem sourcesByCodebase_of_nodup
    (distinct : (sources.map fun source => source.codebase).Nodup) :
    sourcesByCodebase buildset sources = .ok (.ofList (Source.byCodebase sources)) := by
  induction sources using List.reverseRecOn with
  | nil => rfl
  | append_singleton before source inductionHypothesis =>
      rw [List.map_append, List.map_singleton, ← List.concat_eq_append, List.nodup_concat,
        ← Source.contains_ofList_byCodebase] at distinct
      obtain ⟨fresh, earlier⟩ := distinct
      have filed : SortedMap.ofList (Source.byCodebase (before ++ [source])) =
          (SortedMap.ofList (Source.byCodebase before)).insert source.codebase source := by
        rw [SortedMap.ofList, Source.byCodebase, List.map_append, SortedMap.insertAll_append]
        rfl
      rw [sourcesByCodebase_append, inductionHypothesis earlier, filed]
      simp [Except.bind, Source.file, fresh]

/-- The first source whose codebase occurred before is refused. -/
theorem sourcesByCodebase_of_repeated
    (distinct : (before.map fun source => source.codebase).Nodup)
    (repeated : source.codebase ∈ before.map fun source => source.codebase) :
    sourcesByCodebase buildset (before ++ source :: later) =
      .error (.duplicateCodebase buildset source.codebase) := by
  rw [← Source.contains_ofList_byCodebase] at repeated
  rw [sourcesByCodebase_append, sourcesByCodebase_of_nodup distinct]
  simp [Except.bind, List.foldlM_cons, Source.file, repeated]
  rfl

/-- In a list in which a key occurs twice there is a first item whose key occurred before. -/
theorem exists_first_repeated
    {α κ : Type}
    {key : α → κ}
    {items : List α}
    (repeated : ¬ (items.map key).Nodup) :
    ∃ before item later, items = before ++ item :: later ∧
      (before.map key).Nodup ∧ key item ∈ before.map key := by
  induction items using List.reverseRecOn with
  | nil => simp at repeated
  | append_singleton first last inductionHypothesis =>
      by_cases distinct : (first.map key).Nodup
      · refine ⟨first, last, [], rfl, distinct, ?_⟩
        by_contra fresh
        apply repeated
        rw [List.map_append, List.map_singleton, ← List.concat_eq_append, List.nodup_concat]
        exact ⟨fresh, distinct⟩
      · obtain ⟨before, item, later, rfl, earlier, known⟩ := inductionHypothesis distinct
        exact ⟨before, item, later ++ [last], by simp, earlier, known⟩

end

/-! ## What a view consists of -/

/-- The view that shows a request together with its buildset, properties and sources. -/
def View.showing
    (request : Request)
    (buildset : Buildset)
    (properties : Properties)
    (sources : SortedMap String Source) : View where
  id := request.id
  buildsetId := request.buildsetId
  builderId := request.builderId
  builderName := request.builderName
  priority := request.priority
  submittedAt := request.submittedAt
  reason := buildset.reason
  properties
  sources
  waitedFor := request.waitedFor

namespace Store

/-- The source that a source stamp makes with its changes. -/
def source (store : Store) (stamp : SourceStamp) : Source := ⟨stamp, store.changesOf stamp.id⟩

/-- What assembling the view of a request comes to, where each source stamp has some changes. -/
inductive Assembly (store : Store) (changes : SourceStampId → List Change) (id : RequestId) :
    Except Failure View → Prop where
  /-- The request is not there. -/
  | missingRequest (missing : store.requests.get? id = none) :
      Assembly store changes id (.error (.assembly (.missingRequest id)))
  /-- Its buildset is not there. -/
  | missingBuildset {request}
      (found : store.requests.get? id = some request)
      (missing : store.buildsets.get? request.buildsetId = none) :
      Assembly store changes id (.error (.assembly (.missingBuildset id request.buildsetId)))
  /-- The buildset lists no source stamp. -/
  | noSourceStamps {request buildset}
      (found : store.requests.get? id = some request)
      (belongs : store.buildsets.get? request.buildsetId = some buildset)
      (lists : store.Lists request.buildsetId []) :
      Assembly store changes id (.error (.assembly (.noSourceStamps request.buildsetId)))
  /-- The buildset lists source stamps that share a codebase, and this is the first of them whose
  codebase occurred before. -/
  | duplicateCodebase {request buildset before stamp later}
      (found : store.requests.get? id = some request)
      (belongs : store.buildsets.get? request.buildsetId = some buildset)
      (lists : store.Lists request.buildsetId (before ++ stamp :: later))
      (distinct : (before.map (·.codebase)).Nodup)
      (repeated : stamp.codebase ∈ before.map (·.codebase)) :
      Assembly store changes id
        (.error (.assembly (.duplicateCodebase request.buildsetId stamp.codebase)))
  /-- The view shows the request, the reason and the properties of its buildset, and just one source
  for each source stamp that the buildset lists, under its codebase and with its changes. -/
  | assembled {request buildset properties stamps sources}
      (found : store.requests.get? id = some request)
      (belongs : store.buildsets.get? request.buildsetId = some buildset)
      (lists : store.Lists request.buildsetId stamps)
      (nonempty : stamps ≠ [])
      (distinct : (stamps.map (·.codebase)).Nodup)
      (known : store.properties.get? request.buildsetId = some properties)
      (one : sources.entries.Perm
        (stamps.map fun stamp => (stamp.codebase, ⟨stamp, changes stamp.id⟩))) :
      Assembly store changes id (.ok (.showing request buildset properties sources))

/-! ## Consulting a store -/

variable {store : Store} {id : RequestId} {request : Request} {buildset : Buildset}
  {stamps before later : List SourceStamp} {stamp : SourceStamp}

theorem consult_fetchSource (store : Store) (stamp : SourceStamp) :
    Script.consult (store.reply ⟨0⟩) (View.fetchSource stamp).run = .ok (store.source stamp) := rfl

theorem consult_mapM_fetchSource (store : Store) (stamps : List SourceStamp) :
    Script.consult (store.reply ⟨0⟩) (stamps.mapM View.fetchSource).run =
      .ok (stamps.map store.source) := by
  induction stamps with
  | nil => rfl
  | cons stamp rest inductionHypothesis =>
      rw [List.mapM_cons, Script.consult_run_bind_of_ok (store.consult_fetchSource stamp),
        Script.consult_run_bind_of_ok inductionHypothesis]
      rfl

theorem consult_getBuildset (store : Store) (id : BuildsetId) :
    Script.consult (store.reply ⟨0⟩) (Call.getBuildset id).make.run =
      .ok (store.buildsets.get? id) := rfl

theorem consult_getProperties (store : Store) (id : BuildsetId) :
    Script.consult (store.reply ⟨0⟩) (Call.getProperties id).make.run =
      .ok (store.propertiesOf id) := rfl

theorem Lists.consult_getSourceStamps
    {id : BuildsetId}
    (lists : store.Lists id stamps) :
    Script.consult (store.reply ⟨0⟩) (Call.getSourceStamps id).make.run = .ok stamps := by
  change (store.stampsOf id).mapError Failure.store = .ok stamps
  rw [lists.stampsOf]
  rfl

theorem view_of_missingBuildset
    (found : store.requests.get? id = some request)
    (missing : store.buildsets.get? request.buildsetId = none) :
    store.view id = .error (.assembly (.missingBuildset request.id request.buildsetId)) := by
  have asked := store.consult_getBuildset request.buildsetId
  rw [missing] at asked
  rw [view_of_get?_eq_some found, View.ofRequest, Script.consult_run_bind_of_ok asked]
  rfl

/-- The view of a request whose buildset is there, as far as its sources can be filed. -/
theorem view_of_lists
    (found : store.requests.get? id = some request)
    (belongs : store.buildsets.get? request.buildsetId = some buildset)
    (lists : store.Lists request.buildsetId stamps) :
    store.view id =
      if stamps.isEmpty then .error (.assembly (.noSourceStamps request.buildsetId))
      else
        match sourcesByCodebase request.buildsetId (stamps.map store.source) with
        | .error error => .error (.assembly error)
        | .ok sources =>
          .ok (.showing request buildset (store.propertiesOf request.buildsetId) sources) := by
  have asked := store.consult_getBuildset request.buildsetId
  rw [belongs] at asked
  rw [view_of_get?_eq_some found, View.ofRequest, Script.consult_run_bind_of_ok asked,
    Script.consult_run_bind_of_ok (store.consult_getProperties request.buildsetId),
    Script.consult_run_bind_of_ok lists.consult_getSourceStamps]
  cases stamps with
  | nil => rfl
  | cons stamp rest =>
      change Script.consult _ (List.mapM View.fetchSource (stamp :: rest) >>= _).run = _
      rw [Script.consult_run_bind_of_ok (store.consult_mapM_fetchSource (stamp :: rest))]
      cases sourcesByCodebase request.buildsetId ((stamp :: rest).map store.source) <;> rfl

/-! ## Assembling is exact -/

theorem map_codebase_source (store : Store) (stamps : List SourceStamp) :
    ((stamps.map store.source).map fun source => source.codebase) =
      stamps.map fun stamp => stamp.codebase := by
  rw [List.map_map]
  rfl

theorem byCodebase_source (store : Store) (stamps : List SourceStamp) :
    Source.byCodebase (stamps.map store.source) =
      stamps.map fun stamp => (stamp.codebase, store.source stamp) := by
  rw [Source.byCodebase, List.map_map]
  rfl

/-- What assembling a request comes to is its view. -/
theorem Assembly.view_eq
    {result : Except Failure View}
    (assembly : store.Assembly store.changesOf id result)
    (keyed : store.Keyed) :
    store.view id = result := by
  cases assembly with
  | missingRequest missing => exact view_of_get?_eq_none missing
  | missingBuildset found missing => rw [view_of_missingBuildset found missing, keyed.own found]
  | noSourceStamps found belongs lists =>
      rw [view_of_lists found belongs lists]
      rfl
  | duplicateCodebase found belongs lists distinct repeated =>
      next request buildset before stamp later =>
      have refused : sourcesByCodebase request.buildsetId
          ((before ++ stamp :: later).map store.source) =
          .error (.duplicateCodebase request.buildsetId stamp.codebase) := by
        rw [List.map_append, List.map_cons]
        apply sourcesByCodebase_of_repeated
        · rwa [map_codebase_source]
        · rwa [map_codebase_source]
      rw [view_of_lists found belongs lists, refused, if_neg (by simp)]
  | assembled found belongs lists nonempty distinct known one =>
      next request buildset properties stamps sources =>
      have filed :
          sourcesByCodebase request.buildsetId (stamps.map store.source) = .ok sources := by
        rw [sourcesByCodebase_of_nodup (by rwa [map_codebase_source])]
        congr 1
        apply SortedMap.eq_of_perm
        rw [byCodebase_source]
        refine (SortedMap.perm_entries_ofList ?_).trans one.symm
        rw [List.map_map]
        exact distinct
      rw [view_of_lists found belongs lists, filed, if_neg (by simpa using nonempty), propertiesOf,
        known, Option.getD_some]

/-- Assembling a request of a store whose references lead somewhere comes to something. -/
theorem Linked.exists_assembly
    (linked : store.Linked)
    (id : RequestId) :
    ∃ result, store.Assembly store.changesOf id result := by
  cases found : store.requests.get? id with
  | none => exact ⟨_, .missingRequest found⟩
  | some request =>
      cases belongs : store.buildsets.get? request.buildsetId with
      | none => exact ⟨_, .missingBuildset found belongs⟩
      | some buildset =>
          obtain ⟨properties, stamps, known, lists⟩ := linked.exists_lists belongs
          by_cases distinct : (stamps.map fun stamp => stamp.codebase).Nodup
          · cases stamps with
            | nil => exact ⟨_, .noSourceStamps found belongs lists⟩
            | cons stamp rest =>
                refine ⟨_, .assembled found belongs lists (by simp) distinct known
                  (SortedMap.perm_entries_ofList ?_)⟩
                rw [List.map_map]
                exact distinct
          · obtain ⟨before, stamp, later, rfl, earlier, repeated⟩ := exists_first_repeated distinct
            exact ⟨_, .duplicateCodebase found belongs lists earlier repeated⟩

/-- In every store assembling a request comes to its view and nothing else. -/
theorem view_eq_iff_assembly
    (firstRequest : RequestId)
    (updates : List Update)
    (id : RequestId)
    (result : Except Failure View) :
    (evolved firstRequest updates).view id = result ↔
      (evolved firstRequest updates).Assembly (evolved firstRequest updates).changesOf id
        result := by
  have keyed := keyed_evolved firstRequest updates
  constructor
  · rintro rfl
    obtain ⟨result, assembly⟩ := (linked_evolved firstRequest updates).exists_assembly id
    rw [assembly.view_eq keyed]
    exact assembly
  · intro assembly
    exact assembly.view_eq keyed

end Store

namespace World

/-- Assembling a view is exact. Whatever was done to a store, and whatever rows were put into it,
loading a request comes to what `Assembly` says and to nothing else, with the changes of each source
stamp in the order in which they were added to it. -/
theorem load_assembled
    (surroundings : World)
    (firstRequest : RequestId)
    (updates : List Update)
    (id : RequestId)
    (result : Except Failure View) :
    let store := Store.evolved firstRequest updates
    let world := { surroundings with store, guard := .clear }
    (world.load id).1 = result ↔
      store.Assembly (fun stampId =>
        ((Store.startingAt firstRequest).additions updates).flatMap (·.changesTo stampId))
        id result := by
  intro store world
  have changes : store.changesOf = fun stampId =>
      ((Store.startingAt firstRequest).additions updates).flatMap (·.changesTo stampId) := by
    funext stampId
    exact Store.changesOf_evolve (Store.startingAt firstRequest) updates stampId
  have loaded : (world.load id).1 = store.view id := (@load_eq world rfl id).1
  rw [loaded, Store.view_eq_iff_assembly, ← changes]

/-- If two codebases occur twice, the one that does so first is named. -/
example :
    let stamps := [Sample.sourceStamp ⟨1⟩ Sample.mainCodebase none,
      Sample.sourceStamp ⟨2⟩ Sample.libCodebase none,
      Sample.sourceStamp ⟨3⟩ Sample.libCodebase none,
      Sample.sourceStamp ⟨4⟩ Sample.mainCodebase none]
    let store := Sample.ready.add (.buildset (Sample.stamped stamps) Sample.submittedAt)
    ((Sample.world store).load ⟨1⟩).1 =
      .error (.assembly (.duplicateCodebase ⟨1⟩ Sample.libCodebase)) := by
  rfl

end World
end BuildQueue
