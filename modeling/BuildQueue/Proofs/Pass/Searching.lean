import BuildQueue.Proofs.Pass.Skipping

/-!
# Finding alone

The first part of a pass that is alone. Whichever of its calls fail and whatever its view cache
holds, it leaves the store as it is and finds only requests that are pending. If the cache holds
nothing but views of the requests in the store then it finds exactly those pending requests that its
new requests retire.
-/

namespace BuildQueue

/-- A pass alone may rely on it that nothing changes. -/
theorem rely_eq (base : Store) : Rely base Eq where
  refl _ := rfl
  trans first second := first.trans second
  alike same alike := same ▸ alike

namespace Pass

open Script (Ensures)

variable {faulty : Prop} {policy : Policy Strategy} {episode : Episode}

/-- A pass alone is answered a read by the store or by a fault, and nothing changes. -/
theorem ensures_read_alone
    {asked : Call}
    (reads : asked.method.isWrite = false)
    {post : Except Failure asked.Value → Episode → Prop}
    (answered : ∀ now after, episode.Still after → post (episode.store.reply now asked) after)
    (fails : ∀ failure after, episode.Still after → post (.error failure) after) :
    Ensures (alone faulty) post (call asked).run episode := by
  refine ensures_call trivial fun reply after ⟨given, exchanges⟩ => ?_
  have still : after.store = episode.store → episode.Still after := by
    refine fun store => ⟨store, _, exchanges, fun exchange listed => ?_⟩
    rw [List.mem_singleton.1 listed]
    exact reads
  rcases given with ⟨now, rfl, after⟩ | ⟨-, ⟨failure, rfl⟩, after⟩
  · exact answered now _ (still (after.trans (Store.perform_of_read _ now reads)))
  · exact fails failure _ (still after)

theorem ensures_log_alone
    {level : Level}
    {message : String}
    {post : Except Failure Unit → Episode → Prop}
    (logged : ∀ after, episode.Still after → post (.ok ()) after) :
    Ensures (alone faulty) post (log level message).run episode :=
  ensures_act trivial fun _ after ⟨store, exchanges⟩ =>
    logged after ⟨store, [], exchanges, fun _ listed => absurd listed List.not_mem_nil⟩

/-- The standard strategy takes nothing but reads. -/
theorem standard_ensures_alone
    (builder : Builder)
    (new old : Request) :
    Ensures (alone faulty) (fun _ after => episode.Still after)
      (Strategy.standard builder new old).run episode := by
  unfold Strategy.standard
  split
  · exact .refl episode
  split
  · exact .refl episode
  refine Ensures.run_bind (ensures_view trivial fun newResult first still => ?_)
  cases newResult with
  | error failure => exact still
  | ok newView =>
  refine Ensures.run_bind (ensures_view trivial fun oldResult second further => ?_)
  cases oldResult with
  | error failure => exact still.trans further
  | ok oldView =>
  refine Ensures.run_bind (ensures_log_alone fun last logged => ?_)
  exact still.trans (further.trans logged)

/-- Finding takes nothing but reads, and it finds only requests that are pending, whatever the cache
holds and whichever calls fail. -/
theorem findRedundant_ensures_alone
    (keyed : episode.store.Keyed)
    (standard : policy.IsStandard)
    (newId : RequestId) :
    Ensures (alone faulty)
      (OnResult
        (fun found after => episode.Still after ∧
          ∀ id ∈ found, episode.store.claimable id = true)
        fun _ after => episode.Still after)
      (findRedundant policy newId).run episode := by
  have nothing : ∀ id ∈ ([] : List RequestId), episode.store.claimable id = true :=
    fun _ listed => absurd listed List.not_mem_nil
  unfold findRedundant
  refine Ensures.run_bind (ensures_read_alone rfl (fun now first still => ?_)
    fun _ _ still => still)
  change OnResult _ _ (Except.ok (episode.store.requests.get? newId)) first
  cases episode.store.requests.get? newId with
  | none => exact still
  | some new =>
  refine Ensures.run_bind (ensures_read_alone rfl (fun now second further => ?_)
    fun _ _ further => still.trans further)
  replace still := still.trans further
  change OnResult _ _ (Except.ok (first.store.builders.get? new.builderId)) second
  cases first.store.builders.get? new.builderId with
  | none =>
      exact Ensures.run_bind (ensures_log_alone fun last logged =>
        ⟨still.trans logged, nothing⟩)
  | some builder =>
  rw [onResult_ok]
  dsimp only
  cases chosen : policy.forBuilder builder.name with
  | none => exact ⟨still, nothing⟩
  | some choice =>
  cases choice with
  | registered strategy => exact absurd chosen (standard builder.name strategy)
  | standard =>
  refine Ensures.run_bind (ensures_read_alone rfl (fun now third listing => ?_)
    fun _ _ listing => still.trans listing)
  have listed := still.store
  replace still := still.trans listing
  change OnResult _ _ (Except.ok (second.store.pendingOf builder.id)) third
  rw [onResult_ok, listed]
  refine Ensures.run_bind ((ensures_select
    (fun chosen rest state => episode.Still state ∧
      chosen ++ rest ⊆ episode.store.pendingOf builder.id)
    (fun _ state => episode.Still state) ?_
    ⟨still, fun _ member => (List.mem_filter.1 member).1⟩).mono fun result after ensured => ?_)
  · rintro chosen old rest state ⟨before, within⟩
    refine (standard_ensures_alone builder new old).mono fun result after later => ?_
    cases result with
    | error failure => exact before.trans later
    | ok verdict =>
        have kept : ((if verdict then chosen ++ [old] else chosen) ++ rest).Sublist
            (chosen ++ old :: rest) := by
          cases verdict <;> simp
        exact ⟨before.trans later, List.Subset.trans kept.subset within⟩
  · cases result with
    | error failure => exact ensured
    | ok selected =>
        obtain ⟨later, within⟩ := ensured
        rw [List.append_nil] at within
        refine ⟨later, fun id member => ?_⟩
        obtain ⟨request, selectedRequest, rfl⟩ := List.mem_map.1 member
        obtain ⟨found, -, pending⟩ := keyed.mem_pendingOf.1 (within selectedRequest)
        exact Store.claimable_iff.2 ⟨request, found, pending⟩

/-- The first part of a pass takes nothing but reads and finds only requests that are pending. -/
theorem find_ensures_alone
    (keyed : episode.store.Keyed)
    (standard : policy.IsStandard)
    (newIds : List RequestId) :
    Ensures (alone faulty)
      (OnResult
        (fun found after => episode.Still after ∧
          ∀ id ∈ found.flatten, episode.store.claimable id = true)
        fun _ after => episode.Still after)
      (newIds.mapM (findRedundant policy)).run episode := by
  refine Ensures.run_mapM
    (fun found _ state => episode.Still state ∧
      ∀ id ∈ found.flatten, episode.store.claimable id = true)
    (fun _ state => episode.Still state) ?_
    ⟨.refl episode, fun _ listed => absurd listed List.not_mem_nil⟩
  rintro found newId rest state ⟨still, pending⟩
  have sameStore := still.store
  refine (findRedundant_ensures_alone (sameStore ▸ keyed) standard newId).mono
    fun result after ensured => ?_
  cases result with
  | error failure => exact still.trans ensured
  | ok more =>
      refine ⟨still.trans ensured.1, fun id member => ?_⟩
      rw [List.flatten_append, List.mem_append, List.flatten_singleton] at member
      rcases member with before | last
      · exact pending id before
      · exact sameStore ▸ ensured.2 id last

/-- Where nothing changes a pass finds the pending requests that its new requests retire, and no
others. -/
theorem find_ensures_exactly
    {base : Store}
    (wellformed : base.Wellformed)
    (standard : policy.IsStandard)
    (newIds : List RequestId) :
    Ensures (reading base faulty Eq)
      (OnResult
        (fun found after => after = base ∧ ∀ old, old ∈ found.flatten ↔
          base.claimable old = true ∧ ∃ new ∈ newIds, base.Retires policy new old)
        fun _ _ => ∃ new ∈ newIds,
          Hindered base faulty policy (fun old => base.claimable old = true) new)
      (newIds.mapM (findRedundant policy)).run base := by
  refine (Ensures.run_mapM
    (fun found rest state => state = base ∧ ∃ handled, newIds = handled ++ rest ∧
      ∀ old, old ∈ found.flatten ↔
        base.claimable old = true ∧ ∃ new ∈ handled, base.Retires policy new old)
    (fun _ _ => ∃ new ∈ newIds,
      Hindered base faulty policy (fun old => base.claimable old = true) new) ?_
    ⟨rfl, [], rfl, by simp⟩).mono fun result after ensured => ?_
  · rintro found new rest _ ⟨rfl, handled, split, exactly⟩
    have listed : new ∈ newIds := by
      rw [split]
      simp
    refine (findRedundant_ensures wellformed (rely_eq _) rfl standard new).mono
      fun result after ensured => ?_
    cases result with
    | error failure =>
        refine ⟨new, listed, ensured.mono fun old ⟨during, same, pending⟩ => ?_⟩
        exact same ▸ pending
    | ok more =>
        obtain ⟨during, rfl, rfl, retired⟩ := ensured
        refine ⟨rfl, handled ++ [new], by rw [split, List.append_cons], fun old => ?_⟩
        rw [List.flatten_append, List.mem_append, List.flatten_singleton, exactly, retired]
        constructor
        · rintro (⟨pending, earlier, before, retires⟩ | ⟨retires, pending⟩)
          · exact ⟨pending, earlier, List.mem_append_left _ before, retires⟩
          · exact ⟨pending, new, List.mem_append_right _ List.mem_cons_self, retires⟩
        · rintro ⟨pending, other, member, retires⟩
          rcases List.mem_append.1 member with before | last
          · exact .inl ⟨pending, other, before, retires⟩
          · obtain rfl := List.mem_singleton.1 last
            exact .inr ⟨retires, pending⟩
  · cases result with
    | error failure => exact ensured
    | ok found =>
        obtain ⟨same, handled, split, exactly⟩ := ensured
        rw [List.append_nil] at split
        subst split
        exact ⟨same, exactly⟩

end Pass

namespace Course

open Script (Ensures)

variable {course : Course} {policy : Policy Strategy} {episode : Episode}

/-- What a reader does leaves the store as it is. -/
theorem store_act_of_read
    {base store : Store}
    {faulty : Prop}
    {rely : Store → Store → Prop}
    {action : Action}
    (asked : (reading base faulty rely).asks (.act action) store) :
    (course.perform (.act action) episode).2.store = episode.store := by
  have answered := @answers_act course episode action
  cases action with
  | call account call =>
      rcases answered with ⟨now, -, after⟩ | ⟨-, -, after⟩
      · exact after.trans (Store.perform_of_read _ now asked)
      · exact after
  | direct call => exact absurd asked id
  | time => exact answered
  | count counter => exact answered
  | log level message => exact answered

/-- On any course, a pass whose cache holds nothing but views of the requests in the store finds the
pending requests that its new requests retire, and no others. -/
theorem find_exactly
    (wellformed : episode.store.Wellformed)
    (holds : episode.views.HoldsViews episode.store)
    (standard : policy.IsStandard)
    (newIds : List RequestId) :
    (∃ failure, (course.run (newIds.mapM (Pass.findRedundant policy)) episode).1 =
        .error failure ∧
      ∃ new ∈ newIds, Hindered episode.store course.Faulty policy
        (fun old => episode.store.claimable old = true) new) ∨
    ∃ found, (course.run (newIds.mapM (Pass.findRedundant policy)) episode).1 = .ok found ∧
      ∀ old, old ∈ found.flatten ↔ episode.store.claimable old = true ∧
        ∃ new ∈ newIds, episode.store.Retires policy new old := by
  have ensured : Ensures (reading episode.store course.Faulty Eq) _
      (newIds.mapM (Pass.findRedundant policy)).run episode.store :=
    Pass.find_ensures_exactly wellformed standard newIds
  have served := ensured.run course.perform
    (fun later store => later.store = store ∧ store = episode.store ∧
      later.views.HoldsViews episode.store) ?honoured episode ⟨rfl, rfl, holds⟩
  case honoured =>
    rintro effect later _ ⟨rfl, same, holds⟩ asked
    cases effect with
    | view id =>
        obtain ⟨honest, holdsAfter⟩ :=
          @view_honest course later episode.store (congrArg Store.asSubmitted same) holds id
        exact ⟨later.store, ⟨later.store, rfl, honest, rfl⟩, (still_view id).store, same,
          holdsAfter⟩
    | act action =>
        have answered := @answers_act course later action
        have unchanged := @store_act_of_read course later _ _ _ _ _ asked
        rw [unchanged] at answered
        refine ⟨later.store, ⟨later.store, rfl, answered⟩, unchanged, same, ?_⟩
        rw [views_act]
        exact holds
  obtain ⟨store, -, found⟩ := served
  change OnResult _ _ (course.run (newIds.mapM (Pass.findRedundant policy)) episode).1 store
    at found
  cases result : (course.run (newIds.mapM (Pass.findRedundant policy)) episode).1 with
  | error failure =>
      rw [result] at found
      exact .inl ⟨failure, rfl, found⟩
  | ok ids =>
      rw [result] at found
      exact .inr ⟨ids, rfl, found.2⟩

end Course
end BuildQueue
