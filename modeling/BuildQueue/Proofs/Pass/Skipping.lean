import BuildQueue.Proofs.Pass.Competing
import BuildQueue.Proofs.Pass.Course
import BuildQueue.Proofs.Store.Lifecycle

/-!
# Skipping alone

The second part of a pass that is alone. It claims and completes its candidates one after the other,
and since nobody else acts it loses no claim, so it comes through to the end unless a call fails. If
one does then the candidates before are skipped, those after are untouched, and the claim of the
candidate at which the pass failed is released, unless the release fails as well.
-/

namespace BuildQueue

namespace Store

/-- The store with some requests claimed and completed as skipped, each as of a time of its own. -/
def skipAll (store : Store) (ids : List RequestId) (times : RequestId → Timestamp) : Store :=
  { store with
    requests := store.requests.mapValues fun id request =>
      if ids.contains id then (request.claim (times id)).finish .skipped (times id)
      else request }

variable {before after store : Store} {ids : List RequestId} {times : RequestId → Timestamp}
  {id : RequestId} {time : Timestamp}

theorem get?_skipAll (id : RequestId) :
    (store.skipAll ids times).requests.get? id =
      (store.requests.get? id).map fun request =>
        if ids.contains id then (request.claim (times id)).finish .skipped (times id)
        else request := by
  simp [skipAll]

/-- What is not skipped is left as it is. -/
theorem get?_skipAll_of_notMem
    (unlisted : id ∉ ids) :
    (store.skipAll ids times).requests.get? id = store.requests.get? id := by
  rw [get?_skipAll]
  simp [unlisted]

@[simp] theorem skipAll_nil (store : Store) (times : RequestId → Timestamp) :
    store.skipAll [] times = store := by
  refine @eq_of_get? store _ store.requests fun other => ?_
  rw [SortedMap.get?_mapValues]
  simp

/-- Skipping one more request. -/
theorem skipAll_concat
    (unlisted : id ∉ ids) :
    ((store.skipAll ids times).updateRequests [id] (·.claim time)).updateRequests [id]
        (·.finish .skipped time) =
      store.skipAll (ids ++ [id]) (Function.update times id time) := by
  refine eq_of_get? store fun other => ?_
  rw [SortedMap.get?_mapValues, SortedMap.get?_mapValues, get?_updateRequests, get?_skipAll,
    Option.map_map, Option.map_map]
  refine congrArg (Option.map · _) (funext fun request => ?_)
  by_cases same : other = id
  · subst same
    simp [unlisted]
  · simp [same]

/-- The claim of a pending request is won, or it meets a fault. -/
theorem Answers.claim_of_claimable
    {faulty : Prop}
    {reply : Except Failure Bool}
    (answered : before.Answers faulty (.claim [id] (some time)) reply after)
    (pending : before.claimable id = true) :
    (reply = .ok true ∧ after = before.updateRequests [id] (·.claim time)) ∨
      faulty ∧ after = before ∧ ∃ failure, reply = .error failure := by
  rcases answered with given | ⟨fault, failed, unchanged⟩
  · rcases Answers.claim_cases (.inl given) with ⟨won, -, claimed⟩ | ⟨-, lost, -⟩
    · exact .inl ⟨won, claimed⟩
    · rw [pending] at lost
      cases lost
  · exact .inr ⟨fault, unchanged, failed⟩

/-- The completion of a request that is held is accepted, or it meets a fault. -/
theorem Answers.complete_cases
    {faulty : Prop}
    {outcome : Outcome}
    {reply : Except Failure Unit}
    (answered : before.Answers faulty (.complete [id] outcome (some time)) reply after)
    (held : ∃ request, before.requests.get? id = some request ∧ request.claimed = true ∧
      request.complete = false) :
    (reply = .ok () ∧ after = before.updateRequests [id] (·.finish outcome time)) ∨
      faulty ∧ after = before ∧ ∃ failure, reply = .error failure := by
  rcases answered with given | ⟨fault, failed, unchanged⟩
  · exact .inl (Answers.complete_of_held (.inl given) held)
  · exact .inr ⟨fault, unchanged, failed⟩

/-- A release is accepted, or it meets a fault. -/
theorem Answers.unclaim_cases
    {faulty : Prop}
    {reply : Except Failure Unit}
    (answered : before.Answers faulty (.unclaim [id]) reply after) :
    (reply = .ok () ∧ after = before.updateRequests [id] Request.release) ∨
      faulty ∧ after = before ∧ ∃ failure, reply = .error failure := by
  rcases answered with ⟨now, given, released⟩ | ⟨fault, failed, unchanged⟩
  · exact .inl ⟨given, released⟩
  · exact .inr ⟨fault, unchanged, failed⟩

end Store

/-- How a pass breaks off at a candidate: the failure with which it ends, the calls that it has made
for the candidate, and the store after these, by the store before. -/
inductive Breaks (failure : Failure) (id : RequestId) (before : Store) :
    List Exchange → Store → Prop where
  /-- The claim fails. -/
  | unclaimed (time : Timestamp) :
      Breaks failure id before [⟨.claim [id] (some time), .error failure⟩] before
  /-- The completion fails, and the claim is released. -/
  | released (time : Timestamp) :
      Breaks failure id before
        [⟨.claim [id] (some time), .ok true⟩,
          ⟨.complete [id] .skipped (some time), .error failure⟩, ⟨.unclaim [id], .ok ()⟩]
        before
  /-- The completion fails, and so does the release of the claim, with a failure of its own. -/
  | stuck (time : Timestamp) (releaseFailure : Failure) :
      Breaks failure id before
        [⟨.claim [id] (some time), .ok true⟩,
          ⟨.complete [id] .skipped (some time), .error failure⟩,
          ⟨.unclaim [id], .error releaseFailure⟩]
        (before.updateRequests [id] (·.claim time))

/-- How a pass alone is served: each call by the store or by a fault, and views at the cost of
nothing but reads. -/
def alone (faulty : Prop) : Contract Effect.Reply Episode where
  asks
    | .act (.direct _), _ => False
    | _, _ => True
  gives
    | .act action, before, reply, after =>
        action.Answers faulty before.store reply after.store ∧
          after.exchanges = before.exchanges ++ action.exchanges reply
    | .view _, before, _, after => before.Still after

/-- A course serves a pass alone. -/
theorem Course.gives_alone
    (course : Course)
    (effect : Effect)
    (episode : Episode) :
    (alone course.Faulty).gives effect episode (course.perform effect episode).1
      (course.perform effect episode).2 := by
  cases effect with
  | act action => exact ⟨answers_act action, exchanges_act action⟩
  | view id => exact still_view id

namespace Pass

open Script (Ensures)

variable {faulty : Prop} {base before : Store} {episode : Episode}

/-- What depends on the store and the calls alone is kept by quiet actions. -/
theorem quiet_alone
    {condition : Episode → Prop}
    (kept : ∀ {episode after : Episode}, after.store = episode.store →
      after.exchanges = episode.exchanges → condition episode → condition after) :
    Quiet (alone faulty) condition := by
  intro action quiet episode holds
  cases action with
  | call account asked => cases quiet
  | direct asked => cases quiet
  | time => exact ⟨trivial, fun _ _ given => kept given.1 (given.2.trans (List.append_nil _)) holds⟩
  | count counter =>
      exact ⟨trivial, fun _ _ given => kept given.1 (given.2.trans (List.append_nil _)) holds⟩
  | log level message =>
      exact ⟨trivial, fun _ _ given => kept given.1 (given.2.trans (List.append_nil _)) holds⟩

/-- What a pass ensures alone holds when it has run on a course. -/
theorem ensured_run
    {α : Type}
    {post : Except Failure α → Episode → Prop}
    {course : Course}
    {pass : Pass α}
    (ensured : Ensures (alone course.Faulty) post pass.run episode) :
    post (course.run pass episode).1 (course.run pass episode).2 := by
  obtain ⟨_, rfl, holds⟩ := ensured.run course.perform Eq
    (by rintro effect episode _ rfl -; exact ⟨_, course.gives_alone effect episode, rfl⟩)
    episode rfl
  exact holds

/-- A pass alone skips a candidate that is pending, unless a call fails. -/
theorem claimAndSkip_ensures_alone
    {id : RequestId}
    (pending : before.claimable id = true)
    (lawful : faulty → ∀ request, before.requests.get? id = some request → request.Lawful)
    (start : episode.store = before) :
    Ensures (alone faulty)
      (OnResult
        (fun verdict after => verdict = true ∧ ∃ time, after.store =
          (before.updateRequests [id] (·.claim time)).updateRequests [id]
            (·.finish .skipped time))
        fun failure after => faulty ∧ ∃ earlier last, after.exchanges = earlier ++ last ∧
          Breaks failure id before last after.store)
      (claimAndSkip id).run episode := by
  have atStart : Quiet (alone faulty) fun after => after.store = before :=
    quiet_alone fun store _ holds => store.trans holds
  have never : Quiet (alone faulty) fun _ => False := quiet_alone fun _ _ holds => holds
  have skipped : Quiet (alone faulty) fun after => ∃ time, after.store =
      (before.updateRequests [id] (·.claim time)).updateRequests [id] (·.finish .skipped time) :=
    quiet_alone fun store _ ⟨time, holds⟩ => ⟨time, store.trans holds⟩
  have broken : ∀ failure, Quiet (alone faulty) fun after => faulty ∧ ∃ earlier last,
      after.exchanges = earlier ++ last ∧ Breaks failure id before last after.store := by
    refine fun failure => quiet_alone fun {earlier after} store exchanges holds => ?_
    rw [store, exchanges]
    exact holds
  refine (ensures_claimAndSkip
    (fun time after => after.store = before.updateRequests [id] (·.claim time) ∧
      ∃ earlier, after.exchanges = earlier ++ [⟨.claim [id] (some time), .ok true⟩])
    (fun failure after => faulty ∧ ∃ time, after.store = before.updateRequests [id] (·.claim time) ∧
      ∃ earlier, after.exchanges = earlier ++ [⟨.claim [id] (some time), .ok true⟩,
        ⟨.complete [id] .skipped (some time), .error failure⟩])
    atStart never skipped broken ?claims ?completes ?releases (fun _ _ holds => holds)
    start).mono fun result after ensured => ?_
  case claims =>
    rintro time state holds
    refine ⟨trivial, fun reply after ⟨answered, exchanges⟩ => ?_⟩
    rw [holds] at answered
    rcases Store.Answers.claim_of_claimable answered pending with
      ⟨rfl, claimed⟩ | ⟨fault, unchanged, failure, rfl⟩
    · exact ⟨claimed, state.exchanges, exchanges⟩
    · exact ⟨fault, state.exchanges, _, exchanges, unchanged ▸ .unclaimed time⟩
  case completes =>
    rintro time state ⟨holds, earlier, claimed⟩
    refine ⟨trivial, fun reply after ⟨answered, exchanges⟩ => ?_⟩
    obtain ⟨request, found, waits⟩ := Store.claimable_iff.1 pending
    have held : ∃ request, state.store.requests.get? id = some request ∧
        request.claimed = true ∧ request.complete = false := by
      refine ⟨request.claim time, ?_, rfl, (Request.isPending_iff.1 waits).2⟩
      rw [holds, Store.get?_updateRequests_eq_some found, if_pos List.mem_cons_self]
    rcases Store.Answers.complete_cases answered held with
      ⟨rfl, completed⟩ | ⟨fault, unchanged, failure, rfl⟩
    · exact ⟨time, holds ▸ completed⟩
    · refine ⟨fault, time, unchanged.trans holds, earlier, ?_⟩
      rw [exchanges, claimed, List.append_assoc]
      rfl
  case releases =>
    rintro failure state ⟨fault, time, holds, earlier, completed⟩
    refine ⟨trivial, fun reply after ⟨answered, exchanges⟩ => ?_⟩
    rw [completed, List.append_assoc] at exchanges
    rcases Store.Answers.unclaim_cases answered with
      ⟨rfl, released⟩ | ⟨-, unchanged, releaseFailure, rfl⟩
    · rw [holds, Store.release_claims (List.forall_mem_singleton.2 pending)
        (List.forall_mem_singleton.2 (lawful fault))] at released
      exact ⟨fault, earlier, _, exchanges, released ▸ .released time⟩
    · rw [holds] at unchanged
      exact ⟨fault, earlier, _, exchanges, unchanged ▸ .stuck time releaseFailure⟩
  cases result with
  | error failure => exact ensured
  | ok verdict =>
      cases verdict with
      | false => exact ensured.elim
      | true => exact ⟨rfl, ensured⟩

/-- In an ascending list, what is less than an item stands before it. -/
theorem filter_lt_of_pairwise
    {done rest : List RequestId}
    {id : RequestId}
    (ascending : (done ++ id :: rest).Pairwise (· < ·)) :
    (done ++ id :: rest).filter (· < id) = done := by
  obtain ⟨-, later, earlier⟩ := List.pairwise_append.1 ascending
  have kept : done.filter (· < id) = done :=
    List.filter_eq_self.2 fun other listed => by simpa using earlier other listed id (by simp)
  have dropped : (id :: rest).filter (· < id) = [] := by
    refine List.filter_eq_nil_iff.2 fun other listed => ?_
    rcases List.mem_cons.1 listed with rfl | after
    · simp
    · simpa using le_of_lt ((List.pairwise_cons.1 later).1 other after)
  rw [List.filter_append, kept, dropped, List.append_nil]

/-- A pass alone skips all candidates in order, or it breaks off at one of them, a call having
failed. -/
theorem select_ensures_alone
    (lawful : faulty → base.Lawful)
    {candidates : List RequestId}
    (ascending : candidates.Pairwise (· < ·))
    (pending : ∀ id ∈ candidates, base.claimable id = true)
    (start : episode.store = base) :
    Ensures (alone faulty)
      (OnResult
        (fun ids after => ids = candidates ∧ ∃ times, after.store = base.skipAll candidates times)
        fun failure after => faulty ∧ ∃ id ∈ candidates, ∃ times earlier last,
          after.exchanges = earlier ++ last ∧
          Breaks failure id (base.skipAll (candidates.filter (· < id)) times) last after.store)
      (select claimAndSkip candidates).run episode := by
  -- Those that were handled are skipped, and the others are as they were.
  refine (ensures_select
    (fun chosen rest state => candidates = chosen ++ rest ∧
      ∃ times, state.store = base.skipAll chosen times)
    (fun failure after => faulty ∧ ∃ id ∈ candidates, ∃ times earlier last,
      after.exchanges = earlier ++ last ∧
      Breaks failure id (base.skipAll (candidates.filter (· < id)) times) last after.store) ?_
    ⟨rfl, fun _ => ⟨0⟩, start.trans (base.skipAll_nil _).symm⟩).mono fun result after ensured => ?_
  · rintro chosen id rest state ⟨split, times, holds⟩
    have listed : id ∈ candidates := by
      rw [split]
      simp
    have unhandled : id ∉ chosen := by
      intro handled
      rw [split] at ascending
      exact lt_irrefl id ((List.pairwise_append.1 ascending).2.2 id handled id (by simp))
    have same : (base.skipAll chosen times).requests.get? id = base.requests.get? id :=
      Store.get?_skipAll_of_notMem unhandled
    have waits : (base.skipAll chosen times).claimable id = true := by
      rw [Store.claimable, same]
      exact pending id listed
    refine (claimAndSkip_ensures_alone waits
      (fun fault request found => (lawful fault).row (same ▸ found)) holds).mono
        fun result after ensured => ?_
    cases result with
    | error failure =>
        obtain ⟨fault, earlier, last, exchanges, breaks⟩ := ensured
        refine ⟨fault, id, listed, times, earlier, last, exchanges, ?_⟩
        rw [split] at ascending ⊢
        rw [filter_lt_of_pairwise ascending]
        exact breaks
    | ok verdict =>
        obtain ⟨rfl, time, skipped⟩ := ensured
        refine ⟨?_, Function.update times id time, ?_⟩
        · rw [if_pos rfl, split, List.append_cons]
        · rw [if_pos rfl, skipped, Store.skipAll_concat unhandled]
  · cases result with
    | error failure => exact ensured
    | ok ids =>
        obtain ⟨split, holds⟩ := ensured
        rw [List.append_nil] at split
        exact ⟨split.symm, split ▸ holds⟩

end Pass
end BuildQueue
