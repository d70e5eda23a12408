import BuildQueue.Proofs.Sample
import BuildQueue.Proofs.Store.Lifecycle

/-!
# Batches of requests

A call that changes requests is about a list of them. It is checked as a whole before anything is
changed, so it changes all rows that it is meant for or none, and the order of the list and
repetitions in it do not matter. Only the refusal of a completion depends on the order: it names the
first request of the list that is not held by anybody.
-/

namespace BuildQueue

namespace Request

variable {request : Request}

theorem release_of_held
    (claimed : request.claimed = true)
    (incomplete : request.complete = false) :
    request.release = { request with claimed := false, claimedAt := none } := by
  simp [release, claimed, incomplete]

theorem release_of_not_held
    (free : ¬ (request.claimed = true ∧ request.complete = false)) :
    request.release = request := by
  rw [release, if_neg]
  rw [Bool.and_eq_true, Bool.not_eq_true']
  exact free

end Request

namespace Store

/-- The request is there and waits to be claimed. -/
def Waits (store : Store) (id : RequestId) : Prop :=
  ∃ request, store.requests.get? id = some request ∧
    request.claimed = false ∧ request.complete = false

/-- The request is there, claimed, and not complete. -/
def Held (store : Store) (id : RequestId) : Prop :=
  ∃ request, store.requests.get? id = some request ∧
    request.claimed = true ∧ request.complete = false

/-- Why a request cannot be completed. -/
inductive Refuses (store : Store) (id : RequestId) : StoreError → Prop where
  | unknown (missing : store.requests.get? id = none) : Refuses store id (.unknownRequest id)
  | complete {request : Request} (found : store.requests.get? id = some request)
      (done : request.complete = true) : Refuses store id (.alreadyComplete id)
  | unclaimed {request : Request} (found : store.requests.get? id = some request)
      (incomplete : request.complete = false) (free : request.claimed = false) :
      Refuses store id (.notClaimed id)

/-- Why the first request of a list that cannot be completed cannot be. -/
def RefusesFirst (store : Store) (ids : List RequestId) (error : StoreError) : Prop :=
  ∃ earlier id later, ids = earlier ++ id :: later ∧
    (∀ other ∈ earlier, store.Held other) ∧ store.Refuses id error

/-- Just some rows of a store are changed, each in the same way, and nothing else is. -/
structure Rewrites
    (before after : Store)
    (rows : RequestId → Prop)
    (change : Request → Request) : Prop where
  tables : ∃ requests, after = { before with requests }
  changed : ∀ id, rows id → ∃ request, before.requests.get? id = some request ∧
    after.requests.get? id = some (change request) ∧ change request ≠ request
  others : ∀ id, ¬ rows id → after.requests.get? id = before.requests.get? id

variable {store : Store} {ids others : List RequestId} {id : RequestId} {error : StoreError}

/-! ## Checks -/

theorem claimable_iff_waits : store.claimable id = true ↔ store.Waits id := by
  simp only [claimable_iff, Request.isPending_iff, Waits]

theorem all_claimable_iff : ids.all store.claimable = true ↔ ∀ id ∈ ids, store.Waits id := by
  simp only [List.all_eq_true, claimable_iff_waits]

theorem Refuses.not_held (refuses : store.Refuses id error) : ¬ store.Held id := by
  rintro ⟨request, found, claimed, incomplete⟩
  cases refuses with
  | unknown missing =>
      rw [found] at missing
      cases missing
  | complete foundToo done =>
      obtain rfl := Option.some.inj (found.symm.trans foundToo)
      rw [incomplete] at done
      cases done
  | unclaimed foundToo _ free =>
      obtain rfl := Option.some.inj (found.symm.trans foundToo)
      rw [claimed] at free
      cases free

theorem RefusesFirst.not_held
    (first : store.RefusesFirst ids error) :
    ¬ ∀ id ∈ ids, store.Held id := by
  obtain ⟨earlier, id, later, rfl, -, refuses⟩ := first
  exact fun held => refuses.not_held (held id (by simp))

/-- A request that cannot be completed is refused for the first reason that applies. -/
theorem refuses_of_checkCompletable
    (refused : store.checkCompletable id = .error error) :
    store.Refuses id error := by
  unfold checkCompletable at refused
  cases found : store.requests.get? id with
  | none =>
      rw [found] at refused
      cases refused
      exact .unknown found
  | some request =>
      rw [found] at refused
      dsimp only at refused
      split at refused
      · next done =>
        cases refused
        exact .complete found done
      · next incomplete =>
        split at refused
        · cases refused
        · next free =>
          cases refused
          exact .unclaimed found (Bool.eq_false_iff.2 incomplete)
            (Bool.eq_false_iff.2 free)

/-- A list that cannot be completed is refused for its first request that cannot be. -/
theorem refusesFirst_of_forM
    (refused : ids.forM store.checkCompletable = .error error) :
    store.RefusesFirst ids error := by
  induction ids with
  | nil => cases refused
  | cons id rest inductionHypothesis =>
      change (store.checkCompletable id >>= fun _ => rest.forM _) = _ at refused
      cases checked : store.checkCompletable id with
      | error first =>
          rw [checked] at refused
          cases refused
          exact ⟨[], id, rest, rfl, by simp, refuses_of_checkCompletable checked⟩
      | ok _ =>
          rw [checked] at refused
          obtain ⟨earlier, other, later, rfl, held, refuses⟩ := inductionHypothesis refused
          refine ⟨id :: earlier, other, later, rfl, ?_, refuses⟩
          rw [List.forall_mem_cons]
          exact ⟨checkCompletable_eq_ok_iff.1 checked, held⟩

/-! ## Changes -/

/-- Which rows are changed depends only on what is listed. -/
theorem updateRequests_congr
    (same : ∀ id, id ∈ ids ↔ id ∈ others)
    (change : Request → Request) :
    store.updateRequests ids change = store.updateRequests others change := by
  simp only [updateRequests, same]

/-- A change of all rows of a list that does change each of them. -/
theorem rewrites_updateRequests
    {change : Request → Request}
    (changes : ∀ id ∈ ids, ∃ request, store.requests.get? id = some request ∧
      change request ≠ request) :
    store.Rewrites (store.updateRequests ids change) (· ∈ ids) change where
  tables := ⟨_, rfl⟩
  changed id listed := by
    obtain ⟨request, found, different⟩ := changes id listed
    refine ⟨request, found, ?_, different⟩
    rw [get?_updateRequests_eq_some found, if_pos listed]
  others id unlisted := by
    simp [unlisted]

/-- A release changes the rows that are held. -/
theorem rewrites_release (store : Store) (ids : List RequestId) :
    store.Rewrites (store.updateRequests ids Request.release) (fun id => id ∈ ids ∧ store.Held id)
      fun request => { request with claimed := false, claimedAt := none } where
  tables := ⟨_, rfl⟩
  changed := by
    rintro id ⟨listed, request, found, claimed, incomplete⟩
    refine ⟨request, found, ?_, fun same => ?_⟩
    · rw [get?_updateRequests_eq_some found, if_pos listed,
        Request.release_of_held claimed incomplete]
    · rw [← same] at claimed
      cases claimed
  others id free := by
    rw [get?_updateRequests]
    cases found : store.requests.get? id with
    | none => rfl
    | some request =>
        by_cases listed : id ∈ ids
        · have kept : request.release = request :=
            Request.release_of_not_held fun held => free ⟨listed, request, found, held⟩
          simp [kept]
        · simp [listed]

/-- A claim changes rows that wait. -/
theorem rewrites_claim
    (waits : ∀ id ∈ ids, store.Waits id)
    (time : Timestamp) :
    store.Rewrites (store.updateRequests ids (·.claim time)) (· ∈ ids) (·.claim time) := by
  refine rewrites_updateRequests fun id listed => ?_
  obtain ⟨request, found, free, -⟩ := waits id listed
  refine ⟨request, found, fun same => ?_⟩
  rw [← same] at free
  cases free

/-- A completion changes rows that are held. -/
theorem rewrites_finish
    (held : ∀ id ∈ ids, store.Held id)
    (outcome : Outcome)
    (time : Timestamp) :
    store.Rewrites (store.updateRequests ids (·.finish outcome time)) (· ∈ ids)
      (·.finish outcome time) := by
  refine rewrites_updateRequests fun id listed => ?_
  obtain ⟨request, found, -, incomplete⟩ := held id listed
  refine ⟨request, found, fun same => ?_⟩
  rw [← same] at incomplete
  cases incomplete

/-! ## Calls -/

section

variable (store ids) (now : Timestamp) (outcome : Outcome) (time : Option Timestamp)

/-- A claim is won if all of its list waits, and else changes nothing. -/
theorem claim_cases :
    (∀ id ∈ ids, store.Waits id) ∧ store.perform now (.claim ids time) =
        (.ok true, store.updateRequests ids (·.claim (time.getD now))) ∨
      (¬ ∀ id ∈ ids, store.Waits id) ∧
        store.perform now (.claim ids time) = (.ok false, store) := by
  rw [perform_claim, ← all_claimable_iff]
  by_cases pending : ids.all store.claimable = true
  · rw [if_pos pending]
    exact .inl ⟨pending, rfl⟩
  · rw [if_neg pending]
    exact .inr ⟨pending, rfl⟩

theorem claim_won_iff :
    (store.perform now (.claim ids time)).1 = .ok true ↔ ∀ id ∈ ids, store.Waits id := by
  rcases claim_cases store ids now time with ⟨waits, won⟩ | ⟨lacking, lost⟩
  · rw [won]
    exact iff_of_true rfl waits
  · rw [lost]
    exact iff_of_false (by simp) lacking

/-- A completion is accepted if all of its list is held, and else refused for the first request that
is not, and changes nothing. -/
theorem complete_cases :
    (∀ id ∈ ids, store.Held id) ∧ store.perform now (.complete ids outcome time) =
        (.ok (), store.updateRequests ids (·.finish outcome (time.getD now))) ∨
      ∃ error, store.RefusesFirst ids error ∧
        store.perform now (.complete ids outcome time) = (.error error, store) := by
  cases checked : ids.forM store.checkCompletable with
  | ok _ =>
      exact .inl ⟨forM_checkCompletable_eq_ok_iff.1 checked,
        perform_complete_of_ok now outcome time checked⟩
  | error error =>
      exact .inr ⟨error, refusesFirst_of_forM checked,
        perform_complete_of_error now outcome time checked⟩

variable {ids}

/-- A claim depends only on what is listed. -/
theorem perform_claim_congr
    (same : ∀ id, id ∈ ids ↔ id ∈ others) :
    store.perform now (.claim ids time) = store.perform now (.claim others time) := by
  have alike : ids.all store.claimable = others.all store.claimable := by
    rw [Bool.eq_iff_iff]
    simp only [List.all_eq_true, same]
  rw [perform_claim, perform_claim, alike, updateRequests_congr same]

/-- Whether a completion is accepted and what it does depends only on what is listed. -/
theorem perform_complete_congr
    (same : ∀ id, id ∈ ids ↔ id ∈ others) :
    (store.perform now (.complete ids outcome time)).1.toOption =
        (store.perform now (.complete others outcome time)).1.toOption ∧
      (store.perform now (.complete ids outcome time)).2 =
        (store.perform now (.complete others outcome time)).2 := by
  rcases complete_cases store ids now outcome time with ⟨held, accepted⟩ | ⟨_, first, refused⟩
  · rcases complete_cases store others now outcome time with
      ⟨-, acceptedToo⟩ | ⟨_, firstToo, -⟩
    · rw [accepted, acceptedToo, updateRequests_congr same]
      exact ⟨rfl, rfl⟩
    · exact absurd (fun id listed => held id ((same id).2 listed)) firstToo.not_held
  · rcases complete_cases store others now outcome time with
      ⟨heldToo, -⟩ | ⟨_, -, refusedToo⟩
    · exact absurd (fun id listed => heldToo id ((same id).1 listed)) first.not_held
    · rw [refused, refusedToo]
      exact ⟨rfl, rfl⟩

end

/-- Batches are atomic and set-like. In every store that submissions and calls reach, a claim is won
just if each request of its list is there, unclaimed and not complete. If it is lost it changes
nothing, and if it is won then it changes just the rows that it lists, and a release of the same
list restores the store. A completion is accepted just if each request of its list is claimed and
not complete; it changes just these rows then, and else it changes nothing and tells of the first
request that is not, and why. A release never fails, and it changes just the rows of its list that
are claimed and not complete. But for the reason of a refusal, all of this depends on the list as a
set only. -/
theorem batches_atomic
    (firstRequest : RequestId)
    (operations : List Operation)
    (now : Timestamp)
    (ids : List RequestId) :
    let store := reached firstRequest operations
    (∀ time,
      let claimed := store.perform now (.claim ids time)
      (claimed.1 = .ok true ↔ ∀ id ∈ ids, store.Waits id) ∧
        (claimed.1 = .ok true ∨ claimed = (.ok false, store)) ∧
        (claimed.1 = .ok true →
          store.Rewrites claimed.2 (· ∈ ids) (fun request =>
            { request with claimed := true, claimedAt := some (time.getD now) }) ∧
          ∀ later, claimed.2.perform later (.unclaim ids) = (.ok (), store))) ∧
    (∀ outcome time,
      let completed := store.perform now (.complete ids outcome time)
      (completed.1 = .ok () ↔ ∀ id ∈ ids, store.Held id) ∧
        (completed.1 = .ok () → store.Rewrites completed.2 (· ∈ ids) fun request =>
          { request with
            complete := true
            outcome := some outcome
            completeAt := some (time.getD now) }) ∧
        ∀ error, completed.1 = .error error →
          completed.2 = store ∧ store.RefusesFirst ids error) ∧
    (∃ after, store.perform now (.unclaim ids) = (.ok (), after) ∧
      store.Rewrites after (fun id => id ∈ ids ∧ store.Held id) fun request =>
        { request with claimed := false, claimedAt := none }) ∧
    ∀ others : List RequestId, (∀ id, id ∈ ids ↔ id ∈ others) →
      (∀ time, store.perform now (.claim ids time) = store.perform now (.claim others time)) ∧
      (∀ outcome time,
        (store.perform now (.complete ids outcome time)).1.toOption =
            (store.perform now (.complete others outcome time)).1.toOption ∧
          (store.perform now (.complete ids outcome time)).2 =
            (store.perform now (.complete others outcome time)).2) ∧
      store.perform now (.unclaim ids) = store.perform now (.unclaim others) := by
  intro store
  have lawful : store.Lawful := lawful_reached firstRequest operations
  refine ⟨fun time => ?claims, fun outcome time => ?completions,
    ⟨_, rfl, rewrites_release store ids⟩, fun others same => ?sets⟩
  case claims =>
    refine ⟨claim_won_iff store ids now time, ?_⟩
    rcases claim_cases store ids now time with ⟨waits, won⟩ | ⟨-, lost⟩
    · rw [won]
      refine ⟨.inl rfl, fun _ => ⟨rewrites_claim waits _, fun later => ?_⟩⟩
      have restored := release_claims (fun id listed => claimable_iff_waits.2 (waits id listed))
        (fun _ _ _ found => lawful.row found) (time.getD now)
      exact congrArg (Prod.mk _) restored
    · rw [lost]
      exact ⟨.inr rfl, fun won => (by cases won)⟩
  case completions =>
    dsimp only
    rcases complete_cases store ids now outcome time with ⟨held, accepted⟩ | ⟨error, first, refused⟩
    · rw [accepted]
      exact ⟨iff_of_true rfl held, fun _ => rewrites_finish held outcome _,
        fun _ refused => (by cases refused)⟩
    · rw [refused]
      refine ⟨iff_of_false (by simp) first.not_held, fun accepted => (by cases accepted), ?_⟩
      rintro _ ⟨⟩
      exact ⟨rfl, first⟩
  case sets =>
    exact ⟨fun time => perform_claim_congr store now time same,
      fun outcome time => perform_complete_congr store now outcome time same,
      congrArg (Prod.mk _) (updateRequests_congr same Request.release)⟩

/-- Both requests are claimed by a list that names one of them twice, and released again. -/
theorem batches_atomic_repeated :
    let claimed := Sample.resubmitted.perform Sample.submittedAt (.claim [⟨2⟩, ⟨1⟩, ⟨2⟩] none)
    claimed = Sample.resubmitted.perform Sample.submittedAt (.claim [⟨1⟩, ⟨2⟩] none) ∧
      claimed.1 = .ok true ∧
      claimed.2.perform ⟨0⟩ (.unclaim [⟨2⟩, ⟨1⟩, ⟨2⟩]) = (.ok (), Sample.resubmitted) := by
  intro claimed
  obtain ⟨claims, -, -, sets⟩ :=
    batches_atomic ⟨1⟩ (Sample.resubmission.map .add) Sample.submittedAt [⟨2⟩, ⟨1⟩, ⟨2⟩]
  obtain ⟨won, -, changed⟩ := claims none
  have same : ∀ id : RequestId, id ∈ [⟨2⟩, ⟨1⟩, ⟨2⟩] ↔ id ∈ [⟨1⟩, ⟨2⟩] := by
    intro id
    simp only [List.mem_cons, List.not_mem_nil, or_false]
    tauto
  have waits : claimed.1 = .ok true := rfl
  exact ⟨(sets [⟨1⟩, ⟨2⟩] same).1 none, waits, (changed waits).2 ⟨0⟩⟩

end Store
end BuildQueue
