import BuildQueue.Proofs.Store.Submitted

/-!
# Exchanges with a store

An exchange is a call of the store together with what it gave. Only three kinds of exchanges change
the store: a claim that was won, a completion that was accepted, and a release.
`Store.Answers.writes` says what each of them requires and what it changes.
-/

namespace BuildQueue

/-- A call of the store and what it gave. -/
structure Exchange where
  call : Call
  reply : call.Reply

namespace Exchange

/-- Whether a claim that contains a request was asked for. -/
def triesClaim : Exchange → RequestId → Bool
  | ⟨.claim ids _, _⟩, id => ids.contains id
  | _, _ => false

/-- Whether a claim that contains a request was successful. -/
def claims : Exchange → RequestId → Bool
  | ⟨.claim ids _, .ok true⟩, id => ids.contains id
  | _, _ => false

/-- The outcome with which a request was completed. -/
def completes? : Exchange → RequestId → Option Outcome
  | ⟨.complete ids outcome _, .ok ()⟩, id =>
      if ids.contains id then some outcome else none
  | _, _ => none

/-- Whether claims were released, that of a request among them. -/
def releases : Exchange → RequestId → Bool
  | ⟨.unclaim ids, .ok ()⟩, id => ids.contains id
  | _, _ => false

end Exchange

/-- An exchange that somebody had with the store. -/
structure Event (ι : Type) extends Exchange where
  /-- The pass whose exchange it was, none for anybody else. -/
  client : Option ι

/-- How a call may be answered, and the store after it: by the store at some time, or by a fault
that keeps the call from it. -/
def Store.Answers
    (faulty : Prop)
    (before : Store)
    (call : Call)
    (reply : call.Reply)
    (after : Store) : Prop :=
  (∃ now, reply = before.reply now call ∧ after = (before.perform now call).2) ∨
    faulty ∧ (∃ failure, reply = .error failure) ∧ after = before

theorem Store.Answers.mono
    {faulty more : Prop}
    {before after : Store}
    {call : Call}
    {reply : call.Reply}
    (answered : before.Answers faulty call reply after)
    (weaken : faulty → more) :
    before.Answers more call reply after :=
  answered.imp id fun ⟨fault, rest⟩ => ⟨weaken fault, rest⟩

theorem Store.Answers.alike
    {faulty : Prop}
    {before after : Store}
    {call : Call}
    {reply : call.Reply}
    (answered : before.Answers faulty call reply after) :
    after.asSubmitted = before.asSubmitted := by
  rcases answered with ⟨now, -, rfl⟩ | ⟨-, -, rfl⟩
  · exact asSubmitted_perform before now call
  · rfl

namespace Store

/-- The ways in which an exchange changes a store. -/
inductive Writes (before : Store) : Exchange → Store → Prop where
  | nothing {exchange}
      (claims : ∀ id, exchange.claims id = false)
      (completes : ∀ id, exchange.completes? id = none) :
      Writes before exchange before
  | claim (ids : List RequestId) (time : Option Timestamp) (now : Timestamp)
      (pending : ∀ id ∈ ids, before.claimable id = true) :
      Writes before ⟨.claim ids time, .ok true⟩
        (before.updateRequests ids (·.claim (time.getD now)))
  | complete (ids : List RequestId) (outcome : Outcome) (time : Option Timestamp)
      (now : Timestamp)
      (held : ∀ id ∈ ids, ∃ request, before.requests.get? id = some request ∧
        request.claimed = true ∧ request.complete = false) :
      Writes before ⟨.complete ids outcome time, .ok ()⟩
        (before.updateRequests ids (·.finish outcome (time.getD now)))
  | release (ids : List RequestId) :
      Writes before ⟨.unclaim ids, .ok ()⟩ (before.updateRequests ids Request.release)

/-- A request that can be claimed is there and pending. -/
theorem claimable_iff
    {store : Store}
    {id : RequestId} :
    store.claimable id = true ↔
      ∃ request, store.requests.get? id = some request ∧ request.isPending = true := by
  unfold claimable
  cases store.requests.get? id <;> simp

/-- A request that can be completed is claimed and not complete. -/
theorem checkCompletable_eq_ok_iff
    {store : Store}
    {id : RequestId} :
    store.checkCompletable id = .ok () ↔
      ∃ request, store.requests.get? id = some request ∧
        request.claimed = true ∧ request.complete = false := by
  unfold checkCompletable
  cases store.requests.get? id with
  | none => simp
  | some request => cases claimed : request.claimed <;> cases complete : request.complete <;>
      simp [claimed, complete]

theorem forM_checkCompletable_eq_ok_iff
    {store : Store}
    {ids : List RequestId} :
    ids.forM store.checkCompletable = .ok () ↔
      ∀ id ∈ ids, ∃ request, store.requests.get? id = some request ∧
        request.claimed = true ∧ request.complete = false := by
  induction ids with
  | nil => exact ⟨fun _ _ listed => absurd listed List.not_mem_nil, fun _ => rfl⟩
  | cons id rest inductionHypothesis =>
      rw [List.forall_mem_cons, ← inductionHypothesis, ← checkCompletable_eq_ok_iff]
      change (store.checkCompletable id >>= fun _ => rest.forM store.checkCompletable) = _ ↔ _
      cases store.checkCompletable id with
      | error error => exact ⟨fun failed => (by cases failed), fun both => (by cases both.1)⟩
      | ok _ => exact ⟨fun rest => ⟨rfl, rest⟩, fun both => both.2⟩

section

variable (store : Store) (ids : List RequestId) (now : Timestamp)

/-- A claim is won if every request of its list can be claimed, and else changes nothing. -/
theorem perform_claim (time : Option Timestamp) :
    store.perform now (.claim ids time) =
      if ids.all store.claimable then
        (.ok true, store.updateRequests ids (·.claim (time.getD now)))
      else (.ok false, store) := by
  simp only [perform, claim]
  split <;> rfl

variable {store ids} (outcome : Outcome) (time : Option Timestamp)

theorem perform_complete_of_ok
    (checked : ids.forM store.checkCompletable = .ok ()) :
    store.perform now (.complete ids outcome time) =
      (.ok (), store.updateRequests ids (·.finish outcome (time.getD now))) := by
  simp only [perform, complete, checked]
  rfl

theorem perform_complete_of_error
    {error : StoreError}
    (checked : ids.forM store.checkCompletable = .error error) :
    store.perform now (.complete ids outcome time) = (.error error, store) := by
  simp only [perform, complete, checked]
  rfl

end

/-- An exchange changes the store in one of these ways. -/
theorem Answers.writes
    {faulty : Prop}
    {before after : Store}
    {exchange : Exchange}
    (answered : before.Answers faulty exchange.call exchange.reply after) :
    before.Writes exchange after := by
  obtain ⟨call, reply⟩ := exchange
  rcases answered with ⟨now, same, rfl⟩ | ⟨-, ⟨failure, same⟩, rfl⟩
  · dsimp only at same
    subst same
    cases call with
    | claim ids time =>
        rw [reply, perform_claim]
        by_cases pending : ids.all before.claimable = true
        · rw [if_pos pending]
          exact .claim ids time now (List.all_eq_true.1 pending)
        · rw [if_neg pending]
          exact .nothing (fun _ => rfl) fun _ => rfl
    | complete ids outcome time =>
        cases checked : ids.forM before.checkCompletable with
        | ok _ =>
            rw [reply, perform_complete_of_ok now outcome time checked]
            exact .complete ids outcome time now (forM_checkCompletable_eq_ok_iff.1 checked)
        | error error =>
            rw [reply, perform_complete_of_error now outcome time checked]
            exact .nothing (fun _ => rfl) fun _ => rfl
    | unclaim ids => exact .release ids
    | _ => exact .nothing (fun _ => rfl) fun _ => rfl
  · dsimp only at same
    subst same
    refine .nothing (fun _ => ?_) fun _ => ?_
    · cases call <;> rfl
    · cases call <;> rfl

/-- A call that reaches the store changes it in one of these ways. -/
theorem writes_perform
    (store : Store)
    (now : Timestamp)
    (call : Call) :
    store.Writes ⟨call, store.reply now call⟩ (store.perform now call).2 := by
  have answered : store.Answers False call (store.reply now call) (store.perform now call).2 :=
    .inl ⟨now, rfl, rfl⟩
  exact answered.writes

/-- A call leaves all tables but that of the requests as they are. -/
theorem tables_perform (store : Store) (now : Timestamp) (call : Call) :
    ∃ requests, (store.perform now call).2 = { store with requests } := by
  have writes := writes_perform store now call
  generalize (store.perform now call).2 = after at writes
  generalize (⟨call, store.reply now call⟩ : Exchange) = exchange at writes
  cases writes <;> exact ⟨_, rfl⟩

end Store
end BuildQueue
