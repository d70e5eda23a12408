import BuildQueue.Proofs.Store.Exchange
import Mathlib.Logic.Function.Basic

/-!
# Ledgers

A ledger says which of some passes has claimed and which has skipped a request. While these passes
are the only clients of a store, and each completes what it has claimed before it claims the next,
the store is determined by what it was before and by the ledger. `Ledger.answer` says how a call of
one of them changes both, and that the others notice nothing but claims of further requests.
-/

namespace BuildQueue

/-- What a pass has made of a request. -/
inductive Mark where
  /-- The pass has claimed the request at a time, and has not completed it. -/
  | held (time : Timestamp)
  /-- The pass has claimed the request and completed it as skipped, both as of a time. -/
  | skipped (time : Timestamp)
deriving DecidableEq, Repr

/-- The request as it is when it is marked. -/
def Mark.apply : Mark → Request → Request
  | .held time, request => request.claim time
  | .skipped time, request => (request.claim time).finish .skipped time

@[simp] theorem Mark.asSubmitted_apply (mark : Mark) (request : Request) :
    (mark.apply request).asSubmitted = request.asSubmitted := by
  cases mark <;> rfl

@[simp] theorem Mark.isPending_apply (mark : Mark) (request : Request) :
    (mark.apply request).isPending = false := by
  cases mark <;> simp [apply, Request.isPending, Request.claim, Request.finish]

/-- Which pass has marked a request, and how. -/
abbrev Ledger (ι : Type) := RequestId → Option (ι × Mark)

/-- What a pass knows of its own marks. -/
structure Marks where
  /-- The request that it has claimed and not completed, and the time of the claim. -/
  held : Option (RequestId × Timestamp)
  /-- The requests that it has skipped. -/
  skipped : List RequestId

namespace Marks

/-- The marks of a pass that has claimed nothing. -/
def clean : Marks := ⟨none, []⟩

/-- The calls that a pass may make: it claims one request at a time, and then completes it as
skipped. -/
def Permits (marks : Marks) : Call → Prop
  | .claim ids time => marks.held = none ∧ ∃ id now, ids = [id] ∧ time = some now
  | .complete ids outcome time =>
      outcome = .skipped ∧ ∃ id now, marks.held = some (id, now) ∧ ids = [id] ∧ time = some now
  | .unclaim _ => False
  | _ => True

/-- The marks after an exchange. -/
def after (marks : Marks) : Exchange → Marks
  | ⟨.claim [id] (some time), .ok true⟩ => { marks with held := some (id, time) }
  | ⟨.complete [id] _ _, .ok ()⟩ => ⟨none, marks.skipped ++ [id]⟩
  | _ => marks

/-- What others may do to a store while a pass has these marks: they submit nothing, they release
nothing, and they leave alone what the pass holds. -/
structure Rely (marks : Marks) (before after : Store) : Prop where
  alike : after.asSubmitted = before.asSubmitted
  taken : ∀ {id}, before.claimable id = false → after.claimable id = false
  held : ∀ {id time}, marks.held = some (id, time) →
    after.requests.get? id = before.requests.get? id

variable {marks : Marks} {first second third : Store}

theorem Rely.refl (marks : Marks) (store : Store) : marks.Rely store store :=
  ⟨rfl, id, fun _ => rfl⟩

theorem Rely.trans
    (earlier : marks.Rely first second)
    (later : marks.Rely second third) :
    marks.Rely first third where
  alike := later.alike.trans earlier.alike
  taken taken := later.taken (earlier.taken taken)
  held holds := (later.held holds).trans (earlier.held holds)

end Marks

namespace Ledger

variable {ι : Type} {ledger : Ledger ι} {base : Store}

/-- A request as the ledger says. -/
def row (ledger : Ledger ι) (id : RequestId) (request : Request) : Request :=
  match ledger id with
  | some (_, mark) => mark.apply request
  | none => request

/-- Only requests that were pending are marked. -/
def Valid (ledger : Ledger ι) (base : Store) : Prop :=
  ∀ id, ledger id ≠ none → base.claimable id = true

/-- The marks of a pass in the ledger are those that it knows of. -/
structure Agrees (ledger : Ledger ι) (who : ι) (marks : Marks) : Prop where
  held : ∀ {id time}, ledger id = some (who, .held time) ↔ marks.held = some (id, time)
  skipped : ∀ {id}, (∃ time, ledger id = some (who, .skipped time)) ↔ id ∈ marks.skipped

/-- The ledger without marks. -/
def blank : Ledger ι := fun _ => none

theorem valid_blank : (blank : Ledger ι).Valid base := fun _ marked => absurd rfl marked

theorem agrees_blank (who : ι) : (blank : Ledger ι).Agrees who .clean where
  held := by simp [blank, Marks.clean]
  skipped := by simp [blank, Marks.clean]

@[simp] theorem asSubmitted_row (id : RequestId) (request : Request) :
    (ledger.row id request).asSubmitted = request.asSubmitted := by
  unfold row
  split
  · exact Mark.asSubmitted_apply ..
  · rfl

end Ledger

namespace Store

variable {ι : Type}

/-- The store with each request as a ledger says. -/
def marked (base : Store) (ledger : Ledger ι) : Store :=
  { base with requests := base.requests.mapValues ledger.row }

variable {ledger : Ledger ι} {base : Store}

@[simp] theorem get?_marked (base : Store) (ledger : Ledger ι) (id : RequestId) :
    (base.marked ledger).requests.get? id = (base.requests.get? id).map (ledger.row id) := by
  simp [marked]

@[simp] theorem marked_blank (base : Store) : base.marked (Ledger.blank : Ledger ι) = base := by
  refine @eq_of_get? base _ base.requests fun id => ?_
  rw [SortedMap.get?_mapValues]
  exact Option.map_id_apply

@[simp] theorem asSubmitted_marked (base : Store) (ledger : Ledger ι) :
    (base.marked ledger).asSubmitted = base.asSubmitted := by
  refine eq_of_get? base fun id => ?_
  rw [SortedMap.get?_mapValues, SortedMap.get?_mapValues, get?_marked, Option.map_map]
  exact congrArg (Option.map · _) (funext fun request => Ledger.asSubmitted_row id request)

/-- A request can be claimed if it was pending and is not marked. -/
theorem claimable_marked_iff {id : RequestId} :
    (base.marked ledger).claimable id = true ↔ base.claimable id = true ∧ ledger id = none := by
  rw [claimable_iff, claimable_iff, get?_marked]
  cases marked : ledger id with
  | none =>
      have same : ledger.row id = fun request => request := by
        funext request
        rw [Ledger.row, marked]
      simp [same]
  | some entry =>
      have taken : ∀ request, (ledger.row id request).isPending = false := by
        intro request
        rw [Ledger.row, marked]
        exact Mark.isPending_apply ..
      simp [taken]

/-- Changing a row and changing its mark come to the same. -/
theorem updateRequests_marked
    {id : RequestId}
    {entry : ι × Mark}
    {change : Request → Request}
    (changed : ∀ request, base.requests.get? id = some request →
      change (ledger.row id request) = entry.2.apply request) :
    (base.marked ledger).updateRequests [id] change =
      base.marked (Function.update ledger id (some entry)) := by
  refine eq_of_get? base fun other => ?_
  rw [SortedMap.get?_mapValues, SortedMap.get?_mapValues, get?_marked, Option.map_map]
  cases found : base.requests.get? other with
  | none => rfl
  | some request =>
      refine congrArg some ?_
      by_cases same : other = id
      · subst same
        simp [Ledger.row] at changed ⊢
        exact changed request found
      · simp [Ledger.row, same]

end Store

/-- An exchange that changes nothing leaves no mark. -/
theorem Marks.after_eq_self
    {marks : Marks}
    {call : Call}
    {reply : call.Reply}
    (permitted : marks.Permits call)
    (claims : ∀ id, Exchange.claims ⟨call, reply⟩ id = false)
    (completes : ∀ id, Exchange.completes? ⟨call, reply⟩ id = none) :
    marks.after ⟨call, reply⟩ = marks := by
  cases call with
  | claim ids time =>
      obtain ⟨-, id, now, rfl, rfl⟩ := permitted
      cases reply with
      | error failure => rfl
      | ok won =>
          cases won with
          | false => rfl
          | true => exact absurd (claims id) (by simp [Exchange.claims])
  | complete ids outcome time =>
      obtain ⟨-, id, now, -, rfl, rfl⟩ := permitted
      cases reply with
      | error failure => rfl
      | ok _ => exact absurd (completes id) (by simp [Exchange.completes?])
  | unclaim ids => cases permitted
  | _ => rfl

namespace Ledger

variable {ι : Type} {ledger : Ledger ι} {base : Store} {who other : ι}
  {marks : Marks} {id : RequestId} {time : Timestamp}

theorem Valid.update
    (valid : ledger.Valid base)
    (pending : base.claimable id = true)
    (entry : ι × Mark) :
    Valid (Function.update ledger id (some entry)) base := by
  intro other marked
  by_cases same : other = id
  · subst same
    exact pending
  · rw [Function.update_of_ne same] at marked
    exact valid other marked

/-- A pass that holds nothing claims a request. -/
theorem Agrees.claim
    (agrees : ledger.Agrees who marks)
    (free : marks.held = none)
    (unmarked : ledger id = none) :
    Agrees (Function.update ledger id (some (who, .held time))) who
      { marks with held := some (id, time) } where
  held {asked askedTime} := by
    by_cases same : asked = id
    · subst same
      simp
    · have unheld : ledger asked ≠ some (who, .held askedTime) := by
        rw [Ne, agrees.held, free]
        exact (Option.some_ne_none _).symm
      simp [same, Ne.symm same, unheld]
  skipped {asked} := by
    rw [← agrees.skipped]
    by_cases same : asked = id
    · subst same
      simp [unmarked]
    · simp [same]

/-- A pass skips the request that it holds. -/
theorem Agrees.skip
    (agrees : ledger.Agrees who marks)
    (holds : marks.held = some (id, time)) :
    Agrees (Function.update ledger id (some (who, .skipped time))) who
      ⟨none, marks.skipped ++ [id]⟩ where
  held {asked askedTime} := by
    by_cases same : asked = id
    · subst same
      simp
    · have unheld : ledger asked ≠ some (who, .held askedTime) := by
        rw [Ne, agrees.held, holds]
        simp [Ne.symm same]
      simp [same, unheld]
  skipped {asked} := by
    rw [List.mem_append, ← agrees.skipped]
    by_cases same : asked = id
    · subst same
      simp
    · simp [same]

/-- A mark that another pass makes is not noticed by a pass that has not marked the request. -/
theorem Agrees.update
    (agrees : ledger.Agrees other marks)
    (different : other ≠ who)
    (unmarked : ∀ mark, ledger id ≠ some (other, mark))
    (mark : Mark) :
    Agrees (Function.update ledger id (some (who, mark))) other marks where
  held {asked askedTime} := by
    rw [← agrees.held]
    by_cases same : asked = id
    · subst same
      simp [unmarked, Ne.symm different]
    · simp [same]
  skipped {asked} := by
    rw [← agrees.skipped]
    by_cases same : asked = id
    · subst same
      simp [unmarked, Ne.symm different]
    · simp [same]

theorem Agrees.rely
    (agrees : ledger.Agrees other marks)
    (unmarked : ∀ mark, ledger id ≠ some (other, mark))
    (entry : ι × Mark) :
    marks.Rely (base.marked ledger)
      (base.marked (Function.update ledger id (some entry))) where
  alike := by simp
  taken {asked} taken := by
    by_contra claimable
    rw [Bool.not_eq_false, Store.claimable_marked_iff] at claimable
    obtain ⟨pending, free⟩ := claimable
    have different : asked ≠ id := by
      rintro rfl
      simp at free
    rw [Function.update_of_ne different] at free
    rw [Store.claimable_marked_iff.2 ⟨pending, free⟩] at taken
    cases taken
  held {asked askedTime} holds := by
    have marked := agrees.held.2 holds
    have different : asked ≠ id := by
      rintro rfl
      exact unmarked _ marked
    rw [Store.get?_marked, Store.get?_marked]
    refine congrArg (Option.map · _) (funext fun request => ?_)
    rw [row, row, Function.update_of_ne different]

/-- A call of one of the passes changes the ledger by at most a mark of its own. The other passes
have the same marks as before, and may rely on what they are promised. -/
theorem answer
    {call : Call}
    {reply : call.Reply}
    {after : Store}
    (valid : ledger.Valid base)
    (agrees : ledger.Agrees who marks)
    (permitted : marks.Permits call)
    (answered : (base.marked ledger).Answers False call reply after) :
    ∃ next : Ledger ι, after = base.marked next ∧ next.Valid base ∧
      next.Agrees who (marks.after ⟨call, reply⟩) ∧
      ∀ other otherMarks, other ≠ who → ledger.Agrees other otherMarks →
        next.Agrees other otherMarks ∧ otherMarks.Rely (base.marked ledger) after := by
  have writes : (base.marked ledger).Writes ⟨call, reply⟩ after := answered.writes
  generalize exchanged : (⟨call, reply⟩ : Exchange) = exchange at writes ⊢
  cases writes with
  | nothing claims completes =>
      subst exchanged
      rw [Marks.after_eq_self permitted claims completes]
      exact ⟨ledger, rfl, valid, agrees, fun other otherMarks _ otherAgrees =>
        ⟨otherAgrees, .refl otherMarks _⟩⟩
  | claim ids given now pending =>
      cases exchanged
      obtain ⟨free, id, time, rfl, rfl⟩ := permitted
      obtain ⟨basePending, unmarked⟩ :=
        Store.claimable_marked_iff.1 (pending id List.mem_cons_self)
      have unowned : ∀ other mark, ledger id ≠ some (other, mark) := by
        intro other mark
        rw [unmarked]
        exact (Option.some_ne_none _).symm
      have changed : (base.marked ledger).updateRequests [id] (·.claim time) =
          base.marked (Function.update ledger id (some (who, .held time))) := by
        refine Store.updateRequests_marked fun request _ => ?_
        rw [row, unmarked]
        rfl
      refine ⟨_, changed, valid.update basePending _, agrees.claim free unmarked, ?_⟩
      intro other otherMarks different otherAgrees
      refine ⟨otherAgrees.update different (unowned other) _, ?_⟩
      exact changed ▸ otherAgrees.rely (unowned other) _
  | complete ids outcome given now held =>
      cases exchanged
      obtain ⟨rfl, id, time, holds, rfl, rfl⟩ := permitted
      have marked := agrees.held.2 holds
      have changed : (base.marked ledger).updateRequests [id] (·.finish .skipped time) =
          base.marked (Function.update ledger id (some (who, .skipped time))) := by
        refine Store.updateRequests_marked fun request _ => ?_
        rw [row, marked]
        rfl
      have basePending := valid id (marked ▸ Option.some_ne_none _)
      refine ⟨_, changed, valid.update basePending _, agrees.skip holds, ?_⟩
      intro other otherMarks different otherAgrees
      have unowned : ∀ mark, ledger id ≠ some (other, mark) := by
        intro mark owned
        rw [marked] at owned
        exact different (Prod.mk.inj (Option.some.inj owned)).1.symm
      refine ⟨otherAgrees.update different unowned _, ?_⟩
      exact changed ▸ otherAgrees.rely unowned _
  | release ids =>
      cases exchanged
      cases permitted

end Ledger

/-! ## Times -/

/-- The request with each time of a claim or a completion replaced by the same one. -/
def Request.untimed (request : Request) : Request :=
  { request with
    claimedAt := request.claimedAt.map fun _ => ⟨0⟩
    completeAt := request.completeAt.map fun _ => ⟨0⟩ }

/-- The store up to the times of claims and completions. -/
def Store.untimed (store : Store) : Store :=
  { store with requests := store.requests.mapValues fun _ request => request.untimed }

/-- Ledgers that mark the same requests as skipped make the same of a store, up to the times. -/
theorem Store.untimed_marked_eq
    {ι ι' : Type}
    {base : Store}
    {ledger : Ledger ι}
    {other : Ledger ι'}
    (settled : ∀ id who time, ledger id ≠ some (who, .held time))
    (otherSettled : ∀ id who time, other id ≠ some (who, .held time))
    (same : ∀ id, ledger id = none ↔ other id = none) :
    (base.marked ledger).untimed = (base.marked other).untimed := by
  refine eq_of_get? base fun id => ?_
  rw [SortedMap.get?_mapValues, SortedMap.get?_mapValues, get?_marked, get?_marked]
  cases base.requests.get? id with
  | none => rfl
  | some request =>
      refine congrArg some ?_
      simp only [Ledger.row]
      cases marked : ledger id with
      | none => rw [(same id).1 marked]
      | some entry =>
          obtain ⟨who, mark⟩ := entry
          cases otherMarked : other id with
          | none =>
              rw [(same id).2 otherMarked] at marked
              cases marked
          | some otherEntry =>
              obtain ⟨otherWho, otherMark⟩ := otherEntry
              cases mark with
              | held time => exact absurd marked (settled id who time)
              | skipped time =>
                  cases otherMark with
                  | held time => exact absurd otherMarked (otherSettled id otherWho time)
                  | skipped otherTime => rfl

end BuildQueue
