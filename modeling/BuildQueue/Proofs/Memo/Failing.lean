import BuildQueue.Proofs.Memo.Sharing

/-!
# Errors are taken once

The error of a fill that failed is there until a get takes it. Whoever takes it returns it and gives
up the slot of the fill, and the others who joined the fill find it taken and look the key up again.
So the errors that were returned are those that were taken, each of another fill, and whoever is
polled after a fill has failed has come to another fill unless it returned the error itself.
-/

namespace BuildQueue

variable {κ ν ε : Type}

/-- The fill that a poll has come to: the one that gave what is returned, or the one that is waited
for. -/
def Progress.fill? : Progress κ (Stamped ν) (Stamped ε) → Option Nat
  | returned result => some (origin result)
  | pending get => get.awaits

section Errors

variable [DecidableEq κ]

/-- The fill whose error a round returns. -/
def Visit.error? (visit : Visit κ (Stamped ν) (Stamped ε)) : Option Nat :=
  match visit.result? with
  | some (.error error) => some error.fill
  | some (.ok _) | none => none

/-- The fills whose errors were returned in some visits. -/
def Usage.errors (visits : List (Visit κ (Stamped ν) (Stamped ε))) : List Nat :=
  visits.filterMap Visit.error?

theorem Visit.error?_eq_some_iff
    {visit : Visit κ (Stamped ν) (Stamped ε)}
    {generation : Nat} :
    visit.error? = some generation ↔
      ∃ error, visit.result? = some (.error error) ∧ error.fill = generation := by
  unfold error?
  cases visit.result? with
  | none => simp
  | some result => cases result <;> simp

theorem Visit.fill?_progress (visit : Visit κ (Stamped ν) (Stamped ε)) :
    visit.progress.fill? = (visit.service.round visit.get).1.fill? := by
  unfold progress
  cases (visit.service.round visit.get).1 <;> rfl

end Errors

namespace MemoService

section Sees

variable {generation : Nat} {before last : Option (FillState ν ε)} {round : Round ν ε}

/-- An error is taken by whoever returns it, or it was taken before. -/
theorem Sees.taken_iff (sees : Sees generation before round last) :
    last = some (.failed none) ↔
      (∃ error, round = .returned (.error error)) ∨ before = some (.failed none) := by
  cases sees with
  | waits unended => simp
  | succeeded was => rcases was with rfl | rfl <;> simp
  | failed was => simp
  | taken => simp

/-- An error that is returned was not taken before. -/
theorem Sees.untaken_of_error
    {error : ε}
    (sees : Sees generation before (.returned (.error error)) last) :
    before ≠ some (.failed none) := by
  cases sees with
  | failed was => rcases was with rfl | rfl <;> simp

theorem Sees.again_of_taken
    (sees : Sees generation before round last)
    (taken : before = some (.failed none)) :
    round = .again := by
  cases sees with
  | waits unended => rcases unended with rfl | rfl <;> cases taken
  | succeeded was => rcases was with rfl | rfl <;> cases taken
  | failed was => rcases was with rfl | rfl <;> cases taken
  | taken => rfl

end Sees

/-- A get returns an error only if the fill that it has joined has failed with this error. -/
theorem state?_of_error
    [DecidableEq κ]
    {service : MemoService κ ν ε}
    {get : Get κ}
    {error : ε}
    (returned : (service.round get).1 = .returned (.error error)) :
    ∃ generation, service.joins? get = some generation ∧
      (service.joining get).state? generation = some (.failed (some error)) := by
  cases joins : service.joins? get with
  | none =>
      obtain ⟨value, filledAt, -, -, hit⟩ := round_of_hit joins
      rw [hit] at returned
      cases returned
  | some generation =>
      refine ⟨generation, rfl, ?_⟩
      rw [round_of_joins joins] at returned
      have awaited := awaited (service.joining get) get.key generation
      generalize (service.joining get).await get.key generation = outcome at awaited returned
      cases awaited with
      | failed found state =>
          cases returned
          unfold state?
          rw [found]
          exact congrArg some state
      | missing absent => cases returned
      | running found state => cases returned
      | succeeded found state => cases returned
      | taken found state => cases returned

/-- In a round the errors are taken that had been taken before, and that of the fill whose error is
returned. -/
theorem taken_round_iff
    [DecidableEq κ]
    {service : MemoService κ ν ε}
    {get : Get κ}
    {generation : Nat} :
    (service.round get).2.seen? generation = some (.failed none) ↔
      (service.joins? get = some generation ∧
          ∃ error, (service.round get).1 = .returned (.error error)) ∨
        service.seen? generation = some (.failed none) := by
  have before : (service.joining get).seen? generation = some (.failed none) ↔
      service.seen? generation = some (.failed none) :=
    seen?_joining_iff get (by rintro ⟨⟩)
  rw [← before]
  cases joins : service.joins? get with
  | none =>
      obtain ⟨value, filledAt, -, -, hit⟩ := round_of_hit joins
      rw [hit]
      simp
  | some joined =>
      by_cases same : generation = joined
      · subst same
        rw [(sees_round joins).taken_iff]
        simp
      · have other : some joined ≠ some generation := fun equal =>
          same (Option.some.inj equal).symm
        rw [round_of_joins joins, seen?_await_of_ne same]
        simp [other]

variable
  [DecidableEq κ]
  {service : MemoService κ (Stamped ν) (Stamped ε)}
  {get : Get κ}
  {generation : Nat}

/-- In a round the errors are taken that had been taken before, and the one that is returned. -/
theorem Tracked.taken_round_iff (tracked : Tracked service) :
    (service.round get).2.seen? generation = some (.failed none) ↔
      (∃ error, (service.round get).1 = .returned (.error error) ∧ error.fill = generation) ∨
        service.seen? generation = some (.failed none) := by
  rw [MemoService.taken_round_iff]
  refine or_congr_left ⟨?_, ?_⟩
  · rintro ⟨joins, error, returned⟩
    exact ⟨error, returned, tracked.origin_of_round joins returned⟩
  · rintro ⟨error, returned, own⟩
    obtain ⟨joined, joins, -⟩ := state?_of_error returned
    have origin : error.fill = joined := tracked.origin_of_round joins returned
    exact ⟨joins.trans (congrArg some (origin.symm.trans own)), error, returned⟩

/-- The error that a round returns had not been taken. -/
theorem Tracked.untaken_of_error
    (tracked : Tracked service)
    {error : Stamped ε}
    (returned : (service.round get).1 = .returned (.error error)) :
    service.seen? error.fill ≠ some (.failed none) := by
  obtain ⟨joined, joins, -⟩ := state?_of_error returned
  have own : error.fill = joined := tracked.origin_of_round joins returned
  have sees := sees_round joins
  rw [returned] at sees
  intro taken
  refine sees.untaken_of_error ((seen?_joining_iff _ (by rintro ⟨⟩)).2 ?_)
  rw [← own]
  exact taken

/-- A round that does not start over comes to a fill whose error has not been taken. -/
theorem Tracked.exists_fill_of_taken
    (tracked : Tracked service)
    (taken : service.seen? generation = some (.failed none))
    (ends : (service.round get).1 ≠ .again) :
    ∃ fill, (service.round get).1.fill? = some fill ∧ fill ≠ generation := by
  cases joins : service.joins? get with
  | none =>
      obtain ⟨value, filledAt, -, held, hit⟩ := round_of_hit joins
      rw [hit]
      refine ⟨value.fill, rfl, ?_⟩
      rintro rfl
      rw [tracked.seen?_of_complete held] at taken
      cases taken
  | some joined =>
      have waited := (((tracked.traced get.key).joining get).1.await get.key joined).2
      rw [← round_of_joins joins] at waited
      obtain ⟨fill, came⟩ : ∃ fill, (service.round get).1.fill? = some fill := by
        generalize (service.round get).1 = round at ends
        cases round with
        | returned result => exact ⟨_, rfl⟩
        | waits waited => exact ⟨_, rfl⟩
        | again => exact absurd rfl ends
      refine ⟨fill, came, ?_⟩
      rintro rfl
      obtain rfl := waited fill came
      exact ends ((sees_round joins).again_of_taken ((seen?_joining_iff _ (by rintro ⟨⟩)).2 taken))

omit [DecidableEq κ] in
/-- No slot belongs to a fill whose error was taken. -/
theorem Tracked.every_fill_ne
    (tracked : Tracked service)
    (taken : service.seen? generation = some (.failed none)) :
    service.memo.Every fun _ slot => slot.fill ≠ generation := by
  intro entry listed same
  have shown := tracked.slots entry listed
  unfold Shows at shown
  unfold seen? at taken
  rw [← same, shown] at taken
  cases slot : entry.2 <;> rw [slot] at taken <;> cases taken

end MemoService

namespace Usage

variable
  [DecidableEq κ]
  {start last : Usage κ (Stamped ν) (Stamped ε)}
  {past : List (Visit κ (Stamped ν) (Stamped ε))}
  {visit : Visit κ (Stamped ν) (Stamped ε)}
  {number generation : Nat}
  {get : Get κ}

/-- The errors that were returned are those that were taken, and no error was returned twice. -/
theorem History.errors_taken
    (history : History IsStamped start past last)
    (tracked : start.Tracked)
    (unused : start.service.fills = []) :
    (∀ generation, generation ∈ errors past ↔
      last.service.seen? generation = some (.failed none)) ∧
    (errors past).Nodup := by
  induction history with
  | start =>
      refine ⟨fun generation => ?_, List.nodup_nil⟩
      unfold MemoService.seen?
      rw [unused]
      simp [errors]
  | use history quiet settles inductionHypothesis =>
      simp only [seen?_use quiet]
      exact inductionHypothesis
  | @round past usage history number get live inductionHypothesis =>
      obtain ⟨taken, distinct⟩ := inductionHypothesis
      have service := (history.tracked tracked).service
      let visit : Visit κ (Stamped ν) (Stamped ε) := ⟨number, get, usage.service⟩
      have returned : ∀ generation, visit.error? = some generation ↔ ∃ error,
          (usage.service.round get).1 = .returned (.error error) ∧ error.fill = generation := by
        intro generation
        rw [Visit.error?_eq_some_iff]
        exact exists_congr fun error => and_congr_left fun _ => result?_eq_some_iff
      have split : errors (past ++ [visit]) = errors past ++ visit.error?.toList := by
        unfold errors
        rw [List.filterMap_append, List.filterMap_cons, List.filterMap_nil]
        cases visit.error? <;> rfl
      change (∀ generation, generation ∈ errors (past ++ [visit]) ↔
        (usage.service.round get).2.seen? generation = some (.failed none)) ∧
          (errors (past ++ [visit])).Nodup
      rw [split]
      constructor
      · intro generation
        rw [List.mem_append, taken, Option.mem_toList, service.taken_round_iff, ← returned,
          Or.comm]
      · refine List.nodup_append.2 ⟨distinct, ?_, ?_⟩
        · cases visit.error? with
          | none => exact List.nodup_nil
          | some generation => exact List.pairwise_singleton _ _
        · rintro generation listed _ again rfl
          obtain ⟨error, now, rfl⟩ := (returned generation).1 (Option.mem_toList.1 again)
          exact service.untaken_of_error now ((taken _).1 listed)

/-- An error that a get returns is that with which a fill of its key has failed that it has
joined. -/
theorem History.error_own
    (history : History IsStamped start past last)
    (tracked : start.Tracked)
    (listed : visit ∈ past)
    {error : Stamped ε}
    (returned : visit.result? = some (.error error)) :
    visit.fill? = some error.fill ∧ last.Filled visit.get.key error.fill ∧
      visit.joining.state? error.fill = some (.failed (some error)) := by
  obtain ⟨earlier, usage, leads, same, -⟩ := history.visited listed
  have round := result?_eq_some_iff.1 returned
  obtain ⟨joined, joins, failed⟩ := MemoService.state?_of_error round
  have trackedThen : visit.service.Tracked := same ▸ (leads.tracked tracked).service
  obtain rfl : error.fill = joined := trackedThen.origin_of_round joins round
  exact ⟨joins, history.filled_of_joins tracked listed joins, failed⟩

/-- When a get is polled that has joined a fill which has failed, the error of the fill has been
returned by the end of the poll, by this get or else the get has come to another fill. -/
theorem History.poll_of_failed
    (history : History IsStamped start past last)
    (tracked : start.Tracked)
    (unused : start.service.fills = [])
    (live : last.live? number = some get)
    (joined : HasJoined (past ++ last.visits (.poll number)) number generation)
    (failed : (last.service.poll get).2.end? generation = some none) :
    generation ∈ errors (past ++ last.visits (.poll number)) ∧
      ((∃ error, (last.service.poll get).1 = .returned (.error error) ∧
          error.fill = generation) ∨
        ∃ fill, (last.service.poll get).1.fill? = some fill ∧ fill ≠ generation) := by
  have whole := history.poll live
  obtain ⟨visit, listed, -, ends, polled, joins⟩ := history.last_round tracked live joined
  have listedWhole : visit ∈ past ++ last.visits (.poll number) := List.mem_append_right _ listed
  obtain ⟨earlier, later, split⟩ := List.append_of_mem listedWhole
  obtain ⟨usage, leads, same, -, follows⟩ := whole.split split
  have trackedThen : visit.service.Tracked := same ▸ (leads.tracked tracked).service
  rw [polled] at failed ⊢
  -- The last round waits for the fill, unless the get had found the error taken before.
  rcases joins with joins | taken
  · rcases MemoService.round_of_end? joins failed with
      ⟨_, ⟨⟩, -⟩ | ⟨-, ⟨error, returned⟩ | again⟩
    · have own : error.fill = generation := trackedThen.origin_of_round joins returned
      refine ⟨List.mem_filterMap.2 ⟨visit, listedWhole, ?_⟩, .inl ⟨error, ?_, own⟩⟩
      · exact Visit.error?_eq_some_iff.2 ⟨error, result?_eq_some_iff.2 returned, own⟩
      · unfold Visit.progress
        rw [returned]
    · exact absurd again ends
  · constructor
    · have lasting : MemoService.Lasting
          (.failed none : FillState (Stamped ν) (Stamped ε)) := trivial
      refine ((whole.errors_taken tracked unused).1 generation).2 (follows.seen? lasting ?_)
      exact MemoService.seen?_round lasting (same ▸ taken)
    · rw [Visit.fill?_progress]
      exact .inr (trackedThen.exists_fill_of_taken taken ends)

/-- A poll comes to a fill of the key of the get, if to any. -/
theorem Tracked.filled_of_poll
    {usage : Usage κ (Stamped ν) (Stamped ε)}
    (tracked : usage.Tracked)
    (live : usage.live? number = some get)
    (came : (usage.service.poll get).1.fill? = some generation) :
    (usage.step (.poll number)).Filled get.key generation := by
  have waits : usage.service.Waits get.key 0 get := fun waited awaits =>
    ⟨tracked.own live waited awaits, fun _ => Nat.zero_le waited⟩
  have comes := ((tracked.service.traced get.key).rounds (Nat.le_refl 0) waits
    MemoService.maxRounds).2
  have service : (usage.step (.poll number)).service = (usage.service.poll get).2 := by
    simp only [step, live, service_poll]
  unfold Filled
  rw [service]
  change MemoService.ComesTo (usage.service.poll get).2 get.key 0 get.key
    (usage.service.poll get).1 at comes
  generalize usage.service.poll get = outcome at comes came
  obtain ⟨progress, after⟩ := outcome
  cases progress with
  | returned result =>
      cases came
      exact comes.own
  | pending left =>
      have own := (comes.2 generation came).own
      rw [comes.1] at own
      exact own

/-- The error of a fill goes to one get and is never cached. In a run in which every result carries
the number of its fill, a get that returns an error returns that with which a fill of its key has
failed that it has joined, and no two gets return the error of the same fill. When a get is polled
that has joined a fill which has failed then the error of the fill has been returned, by this get or
else the get has come to another fill of its key. No slot belongs to a fill whose error has been
returned. But for the numbers the run is that of the service itself. -/
theorem errors_returned_once
    (place : κ → Nat)
    (entryLimit shards : Nat)
    (ttl : Option Nat)
    (filler : Filler κ ν ε)
    (uses : List (Use κ ν ε)) :
    let start := ofMemo (.empty place entryLimit shards ttl) filler.stamped
    let trail := start.trail (uses.map Use.stamped)
    let last := start.run (uses.map Use.stamped)
    last.map Stamped.content Stamped.content =
        (ofMemo (.empty place entryLimit shards ttl) filler).run uses ∧
      (∀ visit ∈ trail, ∀ error, visit.result? = some (.error error) →
        visit.fill? = some error.fill ∧ last.Filled visit.get.key error.fill ∧
          visit.joining.state? error.fill = some (.failed (some error))) ∧
      (errors trail).Nodup ∧
      (∀ number get generation, last.live? number = some get →
        HasJoined (trail ++ last.visits (.poll number)) number generation →
        last.service.end? generation = some none ∨
          (last.service.poll get).2.end? generation = some none →
        generation ∈ errors (trail ++ last.visits (.poll number)) ∧
          (errors (trail ++ last.visits (.poll number))).Nodup ∧
          ((∃ error, (last.service.poll get).1 = .returned (.error error) ∧
              error.fill = generation) ∨
            ∃ fill, (last.service.poll get).1.fill? = some fill ∧ fill ≠ generation ∧
              (last.step (.poll number)).Filled get.key fill)) ∧
      ∀ generation ∈ errors trail, ∀ entry ∈ last.service.memo.entries,
        entry.2.fill ≠ generation := by
  intro start trail last
  have history : History IsStamped start trail last := history_stamped start uses
  have tracked : start.Tracked := tracked_ofMemo place entryLimit shards ttl filler
  have taken := history.errors_taken tracked rfl
  refine ⟨run_stamped _ filler uses, fun visit listed error => history.error_own tracked listed,
    taken.2, ?polled, ?slots⟩
  case polled =>
    intro number get generation live joined failed
    have failedAfter : (last.service.poll get).2.end? generation = some none :=
      failed.elim MemoService.end?_poll id
    obtain ⟨returned, came⟩ := history.poll_of_failed tracked rfl live joined failedAfter
    refine ⟨returned, ((history.poll live).errors_taken tracked rfl).2, came.imp_right ?_⟩
    rintro ⟨fill, came, other⟩
    exact ⟨fill, came, other, (history.tracked tracked).filled_of_poll live came⟩
  case slots =>
    intro generation returned
    exact (history.tracked tracked).service.every_fill_ne ((taken.1 generation).1 returned)

/-- Two gets share a fill that fails. The first one that is polled returns the error, and the other
one goes on to the next fill. -/
theorem errors_returned_once_shared :
    let uses : List (Use Nat Nat Nat) :=
      [.begin 7, .poll 0, .begin 7, .poll 1, .settle 0 (.error 3), .poll 0]
    let start := ofMemo (.empty id 4 1 none) (Filler.manual []).stamped
    let last := start.run (uses.map Use.stamped)
    last.live? 1 = some ⟨7, some 0⟩ ∧
      last.service.end? 0 = some none ∧
      0 ∈ errors (start.trail (uses.map Use.stamped) ++ last.visits (.poll 1)) ∧
      (last.service.poll ⟨7, some 0⟩).1.fill? = some 1 := by
  intro uses start last
  have live : last.live? 1 = some ⟨7, some 0⟩ := by decide +kernel
  have failed : last.service.end? 0 = some none := by decide +kernel
  have joined := hasJoined_of_awaits live rfl (start.trail (uses.map Use.stamped))
  obtain ⟨-, -, -, polled, -⟩ := errors_returned_once id 4 1 none (.manual []) uses
  obtain ⟨returned, -, -⟩ := polled 1 ⟨7, some 0⟩ 0 live joined (.inl failed)
  exact ⟨live, failed, returned, by decide +kernel⟩

end Usage
end BuildQueue
