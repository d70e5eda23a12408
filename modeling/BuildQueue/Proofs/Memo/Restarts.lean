import BuildQueue.Proofs.Memo.Failing
import Mathlib.Data.List.Perm.Subperm

/-!
# Look-ups and restarts

A get looks its key up when it begins and whenever it has started over. It starts over for the sake
of a fill that it has joined and whose error another get has taken. Where slots only wait for fills
whose ends nobody has seen, a get joins no such fill again: it starts over for the sake of a
different fill each time, so its look-ups but the first one are paid for by these fills.
-/

namespace BuildQueue

variable {κ ν ε : Type}

/-! ## Rounds that start a get over -/

/-- The fill whose error the round takes and returns. -/
def Visit.taken? [DecidableEq κ] (visit : Visit κ ν ε) : Option Nat :=
  match visit.result? with
  | some (.error _) => visit.fill?
  | some (.ok _) | none => none

/-- The fill whose error the round finds taken, so that its get starts over. -/
def Visit.restart? [DecidableEq κ] (visit : Visit κ ν ε) : Option Nat :=
  match (visit.service.round visit.get).1 with
  | .again => visit.fill?
  | .returned _ | .waits _ => none

namespace Visit

variable [DecidableEq κ] {visit : Visit κ ν ε} {generation : Nat}

theorem taken?_eq_some_iff :
    visit.taken? = some generation ↔
      visit.fill? = some generation ∧ ∃ error, visit.result? = some (.error error) := by
  unfold taken?
  cases visit.result? with
  | none => simp
  | some result => cases result <;> simp

theorem restart?_eq_some_iff :
    visit.restart? = some generation ↔
      visit.fill? = some generation ∧ (visit.service.round visit.get).1 = .again := by
  unfold restart?
  cases (visit.service.round visit.get).1 <;> simp

/-- A get starts over only for the sake of a fill that it had joined. -/
theorem exists_restart?
    (startsOver : (visit.service.round visit.get).1 = .again) :
    ∃ generation, visit.restart? = some generation := by
  cases joins : visit.service.joins? visit.get with
  | none =>
      obtain ⟨value, filledAt, -, -, hit⟩ := MemoService.round_of_hit joins
      rw [hit] at startsOver
      cases startsOver
  | some generation => exact ⟨generation, restart?_eq_some_iff.2 ⟨joins, startsOver⟩⟩

/-- The error that makes a get start over was taken before. -/
theorem seen?_of_restart?
    (found : visit.restart? = some generation) :
    visit.service.seen? generation = some (.failed none) := by
  obtain ⟨joins, startsOver⟩ := restart?_eq_some_iff.1 found
  have sees := MemoService.sees_round joins
  rw [startsOver] at sees
  refine (MemoService.seen?_joining_iff visit.get (by rintro ⟨⟩)).1 ?_
  generalize (visit.service.joining visit.get).seen? generation = before at sees ⊢
  generalize (visit.service.round visit.get).2.seen? generation = after at sees
  cases sees
  rfl

end Visit

namespace Usage

/-! ## The rounds of one get -/

/-- The rounds of one get. -/
def visitsOf (visits : List (Visit κ ν ε)) (number : Nat) : List (Visit κ ν ε) :=
  visits.filter fun visit => visit.number == number

theorem visitsOf_concat_self (past : List (Visit κ ν ε)) (visit : Visit κ ν ε) :
    visitsOf (past ++ [visit]) visit.number = visitsOf past visit.number ++ [visit] := by
  simp [visitsOf]

theorem visitsOf_concat_of_ne
    {visit : Visit κ ν ε}
    {number : Nat}
    (other : visit.number ≠ number)
    (past : List (Visit κ ν ε)) :
    visitsOf (past ++ [visit]) number = visitsOf past number := by
  simp [visitsOf, other]

variable [DecidableEq κ]

/-- The fills for the sake of which a get has started over. -/
def restarts (visits : List (Visit κ ν ε)) (number : Nat) : List Nat :=
  (visitsOf visits number).filterMap Visit.restart?

/-- A get has joined a fill whose error another get has taken. -/
def TakenFrom (visits : List (Visit κ ν ε)) (number generation : Nat) : Prop :=
  HasJoined visits number generation ∧
    ∃ visit ∈ visits, visit.number ≠ number ∧ visit.taken? = some generation

instance (visits : List (Visit κ ν ε)) (number generation : Nat) :
    Decidable (HasJoined visits number generation) :=
  inferInstanceAs (Decidable (∃ visit ∈ visits, _ ∧ _))

instance (visits : List (Visit κ ν ε)) (number generation : Nat) :
    Decidable (TakenFrom visits number generation) :=
  inferInstanceAs (Decidable (_ ∧ _))

variable
  {allowed : Nat → Except ε ν → Prop}
  {start usage last : Usage κ ν ε}
  {past : List (Visit κ ν ε)}
  {visit : Visit κ ν ε}
  {number generation : Nat}
  {get : Get κ}

theorem restarts_concat_self (past : List (Visit κ ν ε)) (visit : Visit κ ν ε) :
    restarts (past ++ [visit]) visit.number =
      restarts past visit.number ++ visit.restart?.toList := by
  unfold restarts
  rw [visitsOf_concat_self, List.filterMap_append]
  cases found : visit.restart? <;> simp [found]

theorem restarts_concat_of_ne
    (other : visit.number ≠ number)
    (past : List (Visit κ ν ε)) :
    restarts (past ++ [visit]) number = restarts past number := by
  unfold restarts
  rw [visitsOf_concat_of_ne other]

omit [DecidableEq κ] in
theorem again_of_left
    {key : κ}
    {round : MemoService.Round ν ε}
    (stays : round.left key = some get)
    (looksUp : get.awaits = none) :
    round = .again := by
  cases round with
  | returned result => cases stays
  | waits generation =>
      cases stays
      cases looksUp
  | again => rfl

/-- A get that has not begun has no rounds. -/
theorem History.visitsOf_eq_nil
    (history : History allowed start past last)
    (unbegun : last.gets.length ≤ number) :
    visitsOf past number = [] := by
  refine List.filter_eq_nil_iff.2 fun visit listed same => ?_
  have begun := history.number_lt listed
  rw [eq_of_beq same] at begun
  exact Nat.not_lt_of_le unbegun begun

/-- A get looks its key up once, and once more whenever it starts over. -/
theorem History.length_lookUps_le
    (history : History allowed start past last)
    (number : Nat) :
    (lookUps (visitsOf past number)).length ≤ (restarts past number).length + 1 ∧
      ∀ get, last.live? number = some get → get.awaits = none →
        (lookUps (visitsOf past number)).length ≤ (restarts past number).length := by
  induction history with
  | start => exact ⟨Nat.zero_le _, fun _ _ _ => Nat.zero_le _⟩
  | @use past usage history use quiet settles inductionHypothesis =>
      refine ⟨inductionHypothesis.1, fun get live looksUp => ?_⟩
      by_cases begun : number < usage.gets.length
      · exact inductionHypothesis.2 get (live?_of_use quiet begun live) looksUp
      · rw [history.visitsOf_eq_nil (Nat.le_of_not_lt begun)]
        exact Nat.zero_le _
  | @round past usage history polled get live inductionHypothesis =>
      by_cases same : polled = number
      · subst same
        obtain ⟨most, before⟩ := inductionHypothesis
        have startsOver : ∀ left, (usage.advance polled get).live? polled = some left →
            left.awaits = none → ∃ generation,
              (Visit.mk polled get usage.service).restart? = some generation := by
          intro left stays looksUp
          rw [live?_advance_self live] at stays
          exact Visit.exists_restart? (again_of_left stays looksUp)
        rw [restarts_concat_self _ ⟨polled, get, usage.service⟩,
          visitsOf_concat_self _ ⟨polled, get, usage.service⟩, length_lookUps_concat,
          List.length_append]
        dsimp only
        have counted : (lookUps (visitsOf past polled)).length +
            (if get.awaits.isNone then 1 else 0) ≤ (restarts past polled).length + 1 := by
          cases awaits : get.awaits with
          | none => exact Nat.succ_le_succ (before get live awaits)
          | some waited => exact most
        refine ⟨by omega, fun left stays looksUp => ?_⟩
        obtain ⟨generation, found⟩ := startsOver left stays looksUp
        rw [found, Option.toList_some, List.length_singleton]
        omega
      · rw [restarts_concat_of_ne same, visitsOf_concat_of_ne same]
        refine ⟨inductionHypothesis.1, fun left stays => ?_⟩
        rw [live?_advance_of_ne (Ne.symm same)] at stays
        exact inductionHypothesis.2 left stays

/-! ## No fill twice -/

/-- A get has started over for the sake of different fills, whose errors were taken, and it waits
for none of them again. -/
structure StartedOver
    (visits : List (Visit κ ν ε))
    (number : Nat)
    (usage : Usage κ ν ε) : Prop where
  distinct : (restarts visits number).Nodup
  taken : ∀ generation ∈ restarts visits number,
    usage.service.seen? generation = some (.failed none)
  awaited : ∀ {get generation}, usage.live? number = some get → get.awaits = some generation →
    generation ∉ restarts visits number

/-- A get that has started over joins no fill for the sake of which it has done so. -/
theorem StartedOver.not_mem_of_joins
    (startedOver : StartedOver past number usage)
    (current : usage.service.Current)
    (live : usage.live? number = some get)
    (joins : usage.service.joins? get = some generation) :
    generation ∉ restarts past number := by
  cases awaits : get.awaits with
  | some waited =>
      obtain rfl := Option.some.inj (joins.symm.trans (MemoService.joins?_of_awaits awaits))
      exact startedOver.awaited live awaits
  | none =>
      intro listed
      have seen := current.seen?_of_looksUp awaits joins
      rw [(MemoService.seen?_joining_iff get (by rintro ⟨⟩)).2
        (startedOver.taken generation listed)] at seen
      cases seen

/-- A round of a get keeps the fills different for the sake of which it has started over. -/
theorem StartedOver.advance
    (startedOver : StartedOver past number usage)
    (current : usage.service.Current)
    (live : usage.live? number = some get) :
    StartedOver (past ++ [⟨number, get, usage.service⟩]) number (usage.advance number get) := by
  have joined generation : usage.service.joins? get = some generation →
      generation ∉ restarts past number := startedOver.not_mem_of_joins current live
  have restarted := restarts_concat_self past ⟨number, get, usage.service⟩
  dsimp only at restarted
  refine ⟨?distinct, ?taken, ?awaited⟩
  case distinct =>
    rw [restarted]
    refine List.nodup_append.2 ⟨startedOver.distinct, ?_, ?_⟩
    · cases (Visit.mk number get usage.service).restart? with
      | none => exact List.nodup_nil
      | some generation => exact List.pairwise_singleton _ _
    · rintro generation listed _ again rfl
      have joins := (Visit.restart?_eq_some_iff.1 (Option.mem_toList.1 again)).1
      exact joined generation joins listed
  case taken =>
    intro generation listed
    refine MemoService.seen?_round trivial ?_
    rw [restarted] at listed
    rcases List.mem_append.1 listed with before | now
    · exact startedOver.taken generation before
    · exact Visit.seen?_of_restart? (Option.mem_toList.1 now)
  case awaited =>
    intro left generation stays awaits listed
    rw [live?_advance_self live] at stays
    cases joins : usage.service.joins? get with
    | none =>
        obtain ⟨value, filledAt, -, -, hit⟩ := MemoService.round_of_hit joins
        rw [hit] at stays
        cases stays
    | some joining =>
        -- The get goes on waiting for the fill that it has joined, so it does not start over.
        have sees := MemoService.sees_round joins
        have ends : (Visit.mk number get usage.service).restart? = none := by
          unfold Visit.restart?
          dsimp only
          generalize (usage.service.round get).1 = round at stays
          cases round with
          | returned result => rfl
          | waits waited => rfl
          | again =>
              cases stays
              cases awaits
        rw [restarted, ends] at listed
        generalize (usage.service.round get).1 = round at stays sees
        cases round with
        | returned result => cases stays
        | waits waited =>
            cases stays
            cases awaits
            obtain rfl := sees.waits_eq
            simp only [Option.toList_none, List.append_nil] at listed
            exact joined generation joins listed
        | again =>
            cases stays
            cases awaits

theorem History.startedOver
    (history : History allowed start past last)
    (current : ∀ visit ∈ past, visit.service.Current)
    (number : Nat) :
    StartedOver past number last := by
  induction history with
  | start =>
      exact ⟨List.nodup_nil, fun _ listed => (by cases listed), fun _ _ listed => (by cases listed)⟩
  | @use past usage history use quiet settles inductionHypothesis =>
      have before := inductionHypothesis current
      refine ⟨before.distinct, fun generation listed => ?_, fun live awaits listed => ?_⟩
      · rw [seen?_use quiet]
        exact before.taken generation listed
      · by_cases begun : number < usage.gets.length
        · exact before.awaited (live?_of_use quiet begun live) awaits listed
        · unfold restarts at listed
          rw [history.visitsOf_eq_nil (Nat.le_of_not_lt begun)] at listed
          cases listed
  | @round past usage history polled get live inductionHypothesis =>
      have before := inductionHypothesis fun visit listed =>
        current visit (List.mem_append_left _ listed)
      by_cases same : polled = number
      · subst same
        refine before.advance ?_ live
        exact current _ (List.mem_append_right _ (List.mem_singleton_self _))
      · have unchanged : restarts (past ++ [⟨polled, get, usage.service⟩]) number =
            restarts past number := restarts_concat_of_ne same past
        refine ⟨?_, ?_, fun stays awaits => ?_⟩
        · rw [unchanged]
          exact before.distinct
        · rw [unchanged]
          exact fun generation listed =>
            MemoService.seen?_round trivial (before.taken generation listed)
        · rw [live?_advance_of_ne (Ne.symm same)] at stays
          rw [unchanged]
          exact before.awaited stays awaits

/-! ## Who took the errors -/

/-- A get that has returned is not live any more. -/
theorem History.live?_of_returned
    (history : History allowed start past last)
    (listed : visit ∈ past)
    {result : Except ε ν}
    (returned : visit.result? = some result) :
    last.live? visit.number = none := by
  induction history with
  | start => cases listed
  | @use past usage history use quiet settles inductionHypothesis =>
      cases live : (usage.step use).live? visit.number with
      | none => rfl
      | some get =>
          have before := live?_of_use quiet (history.number_lt listed) live
          rw [inductionHypothesis listed] at before
          cases before
  | @round past usage history polled get live inductionHypothesis =>
      rcases List.mem_append.1 listed with before | now
      · have dead := inductionHypothesis before
        have other : visit.number ≠ polled := by
          rintro same
          rw [same, live] at dead
          cases dead
        rw [live?_advance_of_ne other]
        exact dead
      · obtain rfl := List.mem_singleton.1 now
        rw [live?_advance_self live, result?_eq_some_iff.1 returned]
        rfl

/-- An error was taken if a get has returned it, and only then. -/
theorem History.taken_iff
    (history : History allowed start past last)
    (unused : start.service.fills = []) :
    last.service.seen? generation = some (.failed none) ↔
      ∃ visit ∈ past, visit.taken? = some generation := by
  induction history with
  | start =>
      unfold MemoService.seen?
      rw [unused]
      simp
  | use history quiet settles inductionHypothesis =>
      rw [seen?_use quiet]
      exact inductionHypothesis
  | @round past usage history number get live inductionHypothesis =>
      change (usage.service.round get).2.seen? generation = some (.failed none) ↔ _
      have now : (Visit.mk number get usage.service).taken? = some generation ↔
          usage.service.joins? get = some generation ∧
            ∃ error, (usage.service.round get).1 = .returned (.error error) := by
        simp only [Visit.taken?_eq_some_iff, result?_eq_some_iff]
        rfl
      simp only [MemoService.taken_round_iff, inductionHypothesis, List.mem_append,
        List.mem_singleton, or_and_right, exists_or, exists_eq_left, now]
      rw [or_comm]

/-- A get starts over for the sake of fills that it has joined and whose errors other gets have
taken. -/
theorem History.takenFrom_of_restart
    (history : History allowed start past last)
    (unused : start.service.fills = [])
    (listed : generation ∈ restarts past number) :
    TakenFrom past number generation := by
  obtain ⟨visit, own, found⟩ := List.mem_filterMap.1 listed
  obtain ⟨there, same⟩ := List.mem_filter.1 own
  obtain rfl : visit.number = number := eq_of_beq same
  refine ⟨⟨visit, there, rfl, (Visit.restart?_eq_some_iff.1 found).1⟩, ?_⟩
  -- The error was taken before the get started over, by a get that was not live any more then.
  obtain ⟨earlier, later, split⟩ := List.append_of_mem there
  obtain ⟨usage, leads, sameService, live, -⟩ := history.split split
  have seen := Visit.seen?_of_restart? found
  rw [sameService] at seen
  obtain ⟨taker, before, takes⟩ := (leads.taken_iff unused).1 seen
  refine ⟨taker, split ▸ List.mem_append_left _ before, fun taken => ?_, takes⟩
  obtain ⟨-, error, returned⟩ := Visit.taken?_eq_some_iff.1 takes
  have dead := leads.live?_of_returned before returned
  rw [taken, live] at dead
  cases dead

/-- A get makes at most one look-up more than there are fills whose errors other gets took from
it. -/
theorem History.length_lookUps_le_countP
    (history : History allowed start past last)
    (unused : start.service.fills = [])
    (current : ∀ visit ∈ past, visit.service.Current)
    (number : Nat) :
    (lookUps (visitsOf past number)).length ≤
      ((List.range last.service.fills.length).countP fun generation =>
        TakenFrom past number generation) + 1 := by
  have startedOver := history.startedOver current number
  have included : restarts past number ⊆ (List.range last.service.fills.length).filter
      fun generation => TakenFrom past number generation := by
    intro generation listed
    have seen := startedOver.taken generation listed
    obtain ⟨fill, started, -⟩ := Option.map_eq_some_iff.1 seen
    rw [List.mem_filter, List.mem_range, decide_eq_true_iff]
    exact ⟨(List.getElem?_eq_some_iff.1 started).1,
      history.takenFrom_of_restart unused listed⟩
  have most := (List.subperm_of_subset startedOver.distinct included).length_le
  rw [List.countP_eq_length_filter]
  exact Nat.le_trans (history.length_lookUps_le number).1 (Nat.succ_le_succ most)

end Usage
end BuildQueue
