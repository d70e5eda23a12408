import BuildQueue.Proofs.Memo.History

/-!
# How fills end

A fill ends for the service when a get sees its end. What is seen of a fill does not change any
more once it has succeeded, or once its error was taken. A get that has joined a fill waits for it
until it returns or finds the error of the fill taken, and everybody who returns the value of a fill
returns the same value.
-/

namespace BuildQueue

variable {κ ν ε : Type}

/-- How a fill has ended: with a value, or without one. -/
def FillState.end? : FillState ν ε → Option (Option ν)
  | running => none
  | succeeded value => some (some value)
  | failed _ => some none

namespace MemoService

/-- The state of a fill as far as gets have seen it. -/
def seen? (service : MemoService κ ν ε) (generation : Nat) : Option (FillState ν ε) :=
  (service.fills[generation]?).map Fill.state

/-- How a fill has ended as whoever waits for it now would find it, if it has. -/
def end? (service : MemoService κ ν ε) (generation : Nat) : Option (Option ν) :=
  (service.state? generation).bind FillState.end?

/-- What a get that waits for a fill sees: the state of the fill before, the round, and the state
after it. -/
inductive Sees (generation : Nat) :
    Option (FillState ν ε) → Round ν ε → Option (FillState ν ε) → Prop where
  | waits
      {before : Option (FillState ν ε)}
      (unended : before = none ∨ before = some .running) :
      Sees generation before (.waits generation) before
  | succeeded
      {value : ν}
      {before : Option (FillState ν ε)}
      (was : before = some .running ∨ before = some (.succeeded value)) :
      Sees generation before (.returned (.ok value)) (some (.succeeded value))
  | failed
      {error : ε}
      {before : Option (FillState ν ε)}
      (was : before = some .running ∨ before = some (.failed (some error))) :
      Sees generation before (.returned (.error error)) (some (.failed none))
  | taken : Sees generation (some (.failed none)) .again (some (.failed none))

variable
  {service after : MemoService κ ν ε}
  {generation other : Nat}
  {fill : Fill κ ν ε}
  {state : FillState ν ε}

/-- Taking in the result of a fill whose end was seen before does nothing. -/
theorem refresh_of_ne_running (ended : fill.state ≠ .running) :
    service.refresh generation fill = fill := by
  unfold refresh
  split
  · next running _ => exact absurd running ended
  · rfl

/-- A fill that goes on running has no result that could be taken in. -/
theorem refresh_of_running (running : (service.refresh generation fill).state = .running) :
    service.refresh generation fill = fill := by
  unfold refresh at running ⊢
  split
  · next result before given =>
    simp only [before, given] at running
    cases result <;> cases running
  · rfl

/-- A fill was running before, or its state is the one that was seen. -/
theorem state_refresh
    (service : MemoService κ ν ε)
    (generation : Nat)
    (fill : Fill κ ν ε) :
    fill.state = .running ∨ fill.state = (service.refresh generation fill).state := by
  by_cases running : fill.state = .running
  · exact .inl running
  · rw [refresh_of_ne_running running]
    exact .inr rfl

/-- An error that was taken is not the result of a fill. -/
theorem state_of_taken (taken : (service.refresh generation fill).state = .failed none) :
    fill.state = .failed none := by
  unfold refresh at taken
  split at taken
  · next result before given => cases result <;> cases taken
  · exact taken

theorem end?_eq_some_iff {ended : Option ν} :
    service.end? generation = some ended ↔
      ∃ fill, service.fills[generation]? = some fill ∧
        (service.refresh generation fill).state.end? = some ended := by
  unfold end? state?
  cases service.fills[generation]? with
  | none => simp
  | some fill => simp

theorem seen?_setFill_self (found : service.fills[generation]? = some fill) (new : Fill κ ν ε) :
    (service.setFill generation new).seen? generation = some new.state := by
  unfold seen? setFill
  rw [List.getElem?_set_self (List.getElem?_eq_some_iff.1 found).1]
  rfl

theorem seen?_setFill_of_ne (different : other ≠ generation) (new : Fill κ ν ε) :
    (service.setFill generation new).seen? other = service.seen? other := by
  unfold seen? setFill
  rw [List.getElem?_set_ne different.symm]

variable [DecidableEq κ]

/-- Waiting for a fill shows its end, or else that it has not ended. -/
theorem sees_await
    (service : MemoService κ ν ε)
    (key : κ)
    (generation : Nat) :
    Sees generation (service.seen? generation) (service.await key generation).1
      ((service.await key generation).2.seen? generation) := by
  have waited := awaited service key generation
  generalize service.await key generation = outcome at waited ⊢
  have before : ∀ fill, service.fills[generation]? = some fill →
      service.seen? generation = some fill.state := by
    intro fill found
    rw [seen?, found]
    rfl
  cases waited with
  | missing absent =>
      have none : service.seen? generation = none := by
        rw [seen?, absent]
        rfl
      exact .waits (.inl none)
  | @running fill found state =>
      have same := refresh_of_running state
      have after := seen?_setFill_self found (service.refresh generation fill)
      rw [same] at state
      rw [same, ← before fill found] at after
      rw [same, after]
      exact .waits (.inr ((before fill found).trans (congrArg some state)))
  | @succeeded fill value found state =>
      have after := seen?_setFill_self found (service.refresh generation fill)
      rw [state] at after
      have was := state_refresh service generation fill
      rw [state] at was
      change Sees _ _ _ ((service.setFill generation _).seen? generation)
      rw [after, before fill found]
      exact .succeeded (was.imp (congrArg some) (congrArg some))
  | @failed fill error found state =>
      have after := seen?_setFill_self found ⟨fill.key, .failed none⟩
      have was := state_refresh service generation fill
      rw [state] at was
      change Sees _ _ _ ((service.setFill generation _).seen? generation)
      rw [after, before fill found]
      exact .failed (was.imp (congrArg some) (congrArg some))
  | @taken fill found state =>
      have after := seen?_setFill_self found (service.refresh generation fill)
      rw [state] at after
      change Sees _ _ _ ((service.setFill generation _).seen? generation)
      rw [after, before fill found, state_of_taken state]
      exact .taken

/-- Waiting for a fill shows nothing of other fills. -/
theorem seen?_await_of_ne
    (different : other ≠ generation)
    (key : κ) :
    (service.await key generation).2.seen? other = service.seen? other := by
  have waited := awaited service key generation
  generalize service.await key generation = outcome at waited ⊢
  cases waited with
  | missing absent => rfl
  | running found state => exact seen?_setFill_of_ne different _
  | succeeded found state => exact seen?_setFill_of_ne different _
  | failed found state => exact seen?_setFill_of_ne different _
  | taken found state => exact seen?_setFill_of_ne different _

/-- Joining a fill shows no ends, since a fill that was just started is running. -/
theorem seen?_joining_iff
    (get : Get κ)
    (ended : state ≠ .running) :
    (service.joining get).seen? generation = some state ↔
      service.seen? generation = some state := by
  have joined := joined service get
  generalize service.joins? get = fill?, service.joining get = joining at joined
  cases joined with
  | before awaits => rfl
  | hit looksUp held fresh => rfl
  | waiting looksUp held => rfl
  | started looksUp missed =>
      unfold seen?
      rw [List.getElem?_append]
      split
      · rfl
      · next beyond =>
        rw [List.getElem?_eq_none (Nat.le_of_not_lt beyond)]
        constructor
        · intro found
          obtain ⟨new, listed, same⟩ := Option.map_eq_some_iff.1 found
          rw [List.mem_singleton.1 (List.mem_of_getElem? listed)] at same
          exact absurd same.symm ended
        · rintro ⟨⟩

/-- What gets have seen of a fill that has succeeded, or whose error was taken, stays so. -/
def Lasting : FillState ν ε → Prop
  | .succeeded _ | .failed none => True
  | .running | .failed (some _) => False

theorem Lasting.ne_running (lasting : Lasting state) : state ≠ .running := by
  rintro rfl
  exact lasting

omit [DecidableEq κ] in
theorem Sees.lasting
    {round : Round ν ε}
    {last : Option (FillState ν ε)}
    (sees : Sees generation (some state) round last)
    (lasting : Lasting state) :
    last = some state := by
  cases sees with
  | waits unended => rfl
  | succeeded was =>
      rcases was with running | same
      · exact absurd (Option.some.inj running) lasting.ne_running
      · exact same.symm
  | failed was =>
      rcases was with running | failing
      · exact absurd (Option.some.inj running) lasting.ne_running
      · rw [Option.some.inj failing] at lasting
        exact lasting.elim
  | taken => rfl

omit [DecidableEq κ] in
theorem Sees.waits_eq
    {waited : Nat}
    {before last : Option (FillState ν ε)}
    (sees : Sees generation before (.waits waited) last) :
    waited = generation := by
  cases sees
  rfl

omit [DecidableEq κ] in
/-- A fill is seen to have succeeded by whoever returns its value, or was seen so before. -/
theorem Sees.succeeded_iff
    {value : ν}
    {round : Round ν ε}
    {before last : Option (FillState ν ε)}
    (sees : Sees generation before round last) :
    last = some (.succeeded value) ↔
      round = .returned (.ok value) ∨ before = some (.succeeded value) := by
  cases sees with
  | waits unended => simp
  | succeeded was => rcases was with rfl | rfl <;> simp
  | failed was => rcases was with rfl | rfl <;> simp
  | taken => simp

theorem seen?_round
    {get : Get κ}
    (lasting : Lasting state)
    (seen : service.seen? generation = some state) :
    (service.round get).2.seen? generation = some state := by
  have joining := (seen?_joining_iff get lasting.ne_running).2 seen
  refine round_induction (motive := fun after => after.seen? generation = some state) joining ?_
  intro joined _
  by_cases same : generation = joined
  · subst same
    have sees := sees_await (service.joining get) get.key generation
    rw [joining] at sees
    exact sees.lasting lasting
  · rw [seen?_await_of_ne same]
    exact joining

theorem sees_round
    {get : Get κ}
    (joins : service.joins? get = some generation) :
    Sees generation ((service.joining get).seen? generation) (service.round get).1
      ((service.round get).2.seen? generation) := by
  rw [round_of_joins joins]
  exact sees_await ..

/-- In a round those fills are seen to have succeeded that had been seen so before, and the one whose
value is returned. -/
theorem succeeded_round_iff
    {get : Get κ}
    {value : ν} :
    (service.round get).2.seen? generation = some (.succeeded value) ↔
      (service.joins? get = some generation ∧ (service.round get).1 = .returned (.ok value)) ∨
        service.seen? generation = some (.succeeded value) := by
  have before : (service.joining get).seen? generation = some (.succeeded value) ↔
      service.seen? generation = some (.succeeded value) :=
    seen?_joining_iff get (by rintro ⟨⟩)
  rw [← before]
  cases joins : service.joins? get with
  | none =>
      obtain ⟨held, filledAt, -, -, hit⟩ := round_of_hit joins
      rw [hit]
      simp
  | some joined =>
      by_cases same : generation = joined
      · subst same
        rw [(sees_round joins).succeeded_iff]
        simp
      · have other : some joined ≠ some generation := fun equal =>
          same (Option.some.inj equal).symm
        rw [round_of_joins joins, seen?_await_of_ne same]
        simp [other]

/-- A round that has joined a fill goes on to wait for it, unless it ends the get or finds the error
of the fill taken. -/
theorem awaits_left
    {get left : Get κ}
    (joins : service.joins? get = some generation)
    (stays : (service.round get).1.left get.key = some left) :
    left.awaits = some generation ∨
      (service.round get).2.seen? generation = some (.failed none) := by
  have sees := sees_round joins
  generalize (service.joining get).seen? generation = before at sees
  generalize service.round get = outcome at sees stays ⊢
  obtain ⟨round, after⟩ := outcome
  dsimp only at sees stays ⊢
  generalize after.seen? generation = last at sees ⊢
  cases sees with
  | waits unended =>
      cases stays
      exact .inl rfl
  | succeeded was => cases stays
  | failed was => cases stays
  | taken => exact .inr rfl

/-- A get goes on waiting only for a fill that has not ended. -/
theorem end?_of_waits
    {key : κ}
    (waits : (service.await key generation).1 = .waits generation) :
    (service.await key generation).2.end? generation = none := by
  have waited := awaited service key generation
  generalize service.await key generation = outcome at waited waits ⊢
  cases waited with
  | missing absent =>
      unfold end? state?
      rw [absent]
      rfl
  | @running fill found state =>
      have same := refresh_of_running state
      have bound := (List.getElem?_eq_some_iff.1 found).1
      unfold end? state? setFill
      rw [List.getElem?_set_self bound, same]
      exact congrArg FillState.end? state
  | succeeded found state => cases waits
  | failed found state => cases waits
  | taken found state => cases waits

omit [DecidableEq κ] in
/-- A fill whose end was seen has ended. -/
theorem end?_of_seen?
    (seen : service.seen? generation = some state)
    (ended : state ≠ .running) :
    service.end? generation = state.end? := by
  obtain ⟨fill, found, rfl⟩ := Option.map_eq_some_iff.1 seen
  unfold end? state?
  rw [found, Option.map_some, refresh_of_ne_running ended]
  rfl

/-- How a fill has ended stays the same, but for the error, which may be taken. -/
theorem end?_await
    {key : κ}
    {waited : Nat}
    {ended : Option ν}
    (found : service.end? generation = some ended) :
    (service.await key waited).2.end? generation = some ended := by
  obtain ⟨fill, listed, own⟩ := end?_eq_some_iff.1 found
  have bound := (List.getElem?_eq_some_iff.1 listed).1
  have awaited := awaited service key waited
  generalize service.await key waited = outcome at awaited ⊢
  by_cases same : generation = waited
  · subst same
    -- Whatever the fill is replaced by has ended the same way, so nothing is left to take in.
    have kept : ∀ new : Fill κ ν ε, new.state.end? = some ended →
        (service.setFill generation new).end? generation = some ended := by
      intro new still
      have running : new.state ≠ .running := by
        intro running
        rw [running] at still
        cases still
      refine end?_eq_some_iff.2 ⟨new, List.getElem?_set_self bound, ?_⟩
      rw [refresh_of_ne_running running]
      exact still
    cases awaited with
    | missing absent => exact found
    | running given state =>
        cases listed.symm.trans given
        exact kept _ own
    | succeeded given state =>
        cases listed.symm.trans given
        exact kept _ own
    | failed given state =>
        cases listed.symm.trans given
        rw [state] at own
        exact kept _ own
    | taken given state =>
        cases listed.symm.trans given
        exact kept _ own
  · have others : ∀ new : Fill κ ν ε,
        (service.setFill waited new).end? generation = some ended := by
      intro new
      refine end?_eq_some_iff.2 ⟨fill, ?_, own⟩
      exact (List.getElem?_set_ne (Ne.symm same)).trans listed
    cases awaited with
    | missing absent => exact found
    | running given state => exact others _
    | succeeded given state => exact others _
    | failed given state => exact others _
    | taken given state => exact others _

theorem end?_joining
    {get : Get κ}
    {ended : Option ν}
    (found : service.end? generation = some ended) :
    (service.joining get).end? generation = some ended := by
  have joined := joined service get
  generalize service.joins? get = fill?, service.joining get = joining at joined
  cases joined with
  | before awaits => exact found
  | hit looksUp held fresh => exact found
  | waiting looksUp held => exact found
  | started looksUp missed =>
      obtain ⟨fill, listed, same⟩ := end?_eq_some_iff.1 found
      refine end?_eq_some_iff.2 ⟨fill, ?_, same⟩
      rw [List.getElem?_append_left (List.getElem?_eq_some_iff.1 listed).1]
      exact listed

theorem end?_poll
    {get : Get κ}
    {ended : Option ν}
    (found : service.end? generation = some ended) :
    (service.poll get).2.end? generation = some ended := by
  unfold poll
  generalize maxRounds = count
  induction count generalizing service get with
  | zero => exact found
  | succ count inductionHypothesis =>
      have next : (service.round get).2.end? generation = some ended :=
        round_induction (motive := fun after => after.end? generation = some ended)
          (end?_joining found) fun _ _ => end?_await (end?_joining found)
      unfold rounds
      generalize service.round get = outcome at next
      obtain ⟨round, after⟩ := outcome
      cases round with
      | returned result => exact next
      | waits waited => exact next
      | again => exact inductionHypothesis next

/-- Whoever has joined a fill that has ended by the end of the round returns its value or its error,
or finds the error taken. -/
theorem round_of_end?
    {get : Get κ}
    {ended : Option ν}
    (joins : service.joins? get = some generation)
    (found : (service.round get).2.end? generation = some ended) :
    (∃ value, ended = some value ∧ (service.round get).1 = .returned (.ok value)) ∨
      ended = none ∧
        ((∃ error, (service.round get).1 = .returned (.error error)) ∨
          (service.round get).1 = .again) := by
  have sees := sees_round joins
  have waits : (service.round get).1 = .waits generation →
      (service.round get).2.end? generation = none := by
    rw [round_of_joins joins]
    exact end?_of_waits
  generalize (service.joining get).seen? generation = before at sees
  generalize service.round get = outcome at sees waits found ⊢
  obtain ⟨round, after⟩ := outcome
  dsimp only at sees waits found ⊢
  generalize seen : after.seen? generation = last at sees
  cases sees with
  | waits unended =>
      rw [waits rfl] at found
      cases found
  | @succeeded value _ was =>
      rw [end?_of_seen? seen (by rintro ⟨⟩)] at found
      exact .inl ⟨value, (Option.some.inj found).symm, rfl⟩
  | failed was =>
      rw [end?_of_seen? seen (by rintro ⟨⟩)] at found
      exact .inr ⟨(Option.some.inj found).symm, .inl ⟨_, rfl⟩⟩
  | taken =>
      rw [end?_of_seen? seen (by rintro ⟨⟩)] at found
      exact .inr ⟨(Option.some.inj found).symm, .inr rfl⟩

end MemoService

namespace Usage

variable
  [DecidableEq κ]
  {allowed : Nat → Except ε ν → Prop}
  {start usage last : Usage κ ν ε}
  {past : List (Visit κ ν ε)}
  {number generation : Nat}
  {get : Get κ}

/-- Only polls see ends and start fills. -/
theorem fills_use {use : Use κ ν ε} (quiet : ∀ number, use ≠ .poll number) :
    (usage.step use).service.fills = usage.service.fills := by
  cases use with
  | poll number => exact absurd rfl (quiet number)
  | settle generation result =>
      change (usage.service.settle generation result).fills = usage.service.fills
      unfold MemoService.settle
      split <;> rfl
  | _ => rfl

@[simp] theorem seen?_use
    {use : Use κ ν ε}
    (quiet : ∀ number, use ≠ .poll number)
    (generation : Nat) :
    (usage.step use).service.seen? generation = usage.service.seen? generation := by
  unfold MemoService.seen?
  rw [fills_use quiet]

theorem length_gets_use_le (use : Use κ ν ε) (quiet : ∀ number, use ≠ .poll number) :
    usage.gets.length ≤ (usage.step use).gets.length := by
  cases use with
  | poll number => exact absurd rfl (quiet number)
  | begin key =>
      change usage.gets.length ≤ (usage.gets ++ [_]).length
      rw [List.length_append]
      exact Nat.le_add_right _ _
  | drop number =>
      change usage.gets.length ≤ (usage.gets.set number none).length
      exact Nat.le_of_eq List.length_set.symm
  | _ => exact Nat.le_refl _

/-- Uses but polls take no get of those begun any further. -/
theorem live?_of_use
    {use : Use κ ν ε}
    (quiet : ∀ number, use ≠ .poll number)
    (begun : number < usage.gets.length)
    (live : (usage.step use).live? number = some get) :
    usage.live? number = some get := by
  cases use with
  | poll number => exact absurd rfl (quiet number)
  | begin key =>
      change (usage.gets ++ [_])[number]?.join = some get at live
      rwa [List.getElem?_append_left begun] at live
  | drop dropped =>
      change (usage.gets.set dropped none)[number]?.join = some get at live
      rw [List.getElem?_set] at live
      split at live
      · split at live <;> cases live
      · exact live
  | _ => exact live

/-- Gets are numbered below the number of gets begun. -/
theorem History.number_lt
    (history : History allowed start past last)
    {visit : Visit κ ν ε}
    (listed : visit ∈ past) :
    visit.number < last.gets.length := by
  induction history with
  | start => cases listed
  | use history quiet settles inductionHypothesis =>
      exact Nat.lt_of_lt_of_le (inductionHypothesis listed) (length_gets_use_le _ quiet)
  | round history live inductionHypothesis =>
      change visit.number < (List.set _ _ _).length
      rw [List.length_set]
      rcases List.mem_append.1 listed with before | now
      · exact inductionHypothesis before
      · rw [List.mem_singleton.1 now]
        exact lt_length_of_live? live

/-- What was seen of a fill that has succeeded, or whose error was taken, stays so. -/
theorem History.seen?
    (history : History allowed start past last)
    {state : FillState ν ε}
    (lasting : MemoService.Lasting state)
    (seen : start.service.seen? generation = some state) :
    last.service.seen? generation = some state := by
  induction history with
  | start => exact seen
  | use history quiet settles inductionHypothesis =>
      rw [seen?_use quiet]
      exact inductionHypothesis
  | round history live inductionHypothesis =>
      exact MemoService.seen?_round lasting inductionHypothesis

/-- A get that has joined a fill waits for it until it returns or the error of the fill is taken. -/
theorem History.awaits
    (history : History allowed start past last)
    {visit : Visit κ ν ε}
    (listed : visit ∈ past)
    (joins : visit.fill? = some generation)
    (live : last.live? visit.number = some get) :
    get.awaits = some generation ∨ last.service.seen? generation = some (.failed none) := by
  have lasting : MemoService.Lasting (.failed none : FillState ν ε) := trivial
  induction history generalizing get with
  | start => cases listed
  | use history quiet settles inductionHypothesis =>
      have before := live?_of_use quiet (history.number_lt listed) live
      rw [seen?_use quiet]
      exact inductionHypothesis listed before
  | @round past usage history number polled liveBefore inductionHypothesis =>
      rcases List.mem_append.1 listed with before | now
      · by_cases same : visit.number = number
        · rw [same, live?_advance_self liveBefore] at live
          rcases inductionHypothesis before (same ▸ liveBefore) with awaits | taken
          · exact MemoService.awaits_left (MemoService.joins?_of_awaits awaits) live
          · exact .inr (MemoService.seen?_round lasting taken)
        · rw [live?_advance_of_ne same] at live
          exact (inductionHypothesis before live).imp_right (MemoService.seen?_round lasting)
      · obtain rfl := List.mem_singleton.1 now
        rw [live?_advance_self liveBefore] at live
        exact MemoService.awaits_left joins live

end Usage

/-- In one of some visits a get has come to wait for a fill. -/
def Usage.HasJoined
    [DecidableEq κ]
    (visits : List (Visit κ ν ε))
    (number generation : Nat) : Prop :=
  ∃ visit ∈ visits, visit.number = number ∧ visit.fill? = some generation

/-- The round returns the value of a fill that its get has joined. -/
def Visit.Completes [DecidableEq κ] (visit : Visit κ ν ε) (generation : Nat) (value : ν) : Prop :=
  visit.fill? = some generation ∧ visit.result? = some (.ok value)

namespace Usage

variable
  [DecidableEq κ]
  {allowed : Nat → Except ε ν → Prop}
  {start last : Usage κ ν ε}
  {past : List (Visit κ ν ε)}
  {number generation : Nat}
  {get : Get κ}

theorem result?_eq_some_iff
    {visit : Visit κ ν ε}
    {result : Except ε ν} :
    visit.result? = some result ↔ (visit.service.round visit.get).1 = .returned result := by
  unfold Visit.result? MemoService.Round.result?
  cases (visit.service.round visit.get).1 <;> simp

theorem completes_iff
    (visit : Visit κ ν ε)
    {value : ν} :
    visit.Completes generation value ↔
      visit.service.joins? visit.get = some generation ∧
        (visit.service.round visit.get).1 = .returned (.ok value) :=
  and_congr_right fun _ => result?_eq_some_iff

/-- A get that waits for a fill has joined it, and goes on waiting for it when it is polled. -/
theorem hasJoined_of_awaits
    (live : last.live? number = some get)
    (awaits : get.awaits = some generation)
    (before : List (Visit κ ν ε)) :
    HasJoined (before ++ last.visits (.poll number)) number generation := by
  refine ⟨⟨number, get, last.service⟩, List.mem_append_right _ ?_, rfl,
    MemoService.joins?_of_awaits awaits⟩
  simp only [visits, live, MemoService.maxRounds, MemoService.found, List.map_cons]
  exact List.mem_cons_self

/-- A fill is seen to have succeeded with a value if a get has returned this value of it, and only
then. -/
theorem History.succeeded_iff
    (history : History allowed start past last)
    (unused : start.service.fills = [])
    {value : ν} :
    last.service.seen? generation = some (.succeeded value) ↔
      ∃ visit ∈ past, visit.Completes generation value := by
  induction history with
  | start =>
      unfold MemoService.seen?
      rw [unused]
      simp
  | use history quiet settles inductionHypothesis =>
      rw [seen?_use quiet]
      exact inductionHypothesis
  | @round past usage history number get live inductionHypothesis =>
      change (usage.service.round get).2.seen? generation = some (.succeeded value) ↔ _
      simp only [MemoService.succeeded_round_iff, inductionHypothesis, List.mem_append,
        List.mem_singleton, or_and_right, exists_or, exists_eq_left]
      rw [or_comm]
      exact or_congr_right (completes_iff ⟨number, get, usage.service⟩).symm

/-- The first part of a round starts a fill if it looks the key up and finds no slot or a value that
is too old, and only then. -/
theorem fillKeys_joining (visit : Visit κ ν ε) :
    visit.joining.fillKeys =
      visit.service.fillKeys ++ if visit.startsFill then [visit.get.key] else [] := by
  obtain ⟨number, get, service⟩ := visit
  have joined := MemoService.joined service get
  unfold Visit.joining Visit.startsFill
  dsimp only
  generalize service.joins? get = fill?, service.joining get = joining at joined
  cases joined with
  | before awaits =>
      rw [awaits]
      exact (List.append_nil _).symm
  | hit looksUp held fresh =>
      have found : service.memo.needsFill service.now get.key = false := by
        simp only [Memo.needsFill, held, fresh]
      rw [found, Bool.and_false]
      exact (List.append_nil _).symm
  | waiting looksUp held =>
      have found : service.memo.needsFill service.now get.key = false := by
        simp only [Memo.needsFill, held]
      rw [found, Bool.and_false]
      exact (List.append_nil _).symm
  | started looksUp missed =>
      rw [looksUp, missed]
      exact List.map_append

/-- The fills are started by the look-ups that find no slot or one whose value is too old, and by
nothing else. -/
theorem History.fillKeys
    (history : History allowed start past last) :
    last.service.fillKeys = start.service.fillKeys ++
      (past.filter Visit.startsFill).map fun visit => visit.get.key := by
  induction history with
  | start => exact (List.append_nil _).symm
  | use history quiet settles inductionHypothesis =>
      unfold MemoService.fillKeys at inductionHypothesis ⊢
      rw [fills_use quiet]
      exact inductionHypothesis
  | @round past usage history number get live inductionHypothesis =>
      have joining := fillKeys_joining ⟨number, get, usage.service⟩
      change (usage.service.round get).2.fillKeys = _
      change (usage.service.joining get).fillKeys = usage.service.fillKeys ++ _ at joining
      rw [MemoService.fillKeys_round, joining, inductionHypothesis, List.filter_append,
        List.map_append, List.append_assoc, List.filter_cons, List.filter_nil]
      split <;> rfl

end Usage
end BuildQueue
