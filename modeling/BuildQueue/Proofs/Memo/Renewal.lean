import BuildQueue.Proofs.Memo.Finality
import BuildQueue.Proofs.Memo.Sharing

/-!
# Look-ups without a time to live

If values may be served for no time at all then a look-up never returns one that the table holds: it
starts a fill of its own unless the slot of its key waits. Every slot that waits does so for a fill
for which some get was left waiting by its last round. This get may still be live. It may also have
been dropped, since dropping a get leaves the slot as it is; a later look-up of the key then joins a
fill that had started before, although nobody else waits for it.
-/

namespace BuildQueue

namespace MemoService

variable {κ ν ε : Type} [DecidableEq κ]

/-- A slot after the first part of a round was there before, or it waits for the fill that the get
has joined. -/
theorem mem_of_mem_joining
    {service : MemoService κ ν ε}
    {get : Get κ}
    {entry : κ × Slot ν}
    (listed : entry ∈ (service.joining get).memo.entries) :
    entry ∈ service.memo.entries ∨
      ∃ generation, service.joins? get = some generation ∧
        entry = (get.key, .waiting generation) := by
  have here : service.memo.Every fun key slot => (key, slot) ∈ service.memo.entries :=
    fun _ listed => listed
  have touched := here.touch get.key
  have joined := joined service get
  generalize service.joins? get = fill?, service.joining get = joining at joined listed ⊢
  cases joined with
  | before awaits => exact .inl listed
  | hit looksUp held fresh => exact .inl (touched entry listed)
  | waiting looksUp held => exact .inl (touched entry listed)
  | started looksUp missed =>
      have either : (service.memo.touch get.key).Every fun key slot =>
          (key, slot) ∈ service.memo.entries ∨
            (key, slot) = (get.key, .waiting service.memo.nextGeneration) :=
        fun entry listed => .inl (touched entry listed)
      have numbered : (get.key, .waiting (service.memo.touch get.key).nextGeneration) =
          (get.key, Slot.waiting (ν := ν) service.memo.nextGeneration) := by
        rw [Memo.nextGeneration_touch]
      exact (either.start (.inr numbered) entry listed).imp_right fun new => ⟨_, rfl, new⟩

/-- Only the slots that waited before a get waits for a fill are waiting afterwards. -/
theorem mem_of_waiting_await
    {service : MemoService κ ν ε}
    {key owner : κ}
    {generation waited : Nat}
    (listed : (owner, .waiting waited) ∈ (service.await key generation).2.memo.entries) :
    (owner, .waiting waited) ∈ service.memo.entries := by
  have every : service.memo.Every fun other slot =>
      ∀ waited, slot = .waiting waited → (other, slot) ∈ service.memo.entries :=
    fun _ listed _ _ => listed
  exact every_await every (fun _ _ _ _ complete => by cases complete) _ listed waited rfl

/-- A slot that waits after a round does so for the fill that the get has been left waiting for, or
it waited before for another fill. -/
theorem Tracked.waiting_of_round
    {service : MemoService κ (Stamped ν) (Stamped ε)}
    {get : Get κ}
    {owner : κ}
    {generation : Nat}
    (tracked : Tracked service)
    (awaits : Awaits service get)
    (listed : (owner, .waiting generation) ∈ (service.round get).2.memo.entries) :
    (owner = get.key ∧ (service.round get).1 = .waits generation) ∨
      (service.joins? get ≠ some generation ∧
        (owner, .waiting generation) ∈ service.memo.entries) := by
  by_cases joins : service.joins? get = some generation
  · have shown : (service.round get).2.fills[generation]? = some ⟨owner, .running⟩ :=
      (tracked.round awaits).slots _ listed
    have own : owner = get.key := by
      have filled := tracked.fillKeys_of_joins awaits joins
      rw [← fillKeys_round, fillKeys_getElem? shown] at filled
      exact Option.some.inj filled
    refine .inl ⟨own, ?_⟩
    -- The fill of a slot that waits has not been seen to end, so the round has not ended the get.
    have running : (service.round get).2.seen? generation = some .running := by
      unfold seen?
      rw [shown]
      rfl
    have sees := sees_round joins
    rw [running] at sees
    generalize (service.joining get).seen? generation = before at sees
    generalize (service.round get).1 = round at sees
    cases sees with
    | waits unended => rfl
  · refine .inr ⟨joins, ?_⟩
    have before : (owner, .waiting generation) ∈ (service.joining get).memo.entries :=
      round_induction (motive := fun after => (owner, .waiting generation) ∈ after.memo.entries →
        (owner, .waiting generation) ∈ (service.joining get).memo.entries) id
        (fun _ _ => mem_of_waiting_await) listed
    rcases mem_of_mem_joining before with here | ⟨joined, joinsToo, same⟩
    · exact here
    · cases same
      exact absurd joinsToo joins

end MemoService

namespace MemoService

variable
  {κ ν ε : Type}
  {key owner : κ}
  {low bound : Nat}
  {service : MemoService κ (Stamped ν) (Stamped ε)}
  {get : Get κ}

/-- A service is traced from a later fill on if no slot of the key belongs to an earlier one. -/
theorem Traced.from
    (traced : Traced key low service)
    (bounded : bound ≤ service.fills.length)
    (fresh : ∀ entry ∈ service.memo.entries, entry.1 = key → bound ≤ entry.2.fill) :
    Traced key bound service :=
  ⟨fun entry listed => ⟨(traced.slots entry listed).own, fresh entry listed⟩, traced.states,
    traced.results, traced.generation, bounded⟩

theorem waits_zero_of_awaits (awaits : Awaits service get) : Waits service key 0 get :=
  fun generation waiting => ⟨awaits generation waiting, fun _ => Nat.zero_le generation⟩

theorem key_left
    {round : Round ν ε}
    {left : Get κ}
    (stays : round.left owner = some left) :
    left.key = owner := by
  cases round <;> cases stays <;> rfl

/-- What is left of a get waits for the fill that its round has come to. -/
theorem waits_left
    {round : Round (Stamped ν) (Stamped ε)}
    {left : Get κ}
    (serves : ∀ fill, round.fill? = some fill → Serves service.fillKeys key bound owner fill)
    (stays : round.left owner = some left) :
    Waits service key bound left := by
  intro generation waiting
  cases round with
  | returned result => cases stays
  | waits waited =>
      cases stays
      cases waiting
      exact serves _ rfl
  | again =>
      cases stays
      cases waiting

variable [DecidableEq κ]

/-- A look-up that starts a fill replaces what its key had before, so that no slot of the key
belongs to an earlier fill. -/
theorem Tracked.traced_of_owns
    (tracked : Tracked service)
    (bounded : bound ≤ service.fills.length)
    (owned : service.memo.owns key bound = true) :
    Traced key bound service := by
  refine (tracked.traced key).from bounded fun entry listed own => ?_
  obtain ⟨owner, slot⟩ := entry
  obtain rfl : owner = key := own
  have held := (Memo.slot?_eq_some_iff tracked.tidy.distinct).2 listed
  rw [Memo.slot?_of_owns owned] at held
  cases held
  exact Nat.le_refl bound

end MemoService

namespace Usage

variable {κ ν ε : Type} [DecidableEq κ]

/-- The last round of a get has left it waiting for a fill of a key. -/
def LeftWaiting
    (visits : List (Visit κ ν ε))
    (number : Nat)
    (key : κ)
    (generation : Nat) : Prop :=
  ∃ earlier visit later, visits = earlier ++ visit :: later ∧ visit.number = number ∧
    visit.get.key = key ∧ (visit.service.round visit.get).1 = .waits generation ∧
    ∀ other ∈ later, other.number ≠ number

/-- A get was dropped while it waited for a fill of a key: its last round has left it waiting, and
it is not live any more. -/
def Deserted
    (visits : List (Visit κ ν ε))
    (usage : Usage κ ν ε)
    (key : κ)
    (generation : Nat) : Prop :=
  ∃ number, LeftWaiting visits number key generation ∧ usage.live? number = none

section History

variable
  {allowed : Nat → Except ε ν → Prop}
  {start last : Usage κ ν ε}
  {past : List (Visit κ ν ε)}
  {number generation : Nat}
  {get : Get κ}
  {key : κ}

theorem LeftWaiting.append
    {visit : Visit κ ν ε}
    (left : LeftWaiting past number key generation)
    (other : visit.number ≠ number) :
    LeftWaiting (past ++ [visit]) number key generation := by
  obtain ⟨earlier, last, later, rfl, same, own, waits, none⟩ := left
  refine ⟨earlier, last, later ++ [visit], by simp, same, own, waits, fun visited listed => ?_⟩
  rcases List.mem_append.1 listed with before | now
  · exact none visited before
  · rw [List.mem_singleton.1 now]
    exact other

theorem History.length_gets_le (history : History allowed start past last) :
    start.gets.length ≤ last.gets.length := by
  induction history with
  | start => exact Nat.le_refl _
  | use history quiet settles inductionHypothesis =>
      exact Nat.le_trans inductionHypothesis (length_gets_use_le _ quiet)
  | round history live inductionHypothesis =>
      exact Nat.le_trans inductionHypothesis (Nat.le_of_eq List.length_set.symm)

/-- A get that has begun and is not visited stays as it is until it is dropped. -/
theorem History.live?_of_unvisited
    (history : History allowed start past last)
    (begun : number < start.gets.length)
    (unvisited : ∀ visit ∈ past, visit.number ≠ number)
    (live : last.live? number = some get) :
    start.live? number = some get := by
  induction history with
  | start => exact live
  | use history quiet settles inductionHypothesis =>
      have begunThen := Nat.lt_of_lt_of_le begun history.length_gets_le
      exact inductionHypothesis unvisited (live?_of_use quiet begunThen live)
  | round history polled inductionHypothesis =>
      have other := unvisited _ (List.mem_append_right _ (List.mem_singleton_self _))
      rw [live?_advance_of_ne (Ne.symm other)] at live
      exact inductionHypothesis (fun visit listed =>
        unvisited visit (List.mem_append_left _ listed)) live

/-- A get keeps its key as long as it is live. -/
theorem History.live?_key
    (history : History allowed start past last)
    (begun : number < start.gets.length)
    (live : last.live? number = some get) :
    ∃ first, start.live? number = some first ∧ first.key = get.key := by
  induction history generalizing get with
  | start => exact ⟨get, live, rfl⟩
  | use history quiet settles inductionHypothesis =>
      have begunThen := Nat.lt_of_lt_of_le begun history.length_gets_le
      exact inductionHypothesis (live?_of_use quiet begunThen live)
  | @round _ _ history polled before liveBefore inductionHypothesis =>
      by_cases same : number = polled
      · subst same
        obtain ⟨first, found, own⟩ := inductionHypothesis liveBefore
        rw [live?_advance_self liveBefore] at live
        exact ⟨first, found, own.trans (MemoService.key_left live).symm⟩
      · rw [live?_advance_of_ne same] at live
        exact inductionHypothesis live

/-- A get that was left waiting for a fill waits for it as long as it is live. -/
theorem History.live?_of_leftWaiting
    (history : History allowed start past last)
    (left : LeftWaiting past number key generation)
    (live : last.live? number = some get) :
    get = ⟨key, some generation⟩ := by
  obtain ⟨earlier, visit, later, split, rfl, rfl, waits, unvisited⟩ := left
  obtain ⟨usage, -, same, liveBefore, follows⟩ := history.split split
  have begun : visit.number < (usage.advance visit.number visit.get).gets.length :=
    Nat.lt_of_lt_of_eq (lt_length_of_live? liveBefore) List.length_set.symm
  have liveThen := follows.live?_of_unvisited begun unvisited live
  rw [live?_advance_self liveBefore, ← same, waits] at liveThen
  exact (Option.some.inj liveThen).symm

end History

section Stamped

variable
  {start usage last : Usage κ (Stamped ν) (Stamped ε)}
  {past : List (Visit κ (Stamped ν) (Stamped ε))}

/-- Every slot that waits does so for a fill for which some get has been left waiting. -/
theorem History.attended
    (history : History IsStamped start past last)
    (tracked : start.Tracked)
    (empty : start.service.memo.entries = []) :
    last.service.memo.Every fun key slot => ∀ generation, slot = .waiting generation →
      ∃ number, LeftWaiting past number key generation := by
  induction history with
  | start =>
      intro entry listed
      rw [empty] at listed
      cases listed
  | use history quiet settles inductionHypothesis => exact every_use inductionHypothesis quiet
  | @round past usage history number get live inductionHypothesis =>
      rintro ⟨owner, slot⟩ listed generation rfl
      have trackedThen := history.tracked tracked
      rcases trackedThen.service.waiting_of_round (trackedThen.own live) listed with
        ⟨rfl, waits⟩ | ⟨other, before⟩
      · exact ⟨number, past, _, [], rfl, rfl, rfl, waits, by simp⟩
      · obtain ⟨attending, left⟩ := inductionHypothesis _ before generation rfl
        refine ⟨attending, left.append fun same => other ?_⟩
        obtain rfl : number = attending := same
        rw [history.live?_of_leftWaiting left live]
        exact MemoService.joins?_of_awaits rfl

omit [DecidableEq κ] in
/-- A use is a stamped one if what it settles fills with is stamped with their numbers. -/
theorem exists_eq_stamped
    {use : Use κ (Stamped ν) (Stamped ε)}
    (settles : use.Settles IsStamped) :
    ∃ plain : Use κ ν ε, use = plain.stamped := by
  cases use with
  | settle generation result =>
      obtain ⟨plain, rfl⟩ := settles
      exact ⟨.settle generation plain, rfl⟩
  | begin key => exact ⟨.begin key, rfl⟩
  | poll number => exact ⟨.poll number, rfl⟩
  | drop number => exact ⟨.drop number, rfl⟩
  | invalidate key => exact ⟨.invalidate key, rfl⟩
  | clear => exact ⟨.clear, rfl⟩
  | present key => exact ⟨.present key, rfl⟩
  | tick instant => exact ⟨.tick instant, rfl⟩

/-- A use keeps a usage traced. -/
theorem Traced.use
    {key : κ}
    {bound : Nat}
    {looked : Nat → Prop}
    {use : Use κ (Stamped ν) (Stamped ε)}
    (traced : usage.Traced key bound looked)
    (settles : use.Settles IsStamped) :
    (usage.step use).Traced key bound looked := by
  obtain ⟨plain, rfl⟩ := exists_eq_stamped settles
  exact (traced.step plain).mono fun _ => .inl

/-- A round of a live get keeps a usage traced. -/
theorem Traced.advance
    {key : κ}
    {bound number : Nat}
    {looked : Nat → Prop}
    {get : Get κ}
    (traced : usage.Traced key bound looked)
    (live : usage.live? number = some get) :
    (usage.advance number get).Traced key bound looked := by
  obtain ⟨later, own⟩ := traced.service.round (Nat.zero_le bound) (traced.own live)
  refine traced.setGet later (MemoService.extends_round usage.service get)
    (fun left stays => MemoService.waits_left own stays) (fun left stays seen => ?_)
    fun _ _ seen => seen
  obtain ⟨-, fresh⟩ := traced.service.round (Nat.le_refl bound) (traced.fresh live seen)
  exact MemoService.waits_left fresh stays

theorem History.traced
    {key : κ}
    {bound : Nat}
    {looked : Nat → Prop}
    (history : History IsStamped start past last)
    (traced : start.Traced key bound looked) :
    last.Traced key bound looked := by
  induction history with
  | start => exact traced
  | use history quiet settles inductionHypothesis => exact inductionHypothesis.use settles
  | round history live inductionHypothesis => exact inductionHypothesis.advance live

/-- A get that waits for no fill before some number returns what a later fill gives. -/
theorem History.le_origin
    {key : κ}
    {bound number : Nat}
    {visit : Visit κ (Stamped ν) (Stamped ε)}
    {result : Except (Stamped ε) (Stamped ν)}
    (history : History IsStamped start past last)
    (traced : start.Traced key bound (· = number))
    (begun : number < start.gets.length)
    (keyed : ∀ get, start.live? number = some get → get.key = key)
    (listed : visit ∈ past)
    (own : visit.number = number)
    (returned : visit.result? = some result) :
    bound ≤ origin result := by
  obtain ⟨earlier, usage, leads, same, live⟩ := history.visited listed
  rw [own] at live
  obtain ⟨first, found, sameKey⟩ := leads.live?_key begun live
  have tracedThen := leads.traced traced
  obtain ⟨-, serves⟩ :=
    tracedThen.service.round (Nat.le_refl bound) (tracedThen.fresh live rfl)
  rw [← same, result?_eq_some_iff.1 returned] at serves
  exact (serves (origin result) rfl).fresh (sameKey.symm.trans (keyed first found))

/-- After a get has started a fill no slot of its key belongs to an earlier one, and neither does
the get itself wait for an earlier one. -/
theorem Tracked.traced_advance
    {bound number : Nat}
    {get : Get κ}
    (tracked : usage.Tracked)
    (live : usage.live? number = some get)
    (joins : usage.service.joins? get = some bound)
    (owned : (usage.service.joining get).memo.owns get.key bound = true)
    (bounded : bound ≤ usage.service.fills.length) :
    (usage.advance number get).Traced get.key bound (· = number) := by
  have grown := (MemoService.extends_joining usage.service get).length_le
  rw [MemoService.fillKeys_length, MemoService.fillKeys_length] at grown
  have joined := (tracked.service.joining get).traced_of_owns (Nat.le_trans bounded grown) owned
  obtain ⟨later, only⟩ := joined.await get.key bound
  rw [← MemoService.round_of_joins joins] at later only
  have advanced := tracked.advance live
  refine ⟨later, fun left => MemoService.waits_zero_of_awaits (advanced.own left), ?_⟩
  rintro _ left stays rfl
  rw [live?_advance_self live] at stays
  refine MemoService.waits_left (fun fill came => ?_) stays
  obtain rfl := only fill came
  refine ⟨?_, fun _ => Nat.le_refl fill⟩
  change (usage.service.round get).2.fillKeys[fill]? = some get.key
  rw [MemoService.fillKeys_round]
  exact tracked.service.fillKeys_of_joins (tracked.own live) joins

/-- In the service of a table without time to live a look-up starts a fill just if its key does not
wait. -/
theorem History.startsFill_iff
    {place : κ → Nat}
    {entryLimit shards number : Nat}
    {filler : Filler κ (Stamped ν) (Stamped ε)}
    {get : Get κ}
    (history : History IsStamped (ofMemo (.empty place entryLimit shards (some 0)) filler) past
      usage)
    (looksUp : get.awaits = none) :
    (Visit.mk number get usage.service).startsFill = true ↔
      ∀ generation, usage.service.memo.slot? get.key ≠ some (.waiting generation) := by
  obtain ⟨-, counts⟩ := history.shape (.empty ..) (counts_ofMemo ..)
  have ttl : usage.service.memo.ttl = some 0 := congrArg Memo.ttl counts.table
  unfold Visit.startsFill Memo.needsFill
  rw [looksUp]
  cases usage.service.memo.slot? get.key with
  | none => simp
  | some slot => cases slot <;> simp [Memo.isExpired, ttl]

end Stamped

/-- Renewal. Let the values of a table have no time to live, and let a get look its key up while no
other live get of the key waits. It starts a fill of its own just if the slot of the key waits for
no fill that a get was waiting for when it was dropped. What the get returns then, now or later, is
what this fill gives or one that was started after it. -/
theorem look_ups_renew
    {place : κ → Nat}
    {entryLimit shards number : Nat}
    {filler : Filler κ ν ε}
    {past : List (Visit κ (Stamped ν) (Stamped ε))}
    {usage : Usage κ (Stamped ν) (Stamped ε)}
    {get : Get κ}
    (history : History IsStamped
      (ofMemo (.empty place entryLimit shards (some 0)) filler.stamped) past usage)
    (live : usage.live? number = some get)
    (looksUp : get.awaits = none)
    (alone : ∀ other waiting, usage.live? other = some waiting → waiting.key = get.key →
      waiting.awaits = none) :
    let visit : Visit κ (Stamped ν) (Stamped ε) := ⟨number, get, usage.service⟩
    (visit.startsFill = true ↔
      ∀ generation, usage.service.memo.slot? get.key = some (.waiting generation) →
        ¬ Deserted past usage get.key generation) ∧
      (visit.startsFill = true →
        visit.fill? = some usage.service.fills.length ∧
        ∀ later last, History IsStamped (usage.advance number get) later last →
          ∀ other ∈ visit :: later, other.number = number →
            ∀ result, other.result? = some result →
              usage.service.fills.length ≤ origin result) := by
  intro visit
  have start := tracked_ofMemo place entryLimit shards (some 0) filler
  have tracked := history.tracked start
  refine ⟨?_, fun starts => ?_⟩
  · rw [history.startsFill_iff looksUp]
    refine ⟨fun free generation held => absurd held (free generation),
      fun none generation held => ?_⟩
    obtain ⟨attending, left⟩ :=
      Memo.condition_of_slot? (history.attended start rfl) held generation rfl
    refine none generation held ⟨attending, left, ?_⟩
    -- A live get that was left waiting for this fill still waits for it, and here none does.
    cases attends : usage.live? attending with
    | none => rfl
    | some waiting =>
        obtain rfl := history.live?_of_leftWaiting left attends
        cases alone attending _ attends rfl
  · have next := history.round live
    obtain ⟨joins, owned⟩ :=
      next.owns_of_startsFill (List.mem_append_right _ (List.mem_singleton_self _)) starts
    refine ⟨joins, fun later last follows other listed own result returned => ?_⟩
    rcases List.mem_cons.1 listed with rfl | after
    · have stamped := tracked.service.origin_of_round joins (result?_eq_some_iff.1 returned)
      exact Nat.le_of_eq stamped.symm
    · have traced := tracked.traced_advance live joins owned (Nat.le_refl _)
      have begun : number < (usage.advance number get).gets.length :=
        Nat.lt_of_lt_of_eq (lt_length_of_live? live) List.length_set.symm
      refine follows.le_origin traced begun (fun left stays => ?_) after own returned
      rw [live?_advance_self live] at stays
      exact MemoService.key_left stays

/-- A get looks up what another one has returned before, and starts a fill all the same. -/
theorem look_ups_renew_returned :
    let uses : List (Use Nat Nat Nat) :=
      [.begin 7, .poll 0, .settle 0 (.ok 10), .poll 0, .begin 7]
    let start := ofMemo (.empty id 4 1 (some 0)) (Filler.manual []).stamped
    let usage := start.run (uses.map Use.stamped)
    usage.gets = [none, some ⟨7, none⟩] ∧
      usage.service.memo.slot? 7 = some (.complete ⟨0, 10⟩ 0) ∧
      (Visit.mk 1 ⟨7, none⟩ usage.service).startsFill = true := by
  intro uses start usage
  have gets : usage.gets = [none, some ⟨7, none⟩] := rfl
  have held : usage.service.memo.slot? 7 = some (.complete ⟨0, 10⟩ 0) := by decide +kernel
  have live : usage.live? 1 = some ⟨7, none⟩ := rfl
  have alone : ∀ other waiting, usage.live? other = some waiting → waiting.key = 7 →
      waiting.awaits = none := by
    intro other waiting found _
    unfold live? at found
    rw [gets] at found
    obtain _ | _ | _ := other <;> cases found
    rfl
  refine ⟨gets, held, (look_ups_renew (history_stamped start uses) live rfl alone).1.2 ?_⟩
  intro generation waits
  rw [held] at waits
  cases waits

/-- A get is dropped while it waits, and its slot stays. The next get finds nobody else waiting, and
still it starts no fill: it returns what the fill of the dropped get gives, which had started before
it began. -/
theorem look_up_joins_deserted :
    let uses : List (Use Nat Nat Nat) := [.begin 7, .poll 0, .drop 0, .settle 0 (.ok 10)]
    let start := ofMemo (.empty id 4 1 (some 0)) (Filler.manual []).stamped
    let before := start.run (uses.map Use.stamped)
    let usage := before.step (.begin 7)
    before.gets = [none] ∧ before.Filled 7 0 ∧ usage.live? 1 = some ⟨7, none⟩ ∧
      (Visit.mk 1 ⟨7, none⟩ usage.service).startsFill = false ∧
      (usage.service.poll ⟨7, none⟩).1 = .returned (.ok ⟨0, 10⟩) :=
  ⟨rfl, rfl, rfl, rfl, rfl⟩

end Usage

end BuildQueue
