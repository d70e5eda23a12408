import BuildQueue.Proofs.Memo.Table
import BuildQueue.Proofs.Memo.Usage

/-!
# Histories of a memo service

A poll takes its get through one round after the other. A history takes a usage through one round
at a time, with other uses between the rounds, and keeps the visits so far. Every run is a history,
and so is every part of a run up to one of its visits; what each round and each other use keeps
therefore holds wherever a run comes to.

A round has two parts. A get that waits for no fill looks its key up, and joins the fill of a
waiting slot or starts one; unless this gave a value the get then waits for the fill that it joined.
-/

namespace BuildQueue

variable {κ ν ε : Type}

/-- The fill that a look-up joins or starts, if it finds no value. -/
def Memo.Lookup.fill? : Memo.Lookup ν → Option Nat
  | hit _ => none
  | joined generation | started generation => some generation

namespace MemoService

/-- What a round returns. -/
def Round.result? : Round ν ε → Option (Except ε ν)
  | .returned result => some result
  | .waits _ | .again => none

/-- What is left of a get of a key after a round. -/
def Round.left (key : κ) : Round ν ε → Option (Get κ)
  | .returned _ => none
  | .waits generation => some ⟨key, some generation⟩
  | .again => some ⟨key, none⟩

/-- The state of a fill as whoever waits for it now would find it. -/
def state? (service : MemoService κ ν ε) (generation : Nat) : Option (FillState ν ε) :=
  (service.fills[generation]?).map fun fill => (service.refresh generation fill).state

variable [DecidableEq κ]

/-- The fill that a round of a get waits for, none if a look-up gives a value. -/
def joins? (service : MemoService κ ν ε) (get : Get κ) : Option Nat :=
  match get.awaits with
  | some generation => some generation
  | none => (service.memo.lookup service.now get.key).1.fill?

theorem joins?_of_awaits
    {service : MemoService κ ν ε}
    {get : Get κ}
    {generation : Nat}
    (awaits : get.awaits = some generation) :
    service.joins? get = some generation := by
  rw [joins?, awaits]

/-- The service in which a round of a get waits: the key of a get that waits for no fill has been
looked up, and a fill started if the look-up starts one. -/
def joining (service : MemoService κ ν ε) (get : Get κ) : MemoService κ ν ε :=
  match get.awaits with
  | some _ => service
  | none =>
    match service.memo.lookup service.now get.key with
    | (.started _, memo) =>
      { service with memo, fills := service.fills ++ [Fill.mk get.key .running] }
    | (_, memo) => { service with memo }

/-- What the first part of a round comes to. -/
inductive Joined (service : MemoService κ ν ε) (get : Get κ) :
    Option Nat → MemoService κ ν ε → Prop where
  /-- The get has joined a fill before. -/
  | before
      {generation : Nat}
      (awaits : get.awaits = some generation) :
      Joined service get (some generation) service
  | hit
      {value : ν}
      {filledAt : Nat}
      (looksUp : get.awaits = none)
      (held : service.memo.slot? get.key = some (.complete value filledAt))
      (fresh : service.memo.isExpired service.now filledAt = false) :
      Joined service get none
        { service with
          memo := { service.memo.touch get.key with hits := service.memo.hits + 1 } }
  | waiting
      {generation : Nat}
      (looksUp : get.awaits = none)
      (held : service.memo.slot? get.key = some (.waiting generation)) :
      Joined service get (some generation)
        { service with
          memo := { service.memo.touch get.key with hits := service.memo.hits + 1 } }
  | started
      (looksUp : get.awaits = none)
      (missed : service.memo.needsFill service.now get.key = true) :
      Joined service get (some service.memo.nextGeneration)
        { service with
          memo := ((service.memo.touch get.key).start get.key).2
          fills := service.fills ++ [Fill.mk get.key .running] }

theorem joined (service : MemoService κ ν ε) (get : Get κ) :
    Joined service get (service.joins? get) (service.joining get) := by
  unfold joins? joining
  cases awaits : get.awaits with
  | some generation => exact .before awaits
  | none =>
      have looked := Memo.looked service.now service.memo get.key
      generalize service.memo.lookup service.now get.key = outcome at looked
      cases looked with
      | hit held fresh => exact .hit awaits held fresh
      | joined held => exact .waiting awaits held
      | started missed => exact .started awaits missed

/-- Joining a fill may start it, after all that have started before. -/
theorem extends_joining (service : MemoService κ ν ε) (get : Get κ) :
    Extends (service.joining get) service := by
  have joined := joined service get
  generalize service.joins? get = fill?, service.joining get = joining at joined
  cases joined with
  | before awaits => exact .refl service
  | hit looksUp held fresh => exact .refl service
  | waiting looksUp held => exact .refl service
  | started looksUp missed =>
      unfold Extends fillKeys
      rw [List.map_append]
      exact List.prefix_append ..

/-- A round waits for the fill that it joins. -/
theorem round_of_joins
    {service : MemoService κ ν ε}
    {get : Get κ}
    {generation : Nat}
    (joins : service.joins? get = some generation) :
    service.round get = (service.joining get).await get.key generation := by
  unfold joins? at joins
  unfold round joining request
  cases awaits : get.awaits with
  | some waited =>
      rw [awaits] at joins
      cases joins
      rfl
  | none =>
      rw [awaits] at joins
      generalize service.memo.lookup service.now get.key = outcome at joins ⊢
      obtain ⟨lookup, memo⟩ := outcome
      cases lookup <;> cases joins <;> rfl

/-- A round that joins no fill returns a value that the table holds. -/
theorem round_of_hit
    {service : MemoService κ ν ε}
    {get : Get κ}
    (joins : service.joins? get = none) :
    ∃ value filledAt, get.awaits = none ∧
      service.memo.slot? get.key = some (.complete value filledAt) ∧
      service.round get = (.returned (.ok value), service.joining get) := by
  unfold joins? at joins
  unfold round joining request
  cases awaits : get.awaits with
  | some waited =>
      rw [awaits] at joins
      cases joins
  | none =>
      rw [awaits] at joins
      have looked := Memo.looked service.now service.memo get.key
      generalize service.memo.lookup service.now get.key = outcome at joins looked ⊢
      cases looked with
      | hit held fresh => exact ⟨_, _, rfl, held, rfl⟩
      | joined held => cases joins
      | started missed => cases joins

/-- Whatever both parts of a round keep is kept by the round. -/
theorem round_induction
    {motive : MemoService κ ν ε → Prop}
    {service : MemoService κ ν ε}
    {get : Get κ}
    (joined : motive (service.joining get))
    (awaited : ∀ generation, service.joins? get = some generation →
      motive ((service.joining get).await get.key generation).2) :
    motive (service.round get).2 := by
  cases joins : service.joins? get with
  | none =>
      obtain ⟨value, filledAt, -, -, hit⟩ := round_of_hit joins
      rw [hit]
      exact joined
  | some generation =>
      rw [round_of_joins joins]
      exact awaited generation joins

/-- Only the first part of a round starts fills. -/
theorem fillKeys_round (service : MemoService κ ν ε) (get : Get κ) :
    (service.round get).2.fillKeys = (service.joining get).fillKeys :=
  round_induction (motive := fun after => after.fillKeys = (service.joining get).fillKeys) rfl
    fun _ _ => fillKeys_await ..

section Every

variable {condition : κ → Slot ν → Prop} {service : MemoService κ ν ε} {get : Get κ}

/-- Only the slot of a fill that is started is new when a get joins a fill. -/
theorem every_joining
    (every : service.memo.Every condition)
    (get : Get κ)
    (new : condition get.key (.waiting service.memo.nextGeneration)) :
    (service.joining get).memo.Every condition := by
  have touched := every.touch get.key
  have joined := joined service get
  generalize service.joins? get = fill?, service.joining get = joining at joined
  cases joined with
  | before awaits => exact every
  | hit looksUp held fresh => exact touched
  | waiting looksUp held => exact touched
  | started looksUp missed =>
      refine touched.start ?_
      rw [Memo.nextGeneration_touch]
      exact new

/-- Only the value of the fill is new when a get waits for it, in the slot that waited for it. -/
theorem every_await
    {key : κ}
    {generation : Nat}
    (every : service.memo.Every condition)
    (new : ∀ value, (service.await key generation).1 = .returned (.ok value) →
      service.memo.owns key generation = true → condition key (.complete value service.now)) :
    (service.await key generation).2.memo.Every condition := by
  have awaited := awaited service key generation
  generalize service.await key generation = outcome at awaited new
  cases awaited with
  | missing absent => exact every
  | running found state => exact every
  | succeeded found state =>
      change (service.memo.publish service.now key generation _).Every condition
      unfold Memo.publish
      split
      · next owned => exact every.put (new _ rfl owned)
      · exact every
  | failed found state => exact every.abandon key generation
  | taken found state => exact every.abandon key generation

@[simp] theorem now_joining : (service.joining get).now = service.now := by
  have joined := joined service get
  generalize service.joins? get = fill?, service.joining get = joining at joined
  cases joined <;> rfl

/-- A look-up that finds its key waiting for a fill joins this fill. -/
theorem joins?_of_waiting
    {generation : Nat}
    (looksUp : get.awaits = none)
    (held : service.memo.slot? get.key = some (.waiting generation)) :
    service.joins? get = some generation := by
  unfold joins? Memo.lookup
  rw [looksUp, held]
  rfl

end Every

end MemoService

namespace Visit

variable [DecidableEq κ]

/-- The fill that the round waits for, none if it finds a value. -/
def fill? (visit : Visit κ ν ε) : Option Nat := visit.service.joins? visit.get

/-- The service in which the round waits. -/
def joining (visit : Visit κ ν ε) : MemoService κ ν ε := visit.service.joining visit.get

/-- The service as the round leaves it. -/
def after (visit : Visit κ ν ε) : MemoService κ ν ε := (visit.service.round visit.get).2

/-- What the round returns. -/
def result? (visit : Visit κ ν ε) : Option (Except ε ν) :=
  (visit.service.round visit.get).1.result?

/-- What a poll comes to whose last round is this one. -/
def progress (visit : Visit κ ν ε) : Progress κ ν ε :=
  match (visit.service.round visit.get).1 with
  | .returned result => .returned result
  | .waits generation => .pending ⟨visit.get.key, some generation⟩
  | .again => .pending ⟨visit.get.key, none⟩

/-- A round that does not start over is the last one of its poll. -/
theorem rounds_of_ends
    (visit : Visit κ ν ε)
    (ends : (visit.service.round visit.get).1 ≠ .again)
    (count : Nat) :
    visit.service.found visit.get (count + 1) = [(visit.get, visit.service)] ∧
      visit.service.rounds visit.get (count + 1) = (visit.progress, visit.after) := by
  unfold MemoService.found MemoService.rounds progress after
  generalize visit.service.round visit.get = outcome at ends
  obtain ⟨round, after⟩ := outcome
  cases round with
  | returned result => exact ⟨rfl, rfl⟩
  | waits generation => exact ⟨rfl, rfl⟩
  | again => exact absurd rfl ends

/-- Whether the round looks its key up and finds nothing that it could return or join. -/
def startsFill (visit : Visit κ ν ε) : Bool :=
  visit.get.awaits.isNone && visit.service.memo.needsFill visit.service.now visit.get.key

end Visit

/-- A condition on the results with which a use settles fills. -/
def Use.Settles (allowed : Nat → Except ε ν → Prop) : Use κ ν ε → Prop
  | settle generation result => allowed generation result
  | _ => True

namespace Usage

variable [DecidableEq κ]

/-- The usage after one round of a live get. -/
def advance (usage : Usage κ ν ε) (number : Nat) (get : Get κ) : Usage κ ν ε where
  service := (usage.service.round get).2
  gets := usage.gets.set number ((usage.service.round get).1.left get.key)

/-- What a usage may have come to, round by round, with the visits since. Fills are settled with
allowed results only. -/
inductive History (allowed : Nat → Except ε ν → Prop) (start : Usage κ ν ε) :
    List (Visit κ ν ε) → Usage κ ν ε → Prop where
  | start : History allowed start [] start
  | use
      {past : List (Visit κ ν ε)}
      {usage : Usage κ ν ε}
      (history : History allowed start past usage)
      {use : Use κ ν ε}
      (quiet : ∀ number, use ≠ .poll number)
      (settles : use.Settles allowed) :
      History allowed start past (usage.step use)
  | round
      {past : List (Visit κ ν ε)}
      {usage : Usage κ ν ε}
      (history : History allowed start past usage)
      {number : Nat}
      {get : Get κ}
      (live : usage.live? number = some get) :
      History allowed start (past ++ [⟨number, get, usage.service⟩]) (usage.advance number get)

variable
  {allowed : Nat → Except ε ν → Prop}
  {start usage last : Usage κ ν ε}
  {past : List (Visit κ ν ε)}
  {number : Nat}
  {get : Get κ}

omit [DecidableEq κ] in
theorem lt_length_of_live?
    {usage : Usage κ ν ε}
    (live : usage.live? number = some get) :
    number < usage.gets.length :=
  (List.getElem?_eq_some_iff.1 (Option.join_eq_some_iff.1 live)).1

theorem live?_advance_self
    (live : usage.live? number = some get) :
    (usage.advance number get).live? number = (usage.service.round get).1.left get.key := by
  unfold live? advance
  rw [List.getElem?_set_self (lt_length_of_live? live)]
  rfl

theorem live?_advance_of_ne
    {other : Nat}
    (different : other ≠ number) :
    (usage.advance number get).live? other = usage.live? other := by
  unfold live? advance
  rw [List.getElem?_set_ne different.symm]

/-- The usage after some rounds of a live get, with what they come to. -/
theorem History.rounds
    (history : History allowed start past usage)
    (live : usage.live? number = some get)
    (count : Nat) :
    History allowed start
      (past ++ (usage.service.found get count).map fun (get, service) => ⟨number, get, service⟩)
      ⟨(usage.service.rounds get count).2,
        usage.gets.set number
          (match (usage.service.rounds get count).1 with
          | .returned _ => none
          | .pending left => some left)⟩ := by
  induction count generalizing past usage get with
  | zero =>
      have same : usage.gets.set number (some get) = usage.gets := by
        obtain ⟨bound, value⟩ := List.getElem?_eq_some_iff.1 (Option.join_eq_some_iff.1 live)
        rw [← value]
        exact List.set_getElem_self bound
      change History allowed start (past ++ []) ⟨usage.service, usage.gets.set number (some get)⟩
      rw [List.append_nil, same]
      exact history
  | succ count inductionHypothesis =>
      have next := history.round live
      have left := live?_advance_self live
      unfold MemoService.found MemoService.rounds
      unfold advance at next left
      generalize usage.service.round get = outcome at next left
      obtain ⟨round, after⟩ := outcome
      rw [List.map_cons, ← List.singleton_append, ← List.append_assoc]
      cases round with
      | returned result =>
          rw [List.map_nil, List.append_nil]
          exact next
      | waits generation =>
          rw [List.map_nil, List.append_nil]
          exact next
      | again =>
          have rest := inductionHypothesis next left
          simp only [List.set_set] at rest
          exact rest

theorem History.poll
    (history : History allowed start past usage)
    (live : usage.live? number = some get) :
    History allowed start (past ++ usage.visits (.poll number)) (usage.poll number get) := by
  have rounds := history.rounds live MemoService.maxRounds
  have same : usage.visits (.poll number) =
      (usage.service.found get MemoService.maxRounds).map fun (get, service) =>
        ⟨number, get, service⟩ := by
    simp only [visits, live]
  rw [same]
  unfold Usage.poll MemoService.poll
  generalize usage.service.rounds get MemoService.maxRounds = outcome at rounds
  obtain ⟨progress, service⟩ := outcome
  cases progress <;> exact rounds

/-- If no get starts over twice then a poll ends with its last visit. -/
theorem exists_last_visit
    (live : usage.live? number = some get)
    (once : ∀ after, usage.service.round get = (.again, after) →
      (after.round ⟨get.key, none⟩).1 ≠ .again) :
    ∃ (initial : List (Visit κ ν ε)) (visit : Visit κ ν ε),
      usage.visits (.poll number) = initial ++ [visit] ∧
      visit.number = number ∧ visit.get.key = get.key ∧
      (visit.service.round visit.get).1 ≠ .again ∧
      usage.service.poll get = (visit.progress, visit.after) := by
  have visited : usage.visits (.poll number) =
      (usage.service.found get MemoService.maxRounds).map fun (get, service) =>
        ⟨number, get, service⟩ := by
    simp only [visits, live]
  rw [visited]
  unfold MemoService.poll MemoService.maxRounds
  by_cases again : (usage.service.round get).1 = .again
  · have first : usage.service.round get = (.again, (usage.service.round get).2) :=
      Prod.ext again rfl
    let visit : Visit κ ν ε := ⟨number, ⟨get.key, none⟩, (usage.service.round get).2⟩
    have ends : (visit.service.round visit.get).1 ≠ .again := once _ first
    obtain ⟨found, rounds⟩ := visit.rounds_of_ends ends 1
    refine ⟨[⟨number, get, usage.service⟩], visit, ?_, rfl, rfl, ends, ?_⟩
    · unfold MemoService.found
      rw [first]
      exact congrArg (fun rest => List.map _ ((get, usage.service) :: rest)) found
    · unfold MemoService.rounds
      rw [first]
      exact rounds
  · let visit : Visit κ ν ε := ⟨number, get, usage.service⟩
    obtain ⟨found, rounds⟩ := visit.rounds_of_ends again 2
    exact ⟨[], visit, congrArg (List.map _) found, rfl, rfl, again, rounds⟩

/-- A use takes a usage through its visits. -/
theorem History.step
    (history : History allowed start past usage)
    {use : Use κ ν ε}
    (settles : use.Settles allowed) :
    History allowed start (past ++ usage.visits use) (usage.step use) := by
  cases use with
  | poll number =>
      cases live : usage.live? number with
      | none =>
          simp only [Usage.step, visits, live, List.append_nil]
          exact history
      | some get =>
          have polled := history.poll live
          simpa only [Usage.step, live] using polled
  | _ =>
      simp only [visits, List.append_nil]
      exact history.use (fun _ same => by cases same) settles

/-- A run is a history. -/
theorem History.run
    (history : History allowed start past usage)
    {uses : List (Use κ ν ε)}
    (settles : ∀ use ∈ uses, use.Settles allowed) :
    History allowed start (past ++ usage.trail uses) (usage.run uses) := by
  induction uses generalizing past usage with
  | nil =>
      rw [trail, List.append_nil]
      exact history
  | cons use rest inductionHypothesis =>
      have next := history.step (settles use List.mem_cons_self)
      rw [trail, ← List.append_assoc]
      exact inductionHypothesis next fun later listed =>
        settles later (List.mem_cons_of_mem use listed)

/-- A history leads up to each of its visits, and on from there. -/
theorem History.split
    (history : History allowed start past last)
    {earlier later : List (Visit κ ν ε)}
    {visit : Visit κ ν ε}
    (split : past = earlier ++ visit :: later) :
    ∃ usage, History allowed start earlier usage ∧
      visit.service = usage.service ∧
      usage.live? visit.number = some visit.get ∧
      History allowed (usage.advance visit.number visit.get) later last := by
  induction history generalizing later with
  | start =>
      cases earlier <;> cases split
  | use history quiet settles inductionHypothesis =>
      obtain ⟨usage, before, same, live, after⟩ := inductionHypothesis split
      exact ⟨usage, before, same, live, after.use quiet settles⟩
  | @round past usage history number get live inductionHypothesis =>
      -- The visit is that of the last round, or one before it.
      rcases List.eq_nil_or_concat later with rfl | ⟨rest, last, rfl⟩
      · obtain ⟨rfl, same⟩ := List.append_inj' split rfl
        cases same
        exact ⟨usage, history, rfl, live, .start⟩
      · rw [List.concat_eq_append, ← List.cons_append, ← List.append_assoc] at split
        obtain ⟨pastSplit, same⟩ := List.append_inj' split rfl
        cases same
        obtain ⟨before, leads, same, liveBefore, after⟩ := inductionHypothesis pastSplit
        refine ⟨before, leads, same, liveBefore, ?_⟩
        rw [List.concat_eq_append]
        exact after.round live

/-- A history leads up to each of its visits. -/
theorem History.visited
    (history : History allowed start past last)
    {visit : Visit κ ν ε}
    (listed : visit ∈ past) :
    ∃ earlier usage, History allowed start earlier usage ∧
      visit.service = usage.service ∧ usage.live? visit.number = some visit.get := by
  obtain ⟨earlier, later, split⟩ := List.append_of_mem listed
  obtain ⟨usage, before, same, live, -⟩ := history.split split
  exact ⟨earlier, usage, before, same, live⟩

/-- Uses but polls create no slots. -/
theorem every_use
    {condition : κ → Slot ν → Prop}
    {use : Use κ ν ε}
    (every : usage.service.memo.Every condition)
    (quiet : ∀ number, use ≠ .poll number) :
    (usage.step use).service.memo.Every condition := by
  cases use with
  | poll number => exact absurd rfl (quiet number)
  | settle generation result =>
      change (usage.service.settle generation result).memo.Every condition
      unfold MemoService.settle
      split <;> exact every
  | invalidate key => exact every.invalidate key
  | clear => exact fun _ listed => by cases listed
  | present key => exact every.touch key
  | begin key => exact every
  | drop number => exact every
  | tick instant => exact every

/-- Fills that have started stay the same. -/
theorem History.extends (history : History allowed start past last) :
    last.service.Extends start.service := by
  induction history with
  | start => exact .refl _
  | use history quiet settles inductionHypothesis =>
      exact (extends_step _ _).trans inductionHypothesis
  | round history live inductionHypothesis =>
      exact (MemoService.extends_round _ _).trans inductionHypothesis

end Usage
end BuildQueue
