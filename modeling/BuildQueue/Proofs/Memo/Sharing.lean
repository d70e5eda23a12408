import BuildQueue.Proofs.Memo.Tracking

/-!
# Fills are shared

A look-up starts a fill only where it finds nothing to return and no fill to join, so whoever looks
the key up while its slot waits joins the fill of this slot. When a fill has succeeded, everybody
who joined it gets its value. The first of them to do so stores the value if the slot of the key is
still the one that the fill created, and nobody stores it later.
-/

namespace BuildQueue

namespace MemoService

variable
  {κ ν ε : Type}
  [DecidableEq κ]
  {service : MemoService κ ν ε}
  {get : Get κ}

/-- What a get that returns the value of a fill does to the table. -/
theorem memo_of_completes
    {generation : Nat}
    {value : ν}
    (joins : service.joins? get = some generation)
    (completes : (service.round get).1 = .returned (.ok value)) :
    (service.round get).2.memo =
      (service.joining get).memo.publish service.now get.key generation value := by
  rw [round_of_joins joins] at completes ⊢
  have awaited := awaited (service.joining get) get.key generation
  generalize (service.joining get).await get.key generation = outcome at awaited completes ⊢
  cases awaited with
  | succeeded found state =>
      cases completes
      exact congrArg (Memo.publish · _ _ _ _) now_joining
  | missing absent => cases completes
  | running found state => cases completes
  | failed found state => cases completes
  | taken found state => cases completes

end MemoService

namespace Usage

variable
  {κ ν ε : Type}
  [DecidableEq κ]
  {allowed : Nat → Except ε ν → Prop}
  {start usage last : Usage κ ν ε}
  {past visits : List (Visit κ ν ε)}
  {visit : Visit κ ν ε}
  {generation : Nat}
  {value : ν}

/-- The visit is the first of some to return the value of a fill. -/
def FirstToComplete
    (visits : List (Visit κ ν ε))
    (visit : Visit κ ν ε)
    (generation : Nat)
    (value : ν) : Prop :=
  ∃ earlier later, visits = earlier ++ visit :: later ∧ visit.Completes generation value ∧
    ∀ other ∈ earlier, ∀ otherValue, ¬ other.Completes generation otherValue

theorem FirstToComplete.append
    (first : FirstToComplete visits visit generation value)
    (more : List (Visit κ ν ε)) :
    FirstToComplete (visits ++ more) visit generation value := by
  obtain ⟨earlier, later, rfl, completes, none⟩ := first
  exact ⟨earlier, later ++ more, by rw [List.append_assoc, List.cons_append], completes, none⟩

end Usage

namespace MemoService

variable
  {κ ν ε : Type}
  [DecidableEq κ]
  {service : MemoService κ (Stamped ν) (Stamped ε)}
  {get : Get κ}
  {key : κ}
  {generation : Nat}
  {value : Stamped ν}

/-- While a slot waits for a fill nobody has seen the end of the fill. -/
theorem Tracked.seen?_of_owns
    (tracked : Tracked service)
    (owned : service.memo.owns key generation = true) :
    service.seen? generation = some .running := by
  have shown : service.fills[generation]? = some ⟨key, .running⟩ :=
    Memo.condition_of_slot? tracked.slots (Memo.slot?_of_owns owned)
  rw [seen?, shown]
  rfl

/-- A slot that holds a value shows that its fill has succeeded with the value. -/
theorem Tracked.seen?_of_complete
    (tracked : Tracked service)
    {filledAt : Nat}
    (held : service.memo.slot? key = some (.complete value filledAt)) :
    service.seen? value.fill = some (.succeeded value) := by
  have shown : service.fills[value.fill]? = some ⟨key, .succeeded value⟩ :=
    Memo.condition_of_slot? tracked.slots held
  rw [seen?, shown]
  rfl

/-- The result of a fill that a get returns carries the number of this fill. -/
theorem Tracked.origin_of_round
    (tracked : Tracked service)
    {result : Except (Stamped ε) (Stamped ν)}
    (joins : service.joins? get = some generation)
    (returned : (service.round get).1 = .returned result) :
    origin result = generation := by
  have waited := ((tracked.traced get.key).joining get).1.await get.key generation
  rw [← round_of_joins joins] at waited
  refine waited.2 (origin result) ?_
  rw [returned]
  rfl

/-- A fill that a key was not waiting for any more is waited for by no slot. -/
theorem Tracked.every_ne_waiting
    (tracked : Tracked service)
    (filled : service.fillKeys[generation]? = some key)
    (lost : service.memo.owns key generation = false) :
    service.memo.Every fun _ slot => slot ≠ .waiting generation := by
  intro entry listed waiting
  obtain ⟨owner, slot⟩ := entry
  obtain rfl : slot = .waiting generation := waiting
  rw [tracked.owns_of_mem filled listed] at lost
  cases lost

end MemoService

namespace Usage

variable
  {κ ν ε : Type}
  [DecidableEq κ]
  {start usage last : Usage κ (Stamped ν) (Stamped ε)}
  {past : List (Visit κ (Stamped ν) (Stamped ε))}
  {visit : Visit κ (Stamped ν) (Stamped ε)}
  {generation : Nat}
  {value : Stamped ν}
  {key : κ}

/-- If a slot holds a value then the first get that returned the value has put it there, while the
slot still waited for the fill. -/
def PutFirst
    (visits : List (Visit κ (Stamped ν) (Stamped ε)))
    (key : κ)
    (slot : Slot (Stamped ν)) : Prop :=
  ∀ value filledAt, slot = .complete value filledAt →
    ∃ visit, FirstToComplete visits visit value.fill value ∧
      visit.get.key = key ∧ visit.service.now = filledAt ∧
      visit.joining.memo.owns key value.fill = true

/-- Only the first get that returns the value of a fill stores it. -/
theorem History.putFirst
    (history : History IsStamped start past last)
    (tracked : start.Tracked)
    (unused : start.service.fills = [])
    (empty : start.service.memo.entries = []) :
    last.service.memo.Every (PutFirst past) := by
  induction history with
  | start =>
      intro entry listed
      rw [empty] at listed
      cases listed
  | use history quiet settles inductionHypothesis => exact every_use inductionHypothesis quiet
  | @round past usage history number get live inductionHypothesis =>
      have trackedThen := history.tracked tracked
      have earlier : usage.service.memo.Every
          (PutFirst (past ++ [⟨number, get, usage.service⟩])) := by
        intro entry listed value filledAt held
        obtain ⟨visit, first, rest⟩ := inductionHypothesis entry listed value filledAt held
        exact ⟨visit, first.append _, rest⟩
      have joining := MemoService.every_joining earlier get fun _ _ waiting => by
        cases waiting
      refine MemoService.round_induction
        (motive := fun after => after.memo.Every _) joining fun generation joins => ?_
      refine MemoService.every_await joining fun value returned owned => ?_
      rw [← MemoService.round_of_joins joins] at returned
      have stamped : value.fill = generation := trackedThen.service.origin_of_round joins returned
      subst stamped
      rintro _ _ ⟨⟩
      refine ⟨⟨number, get, usage.service⟩, ⟨past, [], rfl, ⟨joins, ?_⟩, ?_⟩, rfl, ?_, owned⟩
      · exact result?_eq_some_iff.2 returned
      · -- Had another get returned a value before, the end of the fill would have been seen, and its
        -- slot would not wait any more.
        intro other listed otherValue completes
        have seen := (MemoService.seen?_joining_iff get (by rintro ⟨⟩)).2
          ((history.succeeded_iff unused).2 ⟨other, listed, completes⟩)
        rw [(trackedThen.service.joining get).seen?_of_owns owned] at seen
        cases seen
      · exact MemoService.now_joining.symm

/-- The first get that returns the value of a fill stores it just if the slot of the key still waits
for the fill. -/
theorem History.stores_iff
    (history : History IsStamped start past last)
    (tracked : start.Tracked)
    (unused : start.service.fills = [])
    (first : FirstToComplete past visit generation value) :
    visit.joining.memo.owns visit.get.key generation = true ↔
      visit.after.memo.slot? visit.get.key = some (.complete value visit.service.now) := by
  obtain ⟨earlier, later, split, completes, none⟩ := first
  obtain ⟨usage, leads, same, live, -⟩ := history.split split
  have trackedThen : visit.service.Tracked := same ▸ (leads.tracked tracked).service
  have returned := result?_eq_some_iff.1 completes.2
  have stamped : value.fill = generation := trackedThen.origin_of_round completes.1 returned
  have memo : visit.after.memo =
      visit.joining.memo.publish visit.service.now visit.get.key generation value :=
    MemoService.memo_of_completes completes.1 returned
  rw [memo]
  unfold Memo.publish
  constructor
  · intro owned
    rw [owned]
    exact Memo.slot?_put_self
  · intro stored
    -- Otherwise the slot held the value before, which then another get has returned.
    refine Decidable.byContradiction fun lost => ?_
    rw [eq_false_of_ne_true lost] at stored
    have seen := (MemoService.seen?_joining_iff _ (by rintro ⟨⟩)).1
      ((trackedThen.joining visit.get).seen?_of_complete stored)
    rw [stamped, same] at seen
    obtain ⟨other, listed, completed⟩ := (leads.succeeded_iff unused).1 seen
    exact none other listed value completed

omit [DecidableEq κ] in
/-- The next fill is none of those that have started. -/
theorem waiting_next_ne
    (tracked : usage.Tracked)
    (filled : usage.Filled key generation) :
    (.waiting usage.service.memo.nextGeneration : Slot (Stamped ν)) ≠ .waiting generation := by
  have within : generation < usage.service.fillKeys.length :=
    (List.getElem?_eq_some_iff.1 filled).1
  rw [(tracked.service.traced key).generation, ← MemoService.fillKeys_length]
  rintro ⟨⟩
  exact Nat.lt_irrefl _ within

/-- A fill that no slot waits for is never waited for by a slot again. -/
theorem History.every_ne_waiting
    (history : History IsStamped start past last)
    (tracked : start.Tracked)
    (filled : start.Filled key generation)
    (lost : start.service.memo.Every fun _ slot => slot ≠ .waiting generation) :
    last.service.memo.Every fun _ slot => slot ≠ .waiting generation := by
  induction history with
  | start => exact lost
  | use history quiet settles inductionHypothesis => exact every_use inductionHypothesis quiet
  | @round past usage history number get live inductionHypothesis =>
      have next := waiting_next_ne (history.tracked tracked)
        (MemoService.getElem?_of_prefix history.extends filled)
      have joining := MemoService.every_joining inductionHypothesis get next
      exact MemoService.round_induction
        (motive := fun after => after.memo.Every fun _ slot => slot ≠ .waiting generation) joining
        fun _ _ => MemoService.every_await joining fun _ _ _ => by rintro ⟨⟩

/-- A slot that a fill has lost is never again the slot of this fill. -/
theorem History.lost
    (history : History IsStamped start past last)
    (tracked : start.Tracked)
    (filled : start.Filled key generation)
    (lost : start.service.memo.owns key generation = false)
    (listed : visit ∈ past) :
    visit.joining.memo.owns key generation = false := by
  obtain ⟨earlier, usage, leads, same, -⟩ := history.visited listed
  have next := waiting_next_ne (leads.tracked tracked)
    (MemoService.getElem?_of_prefix leads.extends filled)
  have never := leads.every_ne_waiting tracked filled
    (tracked.service.every_ne_waiting filled lost)
  have joining := MemoService.every_joining never visit.get next
  refine eq_false_of_ne_true fun owned => ?_
  unfold Visit.joining at owned
  rw [same] at owned
  exact Memo.condition_of_slot? joining (Memo.slot?_of_owns owned) rfl

/-- The fill that a get joins is one of its key. -/
theorem History.filled_of_joins
    (history : History IsStamped start past last)
    (tracked : start.Tracked)
    (listed : visit ∈ past)
    (joins : visit.fill? = some generation) :
    last.Filled visit.get.key generation := by
  obtain ⟨earlier, later, split⟩ := List.append_of_mem listed
  obtain ⟨usage, leads, same, live, follows⟩ := history.split split
  have trackedThen := leads.tracked tracked
  unfold Visit.fill? at joins
  rw [same] at joins
  have own := trackedThen.service.fillKeys_of_joins (trackedThen.own live) joins
  refine MemoService.getElem?_of_prefix follows.extends ?_
  change (usage.service.round visit.get).2.fillKeys[generation]? = some visit.get.key
  rw [MemoService.fillKeys_round]
  exact own

/-- The slot that a look-up creates is that of the fill that it starts. -/
theorem History.owns_of_startsFill
    {place : κ → Nat}
    {entryLimit shards : Nat}
    {ttl : Option Nat}
    {filler : Filler κ (Stamped ν) (Stamped ε)}
    (history : History IsStamped (ofMemo (.empty place entryLimit shards ttl) filler) past last)
    (listed : visit ∈ past)
    (starts : visit.startsFill = true) :
    visit.fill? = some visit.service.fills.length ∧
      visit.joining.memo.owns visit.get.key visit.service.fills.length = true := by
  obtain ⟨earlier, usage, leads, same, live⟩ := history.visited listed
  obtain ⟨tidy, counts⟩ := leads.shape (.empty place entryLimit shards ttl) (counts_ofMemo ..)
  obtain ⟨-, -, limit, next, -⟩ := counts.memo_eq
  obtain ⟨number, get, service⟩ := visit
  obtain rfl : service = usage.service := same
  have touched := tidy.touch get.key
  have positive : 0 < (usage.service.memo.touch get.key).shardLimit := by
    rw [Memo.shardLimit_touch, limit]
    exact Nat.lt_of_lt_of_le Nat.one_pos (Nat.le_max_right _ _)
  unfold Visit.startsFill at starts
  obtain ⟨looksUp, missed⟩ := (Bool.and_eq_true ..).mp starts
  have joined := MemoService.joined usage.service get
  unfold Visit.fill? Visit.joining
  dsimp only at looksUp missed ⊢
  generalize usage.service.joins? get = fill?, usage.service.joining get = joining at joined ⊢
  cases joined with
  | before awaits =>
      rw [awaits] at looksUp
      cases looksUp
  | hit looksUp held fresh =>
      unfold Memo.needsFill at missed
      rw [held] at missed
      exact absurd (fresh.symm.trans missed) (by simp)
  | waiting looksUp held =>
      unfold Memo.needsFill at missed
      rw [held] at missed
      cases missed
  | started looksUp missed =>
      refine ⟨congrArg some next, ?_⟩
      have slot := touched.slot?_start positive get.key
      rw [Memo.nextGeneration_touch, next] at slot
      change ((usage.service.memo.touch get.key).start get.key).2.owns get.key _ = true
      unfold Memo.owns
      rw [slot]
      exact beq_self_eq_true _

/-- A get that has joined a fill that has succeeded returns its value when it is polled. -/
theorem History.poll_of_succeeded
    (history : History IsStamped start past last)
    (tracked : start.Tracked)
    {number : Nat}
    {get : Get κ}
    (live : last.live? number = some get)
    (joined : HasJoined (past ++ last.visits (.poll number)) number generation)
    (succeeded : (last.service.poll get).2.end? generation = some (some value)) :
    (last.service.poll get).1 = .returned (.ok value) := by
  obtain ⟨visit, listed, -, -, polled, joins⟩ := history.last_round tracked live joined
  rw [polled] at succeeded ⊢
  rcases joins with joins | taken
  · rcases MemoService.round_of_end? joins succeeded with ⟨_, ⟨⟩, returned⟩ | ⟨⟨⟩, -⟩
    unfold Visit.progress
    rw [returned]
  · have after : visit.after.seen? generation = some (.failed none) :=
      MemoService.seen?_round trivial taken
    rw [MemoService.end?_of_seen? after (by rintro ⟨⟩)] at succeeded
    cases succeeded

/-- Fills are shared and their values reach every waiter. In a run in which every result carries the
number of its fill, fills are started by the look-ups that find no slot or a value that is too old,
and by nothing else; a look-up that finds its key waiting joins the fill of the slot. A get that has
joined a fill which has succeeded returns its value when it is polled, and all gets that return the
value of a fill return the same one. The first of them to do so stores the value if the slot of the
key is still that of the fill, and every value that is held was stored so; a slot that the fill has
lost is never its own again. But for the numbers the run is that of the service itself. -/
theorem fills_shared
    (place : κ → Nat)
    (entryLimit shards : Nat)
    (ttl : Option Nat)
    (filler : Filler κ ν ε)
    (uses : List (Use κ ν ε)) :
    let start := ofMemo (.empty place entryLimit shards ttl) filler.stamped
    let trail := start.trail (uses.map Use.stamped)
    let last := start.run (uses.map Use.stamped)
    last.map Stamped.content Stamped.content =
        (ofMemo (.empty place entryLimit shards ttl) filler).run uses ∧
      last.service.fillKeys = (trail.filter Visit.startsFill).map (fun visit => visit.get.key) ∧
      (∀ visit ∈ trail, visit.startsFill = true →
        visit.fill? = some visit.service.fills.length ∧
          visit.joining.memo.owns visit.get.key visit.service.fills.length = true) ∧
      (∀ visit ∈ trail, ∀ generation, visit.LooksUp →
        visit.service.memo.slot? visit.get.key = some (.waiting generation) →
        visit.fill? = some generation ∧ last.Filled visit.get.key generation) ∧
      (∀ number get generation value, last.live? number = some get →
        HasJoined (trail ++ last.visits (.poll number)) number generation →
        last.service.end? generation = some (some value) ∨
          (last.service.poll get).2.end? generation = some (some value) →
        (last.service.poll get).1 = .returned (.ok value)) ∧
      (∀ one ∈ trail, ∀ other ∈ trail, ∀ generation value otherValue,
        one.Completes generation value → other.Completes generation otherValue →
        value = otherValue) ∧
      (∀ visit generation value, FirstToComplete trail visit generation value →
        (visit.joining.memo.owns visit.get.key generation = true ↔
          visit.after.memo.slot? visit.get.key = some (.complete value visit.service.now))) ∧
      last.service.memo.Every (PutFirst trail) ∧
      ∀ before after key generation, uses = before ++ after →
        let middle := start.run (before.map Use.stamped)
        middle.Filled key generation →
        middle.service.memo.owns key generation = false →
        ∀ visit ∈ middle.trail (after.map Use.stamped),
          visit.joining.memo.owns key generation = false := by
  intro start trail last
  have history : History IsStamped start trail last := history_stamped start uses
  have tracked : start.Tracked := tracked_ofMemo place entryLimit shards ttl filler
  refine ⟨run_stamped _ filler uses, history.fillKeys,
    fun visit listed starts => history.owns_of_startsFill listed starts,
    ?joins, ?returns, ?agree, fun visit generation value => history.stores_iff tracked rfl,
    history.putFirst tracked rfl rfl, ?lost⟩
  case joins =>
    intro visit listed generation looksUp held
    have joins : visit.fill? = some generation := MemoService.joins?_of_waiting looksUp held
    exact ⟨joins, history.filled_of_joins tracked listed joins⟩
  case returns =>
    intro number get generation value live joined succeeded
    refine history.poll_of_succeeded tracked live joined ?_
    rcases succeeded with before | after
    · exact MemoService.end?_poll before
    · exact after
  case agree =>
    intro one oneListed other otherListed generation value otherValue completes otherCompletes
    have seen := (history.succeeded_iff rfl).2 ⟨one, oneListed, completes⟩
    rw [(history.succeeded_iff rfl).2 ⟨other, otherListed, otherCompletes⟩] at seen
    cases seen
    rfl
  case lost =>
    intro before after key generation _ middle filled lost visit listed
    exact (history_stamped middle after).lost ((history_stamped start before).tracked tracked)
      filled lost listed

/-- A get joins the fill of another one. The key is then invalidated and refilled, so that its slot
is not that of the first fill when this ends: the get returns the value all the same, and the slot
goes on waiting. -/
theorem fills_shared_invalidated :
    let uses : List (Use Nat Nat Nat) :=
      [.begin 7, .poll 0, .begin 7, .poll 1, .invalidate 7, .begin 7, .poll 2, .settle 0 (.ok 10),
        .poll 0]
    let start := ofMemo (.empty id 4 1 none) (Filler.manual []).stamped
    let last := start.run (uses.map Use.stamped)
    last.live? 1 = some ⟨7, some 0⟩ ∧
      HasJoined (start.trail (uses.map Use.stamped) ++ last.visits (.poll 1)) 1 0 ∧
      (last.service.poll ⟨7, some 0⟩).1 = .returned (.ok ⟨0, 10⟩) ∧
      last.service.memo.slot? 7 = some (.waiting 1) := by
  intro uses start last
  have live : last.live? 1 = some ⟨7, some 0⟩ := by decide +kernel
  have ended : last.service.end? 0 = some (some ⟨0, 10⟩) := by decide +kernel
  have joined : HasJoined (start.trail (uses.map Use.stamped) ++ last.visits (.poll 1)) 1 0 :=
    hasJoined_of_awaits live rfl _
  obtain ⟨-, -, -, -, returns, -⟩ := fills_shared id 4 1 none (.manual []) uses
  exact ⟨live, joined, returns 1 ⟨7, some 0⟩ 0 ⟨0, 10⟩ live joined (.inl ended),
    by decide +kernel⟩

end Usage
end BuildQueue
