import BuildQueue.Proofs.Memo.Restarts
import BuildQueue.Proofs.Memo.Rounds

/-!
# Gets do not spin

A get starts over when it finds the error of its fill taken, and it would never end if its next
look-up came to such a fill again. It does not: whoever takes an error gives up the slot of the fill
in the same round, so that a slot only ever waits for a fill whose end nobody has seen. A round that
looks its key up therefore ends the poll, and every look-up of a get but its first one is paid for
by a fill of its own whose error another get took.
-/

namespace BuildQueue
namespace Usage

variable {κ ν ε : Type} [DecidableEq κ]

variable
  {usage : Usage κ ν ε}
  {visit : Visit κ ν ε}
  {number generation : Nat}
  {get : Get κ}

/-! ## The look-ups of a poll -/

/-- Where no look-up makes its get start over, a get looks its key up at most once in one poll. -/
theorem length_lookUps_le_one
    {service : MemoService κ ν ε}
    {found : List (Get κ × MemoService κ ν ε)}
    {outcome : Progress κ ν ε × MemoService κ ν ε}
    (runs : service.Runs get found outcome)
    (ends : ∀ round ∈ found, round.1.awaits = none → (round.2.round round.1).1 ≠ .again)
    (number : Nat) :
    (lookUps (found.map fun (get, service) => (⟨number, get, service⟩ : Visit κ ν ε))).length ≤
      1 := by
  induction runs with
  | returned finished => exact List.length_filter_le ..
  | waits finished => exact List.length_filter_le ..
  | @again service next get found outcome startsOver rest inductionHypothesis =>
      have waits : get.awaits.isNone = false := by
        have := ends _ List.mem_cons_self
        cases awaits : get.awaits with
        | some waited => rfl
        | none => exact absurd (congrArg Prod.fst startsOver) (this awaits)
      unfold lookUps at inductionHypothesis ⊢
      rw [List.map_cons, List.filter_cons_of_neg (by simp [waits])]
      exact inductionHypothesis fun round listed => ends round (List.mem_cons_of_mem _ listed)

/-- Fills are started by look-ups only. -/
theorem length_filter_startsFill_le (visits : List (Visit κ ν ε)) :
    (visits.filter Visit.startsFill).length ≤ (lookUps visits).length := by
  unfold lookUps
  rw [← List.countP_eq_length_filter, ← List.countP_eq_length_filter]
  refine List.countP_mono_left fun visit _ starts => ?_
  unfold Visit.startsFill at starts
  exact (Bool.and_eq_true_iff.1 starts).1

theorem visits_poll (live : usage.live? number = some get) :
    usage.visits (.poll number) =
      (usage.service.found get MemoService.maxRounds).map fun (get, service) =>
        ⟨number, get, service⟩ := by
  simp only [visits, live]

/-- A poll starts no more fills than its get looks its key up. -/
theorem length_fills_poll_le (live : usage.live? number = some get) :
    (usage.service.poll get).2.fills.length ≤
      usage.service.fills.length + (lookUps (usage.visits (.poll number))).length := by
  have polled := (History.start : History (fun _ _ => True) usage [] usage).poll live
  have grown := congrArg List.length polled.fillKeys
  rw [service_poll, List.nil_append, List.length_append, List.length_map,
    MemoService.fillKeys_length, MemoService.fillKeys_length] at grown
  rw [grown]
  exact Nat.add_le_add_left (length_filter_startsFill_le _) _

/-! ## Wherever a run comes to -/

/-- If the results of a usage carry the numbers of their fills then its slots and fills agree. -/
def Trackable (usage : Usage κ ν ε) : Prop :=
  ∃ stamped : Usage κ (Stamped ν) (Stamped ε), stamped.Tracked ∧
    stamped.map Stamped.content Stamped.content = usage

omit [DecidableEq κ] in
theorem trackable_ofMemo
    (place : κ → Nat)
    (entryLimit shards : Nat)
    (ttl : Option Nat)
    (filler : Filler κ ν ε) :
    Trackable (ofMemo (.empty place entryLimit shards ttl) filler) :=
  ⟨_, tracked_ofMemo place entryLimit shards ttl filler,
    map_ofMemo_stamped (.empty place entryLimit shards ttl) filler⟩

theorem Trackable.run
    (trackable : usage.Trackable)
    (uses : List (Use κ ν ε)) :
    (usage.run uses).Trackable := by
  obtain ⟨stamped, tracked, rfl⟩ := trackable
  refine ⟨_, (history_stamped stamped uses).tracked tracked, ?_⟩
  rw [← run_map, Use.map_map_stamped]

/-- Wherever a run comes to a get, slots wait for fills whose ends nobody has seen. -/
theorem Trackable.current_of_mem_trail
    (trackable : usage.Trackable)
    {uses : List (Use κ ν ε)}
    (listed : visit ∈ usage.trail uses) :
    visit.service.Current := by
  obtain ⟨stamped, tracked, rfl⟩ := trackable
  rw [← Use.map_map_stamped uses, trail_map] at listed
  obtain ⟨found, there, rfl⟩ := List.mem_map.1 listed
  obtain ⟨earlier, before, leads, same, -⟩ := (history_stamped stamped uses).visited there
  have trackedThen : found.service.Tracked := same ▸ (leads.tracked tracked).service
  exact (trackedThen.current found.get.key).map _ _

omit [DecidableEq κ] in
theorem Trackable.waiting
    (trackable : usage.Trackable)
    {key : κ}
    (listed : (key, .waiting generation) ∈ usage.service.memo.entries) :
    usage.service.fills[generation]? = some ⟨key, .running⟩ := by
  obtain ⟨stamped, tracked, rfl⟩ := trackable
  have current := (tracked.service.current key).map Stamped.content Stamped.content
  exact current.waiting _ listed generation rfl

omit [DecidableEq κ] in
/-- A get waits for a fill of its key. -/
theorem Trackable.awaits
    (trackable : usage.Trackable)
    (live : usage.live? number = some get) :
    usage.service.Awaits get := by
  obtain ⟨stamped, tracked, rfl⟩ := trackable
  intro waited awaits
  change (stamped.service.map _ _).fillKeys[waited]? = _
  rw [MemoService.fillKeys_map]
  exact tracked.own live waited awaits

/-- In a poll no round that looks the key up makes the get start over. -/
theorem Trackable.ne_again
    (trackable : usage.Trackable)
    (live : usage.live? number = some get)
    {round : Get κ × MemoService κ ν ε}
    (listed : round ∈ usage.service.found get MemoService.maxRounds)
    (looksUp : round.1.awaits = none) :
    (round.2.round round.1).1 ≠ .again := by
  have visited : ⟨number, round.1, round.2⟩ ∈ usage.trail [.poll number] := by
    rw [trail, visits_poll live]
    exact List.mem_append_left _ (List.mem_map.2 ⟨round, listed, rfl⟩)
  exact (trackable.current_of_mem_trail visited).round_ne_again looksUp

/-- A poll takes its get through all rounds that it needs. -/
theorem Trackable.runs_poll
    (trackable : usage.Trackable)
    (live : usage.live? number = some get) :
    usage.service.Runs get (usage.service.found get MemoService.maxRounds)
      (usage.service.poll get) := by
  refine MemoService.runs_poll fun next startsOver => ?_
  have listed : (⟨get.key, none⟩, next) ∈ usage.service.found get MemoService.maxRounds := by
    unfold MemoService.maxRounds MemoService.found MemoService.found
    rw [startsOver]
    exact List.mem_cons_of_mem _ List.mem_cons_self
  exact trackable.ne_again live listed rfl

/-- A poll leaves its get waiting for a fill of its key that has no result. -/
theorem Trackable.running_of_pending
    (trackable : usage.Trackable)
    (live : usage.live? number = some get)
    {left : Get κ}
    {after : MemoService κ ν ε}
    (pending : usage.service.poll get = (.pending left, after)) :
    ∃ generation, left = ⟨get.key, some generation⟩ ∧
      after.fills[generation]? = some ⟨get.key, .running⟩ ∧
      after.result? generation get.key = none := by
  have runs := trackable.runs_poll live
  rw [pending] at runs
  obtain ⟨generation, rfl, unended⟩ := runs.end?_of_pending
  have polled : usage.run [.poll number] =
      ⟨after, usage.gets.set number (some ⟨get.key, some generation⟩)⟩ := by
    change usage.step (.poll number) = _
    simp only [step, live, Usage.poll, pending]
  have stays : (usage.run [.poll number]).live? number = some ⟨get.key, some generation⟩ := by
    rw [polled, live?, List.getElem?_set_self (lt_length_of_live? live)]
    rfl
  have own := (trackable.run [.poll number]).awaits stays generation rfl
  rw [polled] at own
  change (after.fills.map Fill.key)[generation]? = some get.key at own
  rw [List.getElem?_map] at own
  obtain ⟨fill, started, sameKey⟩ := Option.map_eq_some_iff.1 own
  obtain ⟨same, unsettled⟩ := MemoService.running_of_end? started unended
  rw [sameKey] at same unsettled
  exact ⟨generation, rfl, same ▸ started, unsettled⟩

/-! ## Polls end -/

/-- Polls do not spin. Wherever a run of a service has come to, a slot waits for a fill of its key
whose end no get has seen, so never for one whose error was taken. A get that is polled then goes
through its rounds until one ends it or leaves it waiting, without any limit on their number: it
looks its key up at most once and starts at most one fill, and it is left waiting only for a fill
that has no result yet. All in all a get makes at most one look-up more than there are fills that it
has joined and whose errors other gets have taken. -/
theorem polls_end
    (place : κ → Nat)
    (entryLimit shards : Nat)
    (ttl : Option Nat)
    (filler : Filler κ ν ε)
    (uses : List (Use κ ν ε)) :
    let start := ofMemo (.empty place entryLimit shards ttl) filler
    let trail := start.trail uses
    let last := start.run uses
    (∀ key generation, (key, .waiting generation) ∈ last.service.memo.entries →
      last.service.fills[generation]? = some ⟨key, .running⟩) ∧
    (∀ number get, last.live? number = some get →
      (∀ found outcome, last.service.Runs get found outcome ↔
        found = last.service.found get MemoService.maxRounds ∧
          outcome = last.service.poll get) ∧
      (lookUps (last.visits (.poll number))).length ≤ 1 ∧
      (last.service.poll get).2.fills.length ≤ last.service.fills.length + 1 ∧
      ∀ left after, last.service.poll get = (.pending left, after) →
        ∃ generation, left = ⟨get.key, some generation⟩ ∧
          after.fills[generation]? = some ⟨get.key, .running⟩ ∧
          after.result? generation get.key = none) ∧
    ∀ number, (lookUps (visitsOf trail number)).length ≤
      ((List.range last.service.fills.length).countP fun generation =>
        TakenFrom trail number generation) + 1 := by
  intro start trail last
  have history : History (fun _ _ => True) start trail last := history_run start uses
  have unused : start.Trackable := trackable_ofMemo place entryLimit shards ttl filler
  have trackable : last.Trackable := unused.run uses
  refine ⟨fun key generation => trackable.waiting, fun number get live => ?polled,
    history.length_lookUps_le_countP rfl fun _ => unused.current_of_mem_trail⟩
  case polled =>
    have runs := trackable.runs_poll live
    have once : (lookUps (last.visits (.poll number))).length ≤ 1 := by
      rw [visits_poll live]
      exact length_lookUps_le_one runs (fun _ => trackable.ne_again live) number
    refine ⟨fun found outcome => ⟨fun other => other.unique runs, ?_⟩, once,
      Nat.le_trans (length_fills_poll_le live) (Nat.add_le_add_left once _),
      fun left after => trackable.running_of_pending live⟩
    rintro ⟨rfl, rfl⟩
    exact runs

/-- Other gets take the errors of two fills from a get, one after the other. Its next poll looks the
key up once, for the third time in its life, and leaves it waiting for a third fill. -/
theorem polls_end_outrun :
    let uses : List (Use Nat Nat Nat) :=
      [.begin 7, .poll 0, .begin 7, .poll 1, .settle 0 (.error 3), .poll 0, .poll 1, .begin 7,
        .poll 2, .settle 1 (.error 4), .poll 2]
    let start := ofMemo (.empty id 4 1 none) (.manual [])
    let last := start.run uses
    last.live? 1 = some ⟨7, some 1⟩ ∧
      (lookUps (last.visits (.poll 1))).length ≤ 1 ∧
      (lookUps (visitsOf (start.trail (uses ++ [.poll 1])) 1)).length = 3 ∧
      (last.step (.poll 1)).live? 1 = some ⟨7, some 2⟩ := by
  intro uses start last
  have live : last.live? 1 = some ⟨7, some 1⟩ := by decide +kernel
  obtain ⟨-, polls, -⟩ := polls_end id 4 1 none (.manual []) uses
  obtain ⟨-, once, -⟩ := polls 1 ⟨7, some 1⟩ live
  exact ⟨live, once, by decide +kernel, by decide +kernel⟩

end Usage
end BuildQueue
