import BuildQueue.Proofs.Memo.Ends
import BuildQueue.Proofs.Memo.Shape
import BuildQueue.Proofs.Memo.Stamps

/-!
# Slots and fills agree

If results carry the numbers of their fills then each slot can be compared with its fill. A slot
waits for a fill only while nobody has seen the end of this fill, and it holds a value only if its
fill has succeeded with this value; no slot belongs to a fill that failed. Whoever sees the end of a
fill first turns or drops its slot in the same round, so the two never come apart. What this says of
slots that wait does not depend on the numbers that results carry.
-/

namespace BuildQueue

/-- The state of the fill that a slot belongs to. -/
def Slot.fillState {ν ε : Type} : Slot (Stamped ν) → FillState (Stamped ν) (Stamped ε)
  | waiting _ => .running
  | complete value _ => .succeeded value

namespace MemoService

variable {κ ν ε : Type}

section Current

/-- The slots that wait do so for fills of their keys whose ends nobody has seen, and the next fill
to start gets the next generation. -/
structure Current (service : MemoService κ ν ε) : Prop where
  waiting : service.memo.Every fun key slot => ∀ generation, slot = .waiting generation →
    service.fills[generation]? = some ⟨key, .running⟩
  generation : service.memo.nextGeneration = service.fills.length

/-- Which slots wait, and for which fills, does not depend on the values. -/
theorem Current.map
    {service : MemoService κ ν ε}
    (current : service.Current)
    {ν' ε' : Type}
    (f : ν → ν')
    (g : ε → ε') :
    (service.map f g).Current where
  waiting := by
    intro entry listed generation waits
    obtain ⟨⟨key, slot⟩, before, rfl⟩ := List.mem_map.1 listed
    cases slot with
    | complete value filledAt => cases waits
    | waiting waited =>
        cases waits
        have found := current.waiting _ before generation rfl
        change (service.fills.map (Fill.map f g))[generation]? = _
        rw [List.getElem?_map, found]
        rfl
  generation := by
    change service.memo.nextGeneration = (service.fills.map (Fill.map f g)).length
    rw [List.length_map]
    exact current.generation

variable
  [DecidableEq κ]
  {service : MemoService κ ν ε}
  {get : Get κ}
  {generation : Nat}

/-- A look-up joins a fill whose end nobody has seen. -/
theorem Current.seen?_of_looksUp
    (current : service.Current)
    (looksUp : get.awaits = none)
    (joins : service.joins? get = some generation) :
    (service.joining get).seen? generation = some .running := by
  have next := current.generation
  have joined := joined service get
  generalize service.joins? get = fill?, service.joining get = joining at joined joins ⊢
  unfold seen?
  cases joined with
  | before awaits =>
      rw [looksUp] at awaits
      cases awaits
  | hit looksUp held fresh => cases joins
  | waiting looksUp held =>
      cases joins
      rw [Memo.condition_of_slot? current.waiting held generation rfl]
      rfl
  | started looksUp missed =>
      cases joins
      rw [next, List.getElem?_concat_length]
      rfl

/-- A round that looks its key up does not make its get start over. -/
theorem Current.round_ne_again
    (current : service.Current)
    (looksUp : get.awaits = none) :
    (service.round get).1 ≠ .again := by
  cases joins : service.joins? get with
  | none =>
      obtain ⟨value, filledAt, -, -, hit⟩ := round_of_hit joins
      rw [hit]
      rintro ⟨⟩
  | some generation =>
      have sees := sees_round joins
      rw [current.seen?_of_looksUp looksUp joins] at sees
      intro again
      rw [again] at sees
      cases sees

end Current

/-- A slot shows the state of a fill of its key. -/
def Shows
    (fills : List (Fill κ (Stamped ν) (Stamped ε)))
    (key : κ)
    (slot : Slot (Stamped ν)) : Prop :=
  fills[slot.fill]? = some ⟨key, slot.fillState⟩

/-- Slots show the states of their fills. -/
structure Tracked (service : MemoService κ (Stamped ν) (Stamped ε)) : Prop where
  traced : ∀ key, service.Traced key 0
  tidy : service.memo.Tidy
  slots : service.memo.Every (Shows service.fills)

variable
  {service : MemoService κ (Stamped ν) (Stamped ε)}
  {generation : Nat}
  {fill : Fill κ (Stamped ν) (Stamped ε)}

theorem Tracked.current (tracked : Tracked service) (key : κ) : service.Current where
  waiting := by
    rintro ⟨owner, slot⟩ listed generation rfl
    exact tracked.slots _ listed
  generation := (tracked.traced key).generation

theorem Shows.eq_of_getElem?
    {key : κ}
    {slot : Slot (Stamped ν)}
    (shows : Shows service.fills key slot)
    (found : service.fills[generation]? = some fill)
    (same : slot.fill = generation) :
    fill = ⟨key, slot.fillState⟩ := by
  rw [← same] at found
  exact Option.some.inj (found.symm.trans shows)

/-- A slot of another fill shows the same after a fill is replaced. -/
theorem Shows.set_of_ne
    {fills : List (Fill κ (Stamped ν) (Stamped ε))}
    {key : κ}
    {slot : Slot (Stamped ν)}
    (shows : Shows fills key slot)
    (different : slot.fill ≠ generation) :
    Shows (fills.set generation fill) key slot := by
  unfold Shows
  rw [List.getElem?_set_ne different.symm]
  exact shows

theorem Shows.append
    {fills : List (Fill κ (Stamped ν) (Stamped ε))}
    {key : κ}
    {slot : Slot (Stamped ν)}
    (shows : Shows fills key slot)
    (new : Fill κ (Stamped ν) (Stamped ε)) :
    Shows (fills ++ [new]) key slot := by
  unfold Shows at shows ⊢
  rw [List.getElem?_append_left (List.getElem?_eq_some_iff.1 shows).1]
  exact shows

/-- The slots after a fill is replaced show it if those that belong to it do. -/
theorem every_shows_set
    {memo : Memo κ (Stamped ν)}
    {old : Fill κ (Stamped ν) (Stamped ε)}
    (found : service.fills[generation]? = some old)
    (others : memo.Every fun key slot => slot.fill ≠ generation → Shows service.fills key slot)
    (own : memo.Every fun key slot => slot.fill = generation → fill = ⟨key, slot.fillState⟩) :
    memo.Every (Shows (service.fills.set generation fill)) := by
  intro entry listed
  by_cases same : entry.2.fill = generation
  · have bound : generation < service.fills.length := (List.getElem?_eq_some_iff.1 found).1
    unfold Shows
    rw [same, List.getElem?_set_self bound, own entry listed same]
  · exact (others entry listed same).set_of_ne same

section Await

variable [DecidableEq κ] {key : κ}

/-- Only the slot of its own key waits for a fill. -/
theorem Tracked.owns_of_mem
    (tracked : Tracked service)
    (awaits : service.fillKeys[generation]? = some key)
    {owner : κ}
    (listed : (owner, .waiting generation) ∈ service.memo.entries) :
    service.memo.owns key generation = true := by
  have shown := fillKeys_getElem? (tracked.slots _ listed)
  have own : owner = key := Option.some.inj (shown.symm.trans awaits)
  have held := (Memo.slot?_eq_some_iff tracked.tidy.distinct).2 listed
  rw [own] at held
  unfold Memo.owns
  rw [held]
  exact beq_self_eq_true generation

/-- A slot of a fill that does not wait for it holds the value with which the fill has succeeded. -/
theorem Tracked.succeeded_of_not_owns
    (tracked : Tracked service)
    (awaits : service.fillKeys[generation]? = some key)
    (found : service.fills[generation]? = some fill)
    (lost : service.memo.owns key generation = false)
    {entry : κ × Slot (Stamped ν)}
    (listed : entry ∈ service.memo.entries)
    (same : entry.2.fill = generation) :
    fill = ⟨entry.1, entry.2.fillState⟩ ∧ service.refresh generation fill = fill := by
  have shown := (tracked.slots entry listed).eq_of_getElem? found same
  refine ⟨shown, refresh_of_ne_running fun running => ?_⟩
  obtain ⟨owner, slot⟩ := entry
  cases slot with
  | complete value filledAt =>
      rw [shown] at running
      cases running
  | waiting waited =>
      obtain rfl : waited = generation := same
      rw [tracked.owns_of_mem awaits listed] at lost
      cases lost

omit [DecidableEq κ] in
/-- The slots under other keys than that of a fill belong to other fills. -/
theorem Tracked.fill_ne_of_ne
    (tracked : Tracked service)
    (awaits : service.fillKeys[generation]? = some key)
    {entry : κ × Slot (Stamped ν)}
    (listed : entry ∈ service.memo.entries)
    (other : entry.1 ≠ key) :
    entry.2.fill ≠ generation := by
  intro same
  have shown := fillKeys_getElem? (tracked.slots entry listed)
  rw [same] at shown
  exact other (Option.some.inj (shown.symm.trans awaits))

/-- A fill that has succeeded is shown by the slot that waited for it. -/
theorem Tracked.every_publish
    (tracked : Tracked service)
    (awaits : service.fillKeys[generation]? = some key)
    (found : service.fills[generation]? = some fill)
    {value : Stamped ν}
    (stamped : value.fill = generation)
    (succeeded : (service.refresh generation fill).state = .succeeded value)
    (now : Nat) :
    (service.memo.publish now key generation value).Every
      (Shows (service.fills.set generation (service.refresh generation fill))) := by
  have own : fill.key = key :=
    Option.some.inj ((fillKeys_getElem? found).symm.trans awaits)
  cases owned : service.memo.owns key generation with
  | false =>
      have same : service.memo.publish now key generation value = service.memo := by
        unfold Memo.publish
        rw [owned]
        rfl
      rw [same]
      refine every_shows_set found (fun entry listed _ => tracked.slots entry listed) ?_
      intro entry listed belongs
      obtain ⟨shown, ended⟩ := tracked.succeeded_of_not_owns awaits found owned listed belongs
      exact ended.trans shown
  | true =>
      have same : service.memo.publish now key generation value =
          service.memo.put key (.complete value now) := by
        unfold Memo.publish
        rw [owned]
        rfl
      rw [same]
      refine every_shows_set found ?_ ?_
      · intro entry listed different
        rcases List.mem_append.1 listed with kept | new
        · exact tracked.slots entry (List.mem_filter.1 kept).1
        · rw [List.mem_singleton.1 new] at different
          exact absurd stamped different
      · intro entry listed belongs
        rcases List.mem_append.1 listed with kept | new
        · obtain ⟨before, other⟩ := List.mem_filter.1 kept
          exact absurd belongs (tracked.fill_ne_of_ne awaits before (bne_iff_ne.1 other))
        · obtain rfl := List.mem_singleton.1 new
          have sameKey : (service.refresh generation fill).key = key :=
            (key_refresh generation fill).trans own
          change service.refresh generation fill = ⟨key, .succeeded value⟩
          rw [← sameKey, ← succeeded]

/-- A fill that has failed is shown by no slot. -/
theorem Tracked.every_abandon
    (tracked : Tracked service)
    (awaits : service.fillKeys[generation]? = some key)
    (found : service.fills[generation]? = some fill)
    {error : Option (Stamped ε)}
    (failed : (service.refresh generation fill).state = .failed error)
    (new : Fill κ (Stamped ν) (Stamped ε)) :
    (service.memo.abandon key generation).Every (Shows (service.fills.set generation new)) := by
  have none : ∀ entry ∈ (service.memo.abandon key generation).entries,
      entry ∈ service.memo.entries ∧ entry.2.fill ≠ generation := by
    intro entry listed
    unfold Memo.abandon at listed
    cases owned : service.memo.owns key generation with
    | true =>
        rw [owned] at listed
        obtain ⟨before, other⟩ := List.mem_filter.1 listed
        exact ⟨before, tracked.fill_ne_of_ne awaits before (bne_iff_ne.1 other)⟩
    | false =>
        rw [owned] at listed
        refine ⟨listed, fun belongs => ?_⟩
        obtain ⟨shown, ended⟩ := tracked.succeeded_of_not_owns awaits found owned listed belongs
        rw [ended, shown] at failed
        cases slot : entry.2 <;> rw [slot] at failed <;> cases failed
  intro entry listed
  obtain ⟨before, different⟩ := none entry listed
  exact (tracked.slots entry before).set_of_ne different

/-- Waiting for a fill keeps the slots in step with the fills. -/
theorem Tracked.await
    (tracked : Tracked service)
    (awaits : service.fillKeys[generation]? = some key) :
    Tracked (service.await key generation).2 := by
  refine ⟨fun other => ((tracked.traced other).await key generation).1,
    tidy_await tracked.tidy key generation, ?_⟩
  have waited := awaited service key generation
  generalize service.await key generation = outcome at waited ⊢
  cases waited with
  | missing absent => exact tracked.slots
  | running found state =>
      refine every_shows_set found (fun entry listed _ => tracked.slots entry listed) ?_
      intro entry listed belongs
      rw [refresh_of_running state]
      exact (tracked.slots entry listed).eq_of_getElem? found belongs
  | succeeded found state =>
      have stamped := (tracked.traced key).refresh found
      rw [state] at stamped
      exact tracked.every_publish awaits found stamped state service.now
  | failed found state => exact tracked.every_abandon awaits found state _
  | taken found state => exact tracked.every_abandon awaits found state _

end Await

section Round

variable [DecidableEq κ] {get : Get κ}

/-- Joining a fill keeps the slots in step with the fills: the slot of a fill that is started waits,
and the fill runs. -/
theorem Tracked.joining
    (tracked : Tracked service)
    (get : Get κ) :
    Tracked (service.joining get) := by
  refine ⟨fun other => ((tracked.traced other).joining get).1, tidy_joining tracked.tidy get, ?_⟩
  have touched := tracked.slots.touch get.key
  have generation := (tracked.traced get.key).generation
  have joined := joined service get
  generalize service.joins? get = fill?, service.joining get = joining at joined ⊢
  cases joined with
  | before awaits => exact tracked.slots
  | hit looksUp held fresh => exact touched
  | waiting looksUp held => exact touched
  | started looksUp missed =>
      have kept : (service.memo.touch get.key).Every
          (Shows (service.fills ++ [⟨get.key, .running⟩])) :=
        fun entry listed => (touched entry listed).append _
      refine kept.start ?_
      unfold Shows
      rw [Memo.nextGeneration_touch, generation]
      exact List.getElem?_concat_length

/-- The fill that a get joins is one of its key. -/
theorem Tracked.fillKeys_of_joins
    (tracked : Tracked service)
    (awaits : Awaits service get)
    (joins : service.joins? get = some generation) :
    (service.joining get).fillKeys[generation]? = some get.key := by
  cases waiting : get.awaits with
  | none => exact (((tracked.traced get.key).joining get).2 waiting generation joins).own
  | some waited =>
      obtain rfl := Option.some.inj (joins.symm.trans (joins?_of_awaits waiting))
      exact (awaits.extends (extends_joining service get)) generation waiting

/-- A round keeps the slots in step with the fills. -/
theorem Tracked.round
    (tracked : Tracked service)
    (awaits : Awaits service get) :
    Tracked (service.round get).2 :=
  round_induction (tracked.joining get) fun _ joins =>
    (tracked.joining get).await (tracked.fillKeys_of_joins awaits joins)

end Round

theorem tracked_ofMemo
    (place : κ → Nat)
    (entryLimit shards : Nat)
    (ttl : Option Nat)
    (filler : Filler κ ν ε) :
    Tracked (.ofMemo (.empty place entryLimit shards ttl) filler.stamped) :=
  ⟨fun _ => traced_ofMemo place entryLimit shards ttl filler, .empty place entryLimit shards ttl,
    Memo.every_empty place entryLimit shards ttl⟩

end MemoService

/-- A result that carries a number. -/
def IsStamped {ν ε : Type} (fill : Nat) (result : Except (Stamped ε) (Stamped ν)) : Prop :=
  ∃ plain : Except ε ν, result = stamp fill plain

namespace Usage

variable {κ ν ε : Type}

/-- The slots of the service are in step with its fills, and every get waits for a fill of its
key. -/
structure Tracked (usage : Usage κ (Stamped ν) (Stamped ε)) : Prop where
  service : usage.service.Tracked
  own : ∀ {number get}, usage.live? number = some get → usage.service.Awaits get

theorem tracked_ofMemo
    (place : κ → Nat)
    (entryLimit shards : Nat)
    (ttl : Option Nat)
    (filler : Filler κ ν ε) :
    (ofMemo (.empty place entryLimit shards ttl) filler.stamped).Tracked :=
  ⟨MemoService.tracked_ofMemo place entryLimit shards ttl filler, fun live => by cases live⟩

variable [DecidableEq κ] {start usage last : Usage κ (Stamped ν) (Stamped ε)}

/-- A use that polls nothing keeps the slots in step with the fills. -/
theorem Tracked.use
    (tracked : usage.Tracked)
    {use : Use κ (Stamped ν) (Stamped ε)}
    (quiet : ∀ number, use ≠ .poll number)
    (settles : use.Settles IsStamped) :
    (usage.step use).Tracked := by
  have traced := tracked.service.traced
  have tidy := tracked.service.tidy
  have slots := tracked.service.slots
  cases use with
  | begin owner =>
      refine ⟨tracked.service, fun live => ?_⟩
      rcases live?_begin live with before | fresh
      · exact tracked.own before
      · intro generation waiting
        rw [fresh] at waiting
        cases waiting
  | poll number => exact absurd rfl (quiet number)
  | drop number =>
      refine ⟨tracked.service, fun live => ?_⟩
      rcases live?_set live with ⟨-, dropped⟩ | ⟨-, before⟩
      · cases dropped
      · exact tracked.own before
  | settle generation result =>
      obtain ⟨plain, rfl⟩ := settles
      have same : (usage.service.settle generation (stamp generation plain)).memo =
            usage.service.memo ∧
          (usage.service.settle generation (stamp generation plain)).fills =
            usage.service.fills := by
        unfold MemoService.settle
        split <;> exact ⟨rfl, rfl⟩
      refine ⟨⟨fun key => (traced key).settle generation plain, ?_, ?_⟩, fun live => ?_⟩
      · change (usage.service.settle generation (stamp generation plain)).memo.Tidy
        rw [same.1]
        exact tidy
      · change (usage.service.settle generation (stamp generation plain)).memo.Every
          (MemoService.Shows (usage.service.settle generation (stamp generation plain)).fills)
        rw [same.1, same.2]
        exact slots
      · exact (tracked.own live).extends (.of_fillKeys_eq (MemoService.fillKeys_settle ..))
  | invalidate key =>
      exact ⟨⟨fun other => (traced other).setMemo ((traced other).slots.invalidate key) rfl,
        tidy.invalidate key, slots.invalidate key⟩, tracked.own⟩
  | clear =>
      exact ⟨⟨fun other => (traced other).setMemo (fun _ listed => by cases listed) rfl,
        tidy.clear, fun _ listed => by cases listed⟩, tracked.own⟩
  | present key =>
      exact ⟨⟨fun other => (traced other).setMemo ((traced other).slots.touch key)
        (Memo.nextGeneration_touch ..), tidy.touch key, slots.touch key⟩, tracked.own⟩
  | tick instant =>
      exact ⟨⟨fun other => ⟨(traced other).slots, (traced other).states, (traced other).results,
        (traced other).generation, (traced other).bounded⟩, tidy, slots⟩, tracked.own⟩

/-- A round of a live get keeps the slots in step with the fills. -/
theorem Tracked.advance
    (tracked : usage.Tracked)
    {number : Nat}
    {get : Get κ}
    (live : usage.live? number = some get) :
    (usage.advance number get).Tracked := by
  have awaits := tracked.own live
  refine ⟨tracked.service.round awaits, fun {other left} later => ?_⟩
  rcases live?_set later with ⟨-, stays⟩ | ⟨-, before⟩
  · cases joins : usage.service.joins? get with
    | none =>
        obtain ⟨value, filledAt, -, -, hit⟩ := MemoService.round_of_hit joins
        rw [hit] at stays
        cases stays
    | some generation =>
        have own := tracked.service.fillKeys_of_joins awaits joins
        have sees := MemoService.sees_round joins
        intro waited waiting
        change (usage.service.round get).2.fillKeys[waited]? = some left.key
        rw [MemoService.fillKeys_round]
        generalize (usage.service.round get).1 = round at stays sees
        cases round with
        | returned result => cases stays
        | waits generation =>
            cases stays
            cases waiting
            obtain rfl := sees.waits_eq
            exact own
        | again =>
            cases stays
            cases waiting
  · exact (tracked.own before).extends (MemoService.extends_round usage.service get)

/-- A history in which results carry the numbers of their fills keeps the slots in step with the
fills. -/
theorem History.tracked
    {past : List (Visit κ (Stamped ν) (Stamped ε))}
    (history : History IsStamped start past last)
    (tracked : start.Tracked) :
    last.Tracked := by
  induction history with
  | start => exact tracked
  | use history quiet settles inductionHypothesis => exact inductionHypothesis.use quiet settles
  | round history live inductionHypothesis => exact inductionHypothesis.advance live

/-- A run in which results carry the numbers of their fills is such a history. -/
theorem history_stamped
    (start : Usage κ (Stamped ν) (Stamped ε))
    (uses : List (Use κ ν ε)) :
    History IsStamped start (start.trail (uses.map Use.stamped))
      (start.run (uses.map Use.stamped)) := by
  have settles : ∀ use ∈ uses.map Use.stamped, use.Settles IsStamped := by
    intro use listed
    obtain ⟨plain, -, rfl⟩ := List.mem_map.1 listed
    cases plain with
    | settle generation result => exact ⟨result, rfl⟩
    | _ => trivial
  have run := (History.start : History IsStamped start [] start).run settles
  rwa [List.nil_append] at run

/-- A poll ends with its last visit, and this one does not start over. -/
theorem Tracked.exists_last_visit
    (tracked : usage.Tracked)
    {number : Nat}
    {get : Get κ}
    (live : usage.live? number = some get) :
    ∃ initial visit,
      usage.visits (.poll number) = initial ++ [visit] ∧
      visit.number = number ∧ visit.get.key = get.key ∧
      (visit.service.round visit.get).1 ≠ .again ∧
      usage.service.poll get = (visit.progress, visit.after) := by
  refine Usage.exists_last_visit live fun after again => ?_
  have next := tracked.service.round (tracked.own live)
  rw [again] at next
  exact (next.current get.key).round_ne_again rfl

/-- A get that has joined a fill waits for it when its poll ends, unless the error of the fill was
taken by then. -/
theorem History.last_round
    {past : List (Visit κ (Stamped ν) (Stamped ε))}
    (history : History IsStamped start past last)
    (tracked : start.Tracked)
    {number generation : Nat}
    {get : Get κ}
    (live : last.live? number = some get)
    (joined : HasJoined (past ++ last.visits (.poll number)) number generation) :
    ∃ visit ∈ last.visits (.poll number),
      visit.get.key = get.key ∧
      (visit.service.round visit.get).1 ≠ .again ∧
      last.service.poll get = (visit.progress, visit.after) ∧
      (visit.fill? = some generation ∨
        visit.service.seen? generation = some (.failed none)) := by
  obtain ⟨initial, visit, visited, own, sameKey, ends, polled⟩ :=
    (history.tracked tracked).exists_last_visit live
  refine ⟨visit, ?_, sameKey, ends, polled, ?_⟩
  · rw [visited]
    simp
  · have whole := history.poll live
    rw [visited, ← List.append_assoc] at whole joined
    obtain ⟨usage, leads, same, liveThen, -⟩ := whole.split rfl
    obtain ⟨joiner, listed, number, joins⟩ := joined
    rcases List.mem_append.1 listed with before | now
    · rw [same]
      have numbers : joiner.number = visit.number := number.trans own.symm
      refine (leads.awaits before joins (numbers ▸ liveThen)).imp_left fun awaits => ?_
      exact MemoService.joins?_of_awaits awaits
    · rw [List.mem_singleton.1 now] at joins
      exact .inl joins

end Usage
end BuildQueue
