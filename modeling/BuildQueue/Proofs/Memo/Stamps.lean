import BuildQueue.Proofs.Memo.History

/-!
# Where values come from

Where a value comes from can be told if every fill stamps its number on what it gives; by
naturality the stamps change nothing else in a run. Every slot then belongs to one fill, the one
that it waits for or that its value comes from. Only the fill that a slot waits for gives it a
value, so a slot never passes to an older fill, and whatever holds of the next fill to start and
of all fills of slots holds of every fill that a look-up comes to.
-/

namespace BuildQueue

/-- A value or an error together with the number of the fill that gave it. -/
structure Stamped (α : Type) where
  fill : Nat
  content : α
deriving DecidableEq, Repr

/-- The result of a fill with the number of the fill on it. -/
def stamp {ν ε : Type} (fill : Nat) : Except ε ν → Except (Stamped ε) (Stamped ν) :=
  mapResult (Stamped.mk fill) (Stamped.mk fill)

/-- The fill that gave a result. -/
def origin {ν ε : Type} : Except (Stamped ε) (Stamped ν) → Nat
  | .ok value => value.fill
  | .error error => error.fill

/-- The fill that a slot waits for or has its value from. -/
def Slot.fill {ν : Type} : Slot (Stamped ν) → Nat
  | waiting generation => generation
  | complete value _ => value.fill

/-- The filler that gives the same results with the numbers of their fills on them. -/
def Filler.stamped {κ ν ε : Type} : Filler κ ν ε → Filler κ (Stamped ν) (Stamped ε)
  | prompt result => .prompt fun generation key => stamp generation (result generation key)
  | manual settled => .manual (settled.map fun (generation, result) =>
      (generation, stamp generation result))

/-- The use that settles a fill with the number of the fill on its result. -/
def Use.stamped {κ ν ε : Type} : Use κ ν ε → Use κ (Stamped ν) (Stamped ε)
  | begin key => .begin key
  | poll number => .poll number
  | drop number => .drop number
  | settle generation result => .settle generation (stamp generation result)
  | invalidate key => .invalidate key
  | clear => .clear
  | present key => .present key
  | tick instant => .tick instant

section Erasure

variable {κ ν ε : Type}

theorem mapResult_stamp (fill : Nat) (result : Except ε ν) :
    mapResult Stamped.content Stamped.content (stamp fill result) = result := by
  cases result <;> rfl

theorem origin_stamp (fill : Nat) (result : Except ε ν) : origin (stamp fill result) = fill := by
  cases result <;> rfl

theorem Filler.map_stamped (filler : Filler κ ν ε) :
    filler.stamped.map Stamped.content Stamped.content = filler := by
  cases filler with
  | prompt result => simp only [stamped, map, mapResult_stamp]
  | manual settled =>
      simp only [stamped, map, List.map_map]
      have same : ∀ entry ∈ settled, (Prod.map id (mapResult Stamped.content Stamped.content) ∘
          fun entry => (entry.1, stamp entry.1 entry.2)) entry = id entry :=
        fun entry _ => Prod.ext rfl (mapResult_stamp entry.1 entry.2)
      rw [List.map_congr_left same, List.map_id]

theorem Use.map_stamped (use : Use κ ν ε) :
    use.stamped.map Stamped.content Stamped.content = use := by
  cases use with
  | settle generation result =>
      exact congrArg (Use.settle generation) (mapResult_stamp generation result)
  | _ => rfl

theorem Use.map_map_stamped (uses : List (Use κ ν ε)) :
    (uses.map Use.stamped).map (Use.map Stamped.content Stamped.content) = uses := by
  have same : ∀ use ∈ uses,
      (Use.map Stamped.content Stamped.content ∘ Use.stamped) use = id use :=
    fun use _ => use.map_stamped
  rw [List.map_map, List.map_congr_left same, List.map_id]

theorem Usage.map_ofMemo_stamped
    (memo : Memo κ (Stamped ν))
    (filler : Filler κ ν ε) :
    (Usage.ofMemo memo filler.stamped).map Stamped.content Stamped.content =
      Usage.ofMemo (memo.map Stamped.content) filler := by
  unfold Usage.ofMemo Usage.map MemoService.ofMemo MemoService.map
  rw [filler.map_stamped]
  rfl

/-- The numbers on the results change nothing else in a run. -/
theorem Usage.run_stamped
    [DecidableEq κ]
    (memo : Memo κ (Stamped ν))
    (filler : Filler κ ν ε)
    (uses : List (Use κ ν ε)) :
    ((Usage.ofMemo memo filler.stamped).run (uses.map Use.stamped)).map
        Stamped.content Stamped.content =
      (Usage.ofMemo (memo.map Stamped.content) filler).run uses := by
  rw [← Usage.run_map, Use.map_map_stamped, Usage.map_ofMemo_stamped]

end Erasure

/-- A fill is one of the key `owner`, and if this is `key` then it is not one of the first. -/
structure Serves {κ : Type} (keys : List κ) (key : κ) (bound : Nat) (owner : κ) (fill : Nat) :
    Prop where
  own : keys[fill]? = some owner
  fresh : owner = key → bound ≤ fill

section Serves

variable {κ : Type} {keys more : List κ} {key owner : κ} {bound low fill : Nat}

theorem Serves.extend
    (serves : Serves keys key bound owner fill)
    (extension : keys <+: more) :
    Serves more key bound owner fill :=
  ⟨MemoService.getElem?_of_prefix extension serves.own, serves.fresh⟩

theorem Serves.lower
    (serves : Serves keys key bound owner fill)
    (lower : low ≤ bound) :
    Serves keys key low owner fill :=
  ⟨serves.own, fun same => Nat.le_trans lower (serves.fresh same)⟩

/-- The fill that starts next serves its key. -/
theorem Serves.next
    (bounded : bound ≤ keys.length) :
    Serves (keys ++ [owner]) key bound owner keys.length :=
  ⟨List.getElem?_concat_length, fun _ => bounded⟩

/-- A fill that serves a key is none of those of `key` that started before the bound. -/
theorem Serves.not_old
    {old : List κ}
    (serves : Serves keys key old.length owner fill)
    (extension : old <+: keys) :
    old[fill]? ≠ some key := by
  intro started
  have same := MemoService.getElem?_of_prefix extension started
  have ownerKey : owner = key := Option.some.inj (serves.own.symm.trans same)
  have beyond := serves.fresh ownerKey
  have within := (List.getElem?_eq_some_iff.1 started).1
  exact absurd beyond (Nat.not_le_of_lt within)

end Serves

namespace MemoService

variable {κ ν ε : Type}

/-- The state of the fill of a number carries this number. -/
def StateStamped (generation : Nat) : FillState (Stamped ν) (Stamped ε) → Prop
  | .running | .failed none => True
  | .succeeded value => value.fill = generation
  | .failed (some error) => error.fill = generation

/-- Every result is that of the fill that it says, and every slot belongs to a fill that serves its
key. -/
structure Traced (key : κ) (bound : Nat) (service : MemoService κ (Stamped ν) (Stamped ε)) :
    Prop where
  slots : service.memo.Every fun owner slot =>
    Serves service.fillKeys key bound owner slot.fill
  states : ∀ {generation fill}, service.fills[generation]? = some fill →
    StateStamped generation fill.state
  results : ∀ {generation owner result}, service.result? generation owner = some result →
    origin result = generation
  generation : service.memo.nextGeneration = service.fills.length
  bounded : bound ≤ service.fills.length

/-- The fill that a get waits for, if any, serves its key. -/
def Waits
    (service : MemoService κ (Stamped ν) (Stamped ε))
    (key : κ)
    (bound : Nat)
    (get : Get κ) : Prop :=
  ∀ generation, get.awaits = some generation →
    Serves service.fillKeys key bound get.key generation

/-- The fill that a round has come to: the one that gave what is returned, or the one that is
waited for. -/
def Round.fill? : Round (Stamped ν) (Stamped ε) → Option Nat
  | .returned result => some (origin result)
  | .waits generation => some generation
  | .again => none

/-- What a poll has come to: a result that a fill gave which serves the key of the get, or a get
of the same key that waits for such a fill. -/
def ComesTo
    (service : MemoService κ (Stamped ν) (Stamped ε))
    (key : κ)
    (bound : Nat)
    (owner : κ) : Progress κ (Stamped ν) (Stamped ε) → Prop
  | .returned result => Serves service.fillKeys key bound owner (origin result)
  | .pending get => get.key = owner ∧ Waits service key bound get

variable {key : κ} {bound low : Nat} {service : MemoService κ (Stamped ν) (Stamped ε)}

theorem Traced.refresh
    (traced : Traced key bound service)
    {generation : Nat}
    {fill : Fill κ (Stamped ν) (Stamped ε)}
    (found : service.fills[generation]? = some fill) :
    StateStamped generation (service.refresh generation fill).state := by
  unfold MemoService.refresh
  split
  · next result running given =>
    have own := traced.results given
    cases result <;> exact own
  · exact traced.states found

theorem Traced.setFill
    (traced : Traced key bound service)
    {generation : Nat}
    {old new : Fill κ (Stamped ν) (Stamped ε)}
    (found : service.fills[generation]? = some old)
    (same : new.key = old.key)
    (stamped : StateStamped generation new.state) :
    Traced key bound (service.setFill generation new) where
  slots := by
    rw [fillKeys_setFill found same]
    exact traced.slots
  states := by
    intro index fill listed
    rw [MemoService.setFill, List.getElem?_set] at listed
    split at listed
    · next equal =>
      subst equal
      split at listed
      · obtain rfl := Option.some.inj listed
        exact stamped
      · cases listed
    · exact traced.states listed
  results := traced.results
  generation := by simpa [MemoService.setFill] using traced.generation
  bounded := by simpa [MemoService.setFill] using traced.bounded

theorem Traced.setMemo
    (traced : Traced key bound service)
    {memo : Memo κ (Stamped ν)}
    (slots : memo.Every fun owner slot => Serves service.fillKeys key bound owner slot.fill)
    (generation : memo.nextGeneration = service.memo.nextGeneration) :
    Traced key bound { service with memo } where
  slots := slots
  states := traced.states
  results := traced.results
  generation := generation.trans traced.generation
  bounded := traced.bounded

/-- The service after a fill has started, before anybody waits for it. -/
theorem Traced.append
    (traced : Traced key bound service)
    {memo : Memo κ (Stamped ν)}
    (owner : κ)
    (slots : memo.Every fun other slot =>
      Serves (service.fillKeys ++ [owner]) key bound other slot.fill)
    (generation : memo.nextGeneration = service.memo.nextGeneration + 1) :
    Traced key bound { service with memo, fills := service.fills ++ [Fill.mk owner .running] } where
  slots := by
    rw [fillKeys, List.map_append]
    exact slots
  states := by
    intro index fill listed
    rw [List.getElem?_append] at listed
    split at listed
    · exact traced.states listed
    · obtain rfl := List.mem_singleton.1 (List.mem_of_getElem? listed)
      trivial
  results := traced.results
  generation := by
    rw [List.length_append, ← traced.generation]
    exact generation
  bounded := by
    rw [List.length_append]
    exact Nat.le_add_right_of_le traced.bounded

section Rounds

variable [DecidableEq κ]

/-- Waiting for a fill comes to this fill and to no other. -/
theorem Traced.await
    (traced : Traced key bound service)
    (owner : κ)
    (generation : Nat) :
    Traced key bound (service.await owner generation).2 ∧
      ∀ fill, (service.await owner generation).1.fill? = some fill → fill = generation := by
  have waited := awaited service owner generation
  generalize service.await owner generation = outcome at waited ⊢
  cases waited with
  | missing absent =>
      refine ⟨traced, ?_⟩
      rintro fill ⟨⟩
      rfl
  | running found state =>
      refine ⟨traced.setFill found (key_refresh ..) (traced.refresh found), ?_⟩
      rintro fill ⟨⟩
      rfl
  | @succeeded fill value found state =>
      have stamped := traced.refresh found
      have set := traced.setFill found (key_refresh ..) stamped
      rw [state] at stamped
      obtain rfl : value.fill = generation := stamped
      refine ⟨?_, ?_⟩
      · exact set.setMemo (set.slots.publish _ _ id) (Memo.nextGeneration_publish ..)
      · rintro fill ⟨⟩
        rfl
  | @failed fill error found state =>
      have stamped := traced.refresh found
      rw [state] at stamped
      have set : Traced key bound (service.setFill generation ⟨fill.key, .failed none⟩) :=
        traced.setFill found rfl trivial
      refine ⟨?_, ?_⟩
      · exact set.setMemo (set.slots.abandon _ _) (Memo.nextGeneration_abandon ..)
      · rintro fill ⟨⟩
        exact stamped
  | taken found state =>
      have set := traced.setFill found (key_refresh ..) (traced.refresh found)
      refine ⟨?_, ?_⟩
      · exact set.setMemo (set.slots.abandon _ _) (Memo.nextGeneration_abandon ..)
      · rintro fill ⟨⟩

/-- A get that looks its key up joins a fill that serves this key. -/
theorem Traced.joining
    (traced : Traced key bound service)
    (get : Get κ) :
    Traced key bound (service.joining get) ∧
      (get.awaits = none → ∀ fill, service.joins? get = some fill →
        Serves (service.joining get).fillKeys key bound get.key fill) := by
  have joined := joined service get
  generalize service.joins? get = fill?, service.joining get = joining at joined
  cases joined with
  | before awaits =>
      refine ⟨traced, fun looksUp => ?_⟩
      rw [awaits] at looksUp
      cases looksUp
  | hit looksUp held fresh =>
      refine ⟨traced.setMemo (traced.slots.touch get.key) (Memo.nextGeneration_touch ..), ?_⟩
      rintro - fill ⟨⟩
  | waiting looksUp held =>
      refine ⟨traced.setMemo (traced.slots.touch get.key) (Memo.nextGeneration_touch ..), ?_⟩
      rintro - fill ⟨⟩
      exact Memo.condition_of_slot? traced.slots held
  | started looksUp missed =>
      have grown : service.fillKeys <+: service.fillKeys ++ [get.key] := List.prefix_append ..
      have serves : Serves (service.fillKeys ++ [get.key]) key bound get.key
          service.memo.nextGeneration := by
        rw [traced.generation, ← fillKeys_length]
        exact .next (by simpa using traced.bounded)
      have slots : service.memo.Every fun other slot =>
          Serves (service.fillKeys ++ [get.key]) key bound other slot.fill :=
        fun entry listed => (traced.slots entry listed).extend grown
      have same := Memo.nextGeneration_touch service.memo get.key
      have filling := traced.append get.key
        ((slots.touch get.key).start (by rw [same]; exact serves)) (congrArg (· + 1) same)
      refine ⟨filling, ?_⟩
      rintro - fill ⟨⟩
      rw [fillKeys, List.map_append]
      exact serves

/-- A round comes to a fill that serves the key of its get, if the fill that the get waits for
does so. -/
theorem Traced.round
    (traced : Traced key bound service)
    (lower : low ≤ bound)
    {get : Get κ}
    (waits : Waits service key low get) :
    Traced key bound (service.round get).2 ∧
      ∀ fill, (service.round get).1.fill? = some fill →
        Serves (service.round get).2.fillKeys key low get.key fill := by
  obtain ⟨joined, serves⟩ := traced.joining get
  have extension := extends_joining service get
  cases joins : service.joins? get with
  | none =>
      obtain ⟨value, filledAt, looksUp, held, hit⟩ := round_of_hit joins
      rw [hit]
      refine ⟨joined, ?_⟩
      rintro fill ⟨⟩
      exact ((Memo.condition_of_slot? traced.slots held).extend extension).lower lower
  | some generation =>
      rw [round_of_joins joins]
      obtain ⟨waited, only⟩ := joined.await get.key generation
      refine ⟨waited, fun fill came => ?_⟩
      obtain rfl := only fill came
      rw [fillKeys_await]
      cases awaits : get.awaits with
      | none => exact (serves awaits fill joins).lower lower
      | some waited =>
          obtain rfl := Option.some.inj (joins.symm.trans (joins?_of_awaits awaits))
          exact (waits fill awaits).extend extension

theorem Traced.rounds
    (traced : Traced key bound service)
    (lower : low ≤ bound)
    {get : Get κ}
    (waits : Waits service key low get)
    (count : Nat) :
    Traced key bound (service.rounds get count).2 ∧
      ComesTo (service.rounds get count).2 key low get.key (service.rounds get count).1 := by
  induction count generalizing service get with
  | zero => exact ⟨traced, rfl, waits⟩
  | succ count inductionHypothesis =>
      have round := traced.round lower waits
      unfold MemoService.rounds
      generalize service.round get = outcome at round
      obtain ⟨result, after⟩ := outcome
      obtain ⟨later, serves⟩ := round
      cases result with
      | returned result => exact ⟨later, serves (origin result) rfl⟩
      | waits generation =>
          refine ⟨later, rfl, fun waited waiting => ?_⟩
          cases waiting
          exact serves generation rfl
      | again =>
          have fresh : Waits after key low ⟨get.key, none⟩ := fun _ waiting => by cases waiting
          exact inductionHypothesis later fresh

omit [DecidableEq κ] in
/-- A get that waits for no fill is going to look its key up. -/
theorem waits_of_awaits_none
    {get : Get κ}
    (fresh : get.awaits = none) :
    Waits service key bound get := by
  intro generation waiting
  rw [fresh] at waiting
  cases waiting

/-- Rounds of which one looks the key up come to a fill that serves a look-up. -/
theorem Traced.rounds_looked
    (traced : Traced key bound service)
    (lower : low ≤ bound)
    {get : Get κ}
    (waits : Waits service key low get)
    {count : Nat}
    (looked : ∃ found ∈ service.found get count, found.1.awaits = none) :
    ComesTo (service.rounds get count).2 key bound get.key (service.rounds get count).1 := by
  obtain ⟨found, listed, fresh⟩ := looked
  cases count with
  | zero => cases listed
  | succ count =>
      rcases List.mem_cons.1 listed with rfl | later
      · exact (traced.rounds (Nat.le_refl bound) (waits_of_awaits_none fresh) (count + 1)).2
      · -- Only a round that starts over has another one after it, which looks the key up.
        have round := (traced.round lower waits).1
        unfold MemoService.rounds
        generalize service.round get = outcome at round later ⊢
        obtain ⟨result, after⟩ := outcome
        cases result with
        | returned result => cases later
        | waits generation => cases later
        | again => exact (round.rounds (Nat.le_refl bound) (waits_of_awaits_none rfl) count).2

end Rounds

theorem Waits.extends
    {after : MemoService κ (Stamped ν) (Stamped ε)}
    {get : Get κ}
    (waits : Waits service key bound get)
    (extension : Extends after service) :
    Waits after key bound get :=
  fun generation waiting => (waits generation waiting).extend extension

/-- The result of a fill may be settled at any time. -/
theorem Traced.settle
    (traced : Traced key bound service)
    (generation : Nat)
    (result : Except ε ν) :
    Traced key bound (service.settle generation (stamp generation result)) := by
  unfold MemoService.settle
  cases filler : service.filler with
  | prompt results => exact traced
  | manual settled =>
      refine ⟨traced.slots, traced.states, ?_, traced.generation, traced.bounded⟩
      intro other owner found given
      change ((generation, stamp generation result) :: settled).lookup other = some found at given
      rw [List.lookup_cons] at given
      split at given
      · next same =>
        obtain rfl : other = generation := eq_of_beq same
        obtain rfl := Option.some.inj given
        exact origin_stamp other result
      · have before : service.result? other owner = some found := by
          rw [result?, filler]
          exact given
        exact traced.results before

/-- If no slot is one of the key then every slot serves as if all fills so far were old. -/
theorem Traced.raise
    (traced : Traced key low service)
    (absent : ∀ entry ∈ service.memo.entries, entry.1 ≠ key) :
    Traced key service.fillKeys.length service where
  slots entry listed :=
    ⟨(traced.slots entry listed).own, fun same => absurd same (absent entry listed)⟩
  states := traced.states
  results := traced.results
  generation := traced.generation
  bounded := Nat.le_of_eq fillKeys_length

theorem traced_ofMemo
    (place : κ → Nat)
    (entryLimit shards : Nat)
    (ttl : Option Nat)
    (filler : Filler κ ν ε) :
    Traced key 0 (.ofMemo (.empty place entryLimit shards ttl) filler.stamped) where
  slots := Memo.every_empty place entryLimit shards ttl
  states := by
    intro generation fill found
    cases found
  results := by
    intro generation owner result given
    cases filler with
    | prompt results =>
        obtain rfl := Option.some.inj given
        exact origin_stamp generation (results generation owner)
    | manual settled =>
        obtain ⟨before, after, split, -⟩ := List.lookup_eq_some_iff.1 given
        have listed : (generation, result) ∈ settled.map fun entry =>
            (entry.1, stamp entry.1 entry.2) := by
          rw [split]
          simp
        obtain ⟨entry, -, same⟩ := List.mem_map.1 listed
        cases same
        exact origin_stamp entry.1 entry.2
  generation := rfl
  bounded := Nat.le_refl 0

end MemoService

end BuildQueue
