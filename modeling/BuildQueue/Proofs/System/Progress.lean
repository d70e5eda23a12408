import BuildQueue.Proofs.System.Views
import Mathlib.Order.Bounds.Basic
import Mathlib.Data.Set.Finite.Lattice
import Mathlib.Tactic.Choose

/-!
# Progress under fair schedules

A pass that takes steps again and again returns, however the others are interleaved with it. Each
step of its own takes it to its next question, except that it may have to wait for a view: then it
makes the next call of the fill that it waits for, unless somebody else has done so. What is left of
a pass and of a fill is a tree that every reply descends, so both come to an end.
-/

namespace BuildQueue

/-- What holds until some event and then gives way does give way, if the event happens again and
again. -/
theorem exists_of_recurs
    {event : Nat → Prop}
    (before after : Nat → Prop)
    (recurs : ∀ n, ∃ m, n ≤ m ∧ event m)
    (stays : ∀ n, ¬ event n → before n → before (n + 1) ∨ after (n + 1))
    (gives : ∀ n, event n → before n → after (n + 1))
    {n : Nat}
    (holds : before n) :
    ∃ m, n ≤ m ∧ after m := by
  by_contra never
  have never : ∀ k, n ≤ k → ¬ after k := fun k later absent => never ⟨k, later, absent⟩
  obtain ⟨m, above, happens⟩ := recurs n
  have lasts : ∀ {k}, n ≤ k → before k := by
    intro k later
    induction later with
    | refl => exact holds
    | @step k later inductionHypothesis =>
        have absent := never (k + 1) (Nat.le_succ_of_le later)
        by_cases happens : event k
        · exact absurd (gives k happens inductionHypothesis) absent
        · exact (stays k happens inductionHypothesis).resolve_right absent
  exact never (m + 1) (Nat.le_succ_of_le above) (gives m happens (lasts above))

namespace Script

variable {Op : Type} {Reply : Op → Type} {α : Type}

/-- One script is what a reply makes of another. -/
inductive Goes : Script Reply α → Script Reply α → Prop where
  | reply (op : Op) (next : Reply op → Script Reply α) (reply : Reply op) :
      Goes (ask op next) (next reply)

/-- What is shown of a script from what every reply makes of it is shown of all scripts. -/
theorem goes_induction
    {motive : Script Reply α → Prop}
    (descends : ∀ script, (∀ later, script.Goes later → motive later) → motive script)
    (script : Script Reply α) :
    motive script := by
  induction script with
  | done value => exact descends (done value) fun later goes => by cases goes
  | ask op next inductionHypothesis =>
      refine descends (ask op next) fun later goes => ?_
      cases goes with
      | reply _ _ reply => exact inductionHypothesis reply

end Script

/-- A pass has returned if nothing is left of it. -/
theorem Running.result?_eq_some_iff
    {κ : Type}
    {pass : Running κ}
    {result : Except Failure (List RequestId)} :
    pass.result? = some result ↔ pass.rest = .done result := by
  unfold result?
  cases pass.rest <;> simp

namespace System

variable {ι κ : Type} [DecidableEq ι] [DecidableEq κ]

/-- The system after as many turns of an endless schedule. -/
def follow (system : System ι κ) (turns : Nat → Turn ι κ) : Nat → System ι κ
  | 0 => system
  | n + 1 => (system.follow turns n).step (turns n)

/-- What every turn preserves holds all along a schedule. -/
theorem follow_induction
    (invariant : System ι κ → Prop)
    {system : System ι κ}
    {turns : Nat → Turn ι κ}
    (initial : invariant system)
    (preserved : ∀ before n, invariant before → invariant (before.step (turns n)))
    (n : Nat) :
    invariant (system.follow turns n) := by
  induction n with
  | zero => exact initial
  | succ n inductionHypothesis => exact preserved _ n inductionHypothesis

/-- A pass is not changed by the turns of others. -/
theorem passes_step_of_ne
    (system : System ι κ)
    {turn : Turn ι κ}
    {who : ι}
    (others : ∀ fault, turn ≠ .pass who fault) :
    (system.step turn).passes who = system.passes who := by
  cases turn with
  | pass other fault =>
      have different : who ≠ other := by
        rintro rfl
        exact others fault rfl
      have advanced := advances system other fault
      change (system.advance other fault).passes who = _
      generalize system.advance other fault = after at advanced ⊢
      cases advanced with
      | ended => rfl
      | acts action next asked => exact passes_reply_of_ne system different _
      | drives id next generation asked driven =>
          obtain ⟨call, nextLoad, -, rfl⟩ := drive_eq_some driven
          rfl
      | polls id next asked =>
          unfold poll
          dsimp only
          split
          · exact passes_reply_of_ne _ different _
          · exact Function.update_of_ne different ..
  | drive cache generation fault =>
      unfold step
      dsimp only
      cases driven : system.drive none cache generation fault with
      | none => rfl
      | some after =>
          obtain ⟨call, next, -, rfl⟩ := drive_eq_some driven
          rfl
  | _ => rfl

theorem passes_follow_of_ne
    {system : System ι κ}
    {turns : Nat → Turn ι κ}
    {n : Nat}
    {who : ι}
    (others : ¬ ∃ fault, turns n = .pass who fault) :
    (system.follow turns (n + 1)).passes who = (system.follow turns n).passes who :=
  passes_step_of_ne _ fun fault own => others ⟨fault, own⟩

omit [DecidableEq ι] in
/-- The next call of some load leaves any other load as it is. -/
theorem loads_drive
    {system after : System ι κ}
    {client : Option ι}
    {other : κ}
    {number : Nat}
    {fault : Option String}
    (driven : system.drive client other number fault = some after)
    {cache : κ}
    {generation : Nat}
    {load : Script Call.Reply (Except Failure View)}
    (loading : (system.caches cache).loads[generation]? = some load) :
    ∃ later, (after.caches cache).loads[generation]? = some later ∧
      (later = load ∨ load.Goes later) := by
  obtain ⟨call, next, asked, rfl⟩ := drive_eq_some driven
  dsimp only
  by_cases sameCache : cache = other
  · subst sameCache
    rw [Function.update_self]
    by_cases same : generation = number
    · subst same
      obtain rfl : load = .ask call next := Option.some.inj (loading.symm.trans asked)
      refine ⟨_, List.getElem?_set_self (List.getElem?_eq_some_iff.1 asked).1, .inr ?_⟩
      exact .reply call next _
    · exact ⟨load, (List.getElem?_set_ne (Ne.symm same)).trans loading, .inl rfl⟩
  · rw [Function.update_of_ne sameCache]
    exact ⟨load, loading, .inl rfl⟩

omit [DecidableEq ι] in
/-- A cache that keeps its loads, or starts more, leaves a load as it is. -/
theorem loads_update
    {system : System ι κ}
    {other : κ}
    {new : ViewCache}
    (kept : (system.caches other).loads <+: new.loads)
    {cache : κ}
    {generation : Nat}
    {load : Script Call.Reply (Except Failure View)}
    (loading : (system.caches cache).loads[generation]? = some load) :
    ((Function.update system.caches other new) cache).loads[generation]? = some load := by
  by_cases sameCache : cache = other
  · subst sameCache
    rw [Function.update_self]
    exact MemoService.getElem?_of_prefix kept loading
  · rw [Function.update_of_ne sameCache]
    exact loading

theorem loads_prefix_poll
    (cache : ViewCache)
    (get : Get RequestId) :
    cache.loads <+: (cache.poll get).2.loads :=
  List.prefix_append ..

/-- A turn leaves a load as it is, or makes its next call. -/
theorem loads_step
    (system : System ι κ)
    (turn : Turn ι κ)
    {cache : κ}
    {generation : Nat}
    {load : Script Call.Reply (Except Failure View)}
    (loading : (system.caches cache).loads[generation]? = some load) :
    ∃ later, ((system.step turn).caches cache).loads[generation]? = some later ∧
      (later = load ∨ load.Goes later) := by
  cases turn with
  | pass who fault =>
      have advanced := advances system who fault
      change ∃ later, ((system.advance who fault).caches cache).loads[generation]? = some later ∧ _
      generalize system.advance who fault = after at advanced ⊢
      cases advanced with
      | ended => exact ⟨load, loading, .inl rfl⟩
      | acts action next asked => exact ⟨load, loading, .inl rfl⟩
      | drives id next number asked driven => exact loads_drive driven loading
      | polls id next asked =>
          refine ⟨load, ?_, .inl rfl⟩
          unfold poll
          dsimp only
          split
          · exact loads_update (loads_prefix_poll _ _) loading
          · exact loads_update (loads_prefix_poll _ _) loading
  | look other id => exact ⟨load, loads_update (loads_prefix_poll _ _) loading, .inl rfl⟩
  | drive other number fault =>
      unfold step
      dsimp only
      cases driven : system.drive none other number fault with
      | none => exact ⟨load, loading, .inl rfl⟩
      | some after => exact loads_drive driven loading
  | tick other instant =>
      have kept : (system.caches other).loads <+:
          { system.caches other with
            service := { (system.caches other).service with now := instant } : ViewCache }.loads :=
        List.prefix_rfl
      exact ⟨load, loads_update kept loading, .inl rfl⟩
  | _ => exact ⟨load, loading, .inl rfl⟩

/-- A pass that acts goes on with the reply. -/
theorem rest_step_of_act
    {system : System ι κ}
    {who : ι}
    {action : Action}
    {next : action.Reply → Script Effect.Reply (Except Failure (List RequestId))}
    (asked : (system.passes who).rest = .ask (.act action) next)
    (fault : Option String) :
    ∃ reply, ((system.step (.pass who fault)).passes who).rest = next reply := by
  unfold step advance
  dsimp only
  rw [asked]
  exact ⟨_, rest_reply_self ..⟩

/-- A pass waits for a fill that has come so far. -/
structure Waits
    (who : ι)
    (id : RequestId)
    (next : Except Failure View → Script Effect.Reply (Except Failure (List RequestId)))
    (generation : Nat)
    (load : Script Call.Reply (Except Failure View))
    (system : System ι κ) : Prop where
  asked : (system.passes who).rest = .ask (.view id) next
  get : (system.passes who).get = some ⟨id, some generation⟩
  loading : (system.caches (system.passes who).cache).loads[generation]? = some load

section Views

variable {base : Store} {system : System ι κ} {who : ι} {id : RequestId}
  {next : Except Failure View → Script Effect.Reply (Except Failure (List RequestId))}

/-- A pass that has got a view goes on with it. -/
theorem rest_poll_of_returned
    {get : Get RequestId}
    {result : Except Failure View}
    (returned : ((system.caches (system.passes who).cache).poll get).1 = .returned result) :
    ((system.poll who get next).passes who).rest = next result := by
  unfold poll
  dsimp only
  rw [returned]
  exact rest_reply_self ..

/-- A view that can be assembled is given without an error. -/
theorem not_honest_error
    (assembled : ∃ view, base.view id = .ok view)
    (failure : Failure) :
    ¬ Honest base False id (.error failure) := by
  obtain ⟨view, assembled⟩ := assembled
  rintro (same | ⟨impossible, -⟩)
  · rw [assembled] at same
    cases same
  · exact impossible

/-- A pass that waits for a fill makes the next call of it, or goes on if the fill has ended. -/
theorem Waits.step
    {generation : Nat}
    {load : Script Call.Reply (Except Failure View)}
    (waits : Waits who id next generation load system)
    (sound : ViewsSound base False system)
    (assembled : ∃ view, base.view id = .ok view)
    (fault : Option String) :
    (∃ result, ((system.step (.pass who fault)).passes who).rest = next result) ∨
      ∃ later, load.Goes later ∧
        Waits who id next generation later (system.step (.pass who fault)) := by
  obtain ⟨asked, get, loading⟩ := waits
  have stepped : system.step (.pass who fault) =
      (system.drive (some who) (system.passes who).cache generation fault).getD
        (system.poll who ⟨id, some generation⟩ next) := by
    unfold System.step advance
    dsimp only
    rw [asked, get]
    rfl
  rw [stepped]
  cases load with
  | ask call nextLoad =>
      cases driven : system.drive (some who) (system.passes who).cache generation fault with
      | none =>
          unfold drive ViewCache.drive at driven
          rw [loading] at driven
          cases driven
      | some after =>
          obtain ⟨sameCall, sameNext, found, rfl⟩ := drive_eq_some driven
          cases loading.symm.trans found
          refine .inr ⟨_, .reply call nextLoad (system.site.callWith fault .cache call).1, asked,
            get, ?_⟩
          rw [Option.getD_some]
          dsimp only
          rw [Function.update_self]
          exact List.getElem?_set_self (List.getElem?_eq_some_iff.1 loading).1
  | done result =>
      have ended : system.drive (some who) (system.passes who).cache generation fault = none := by
        unfold drive ViewCache.drive
        rw [loading]
        rfl
      rw [ended, Option.getD_none]
      left
      rcases (sound.caches _).service.poll_cases (sound.gets get).2 (not_honest_error assembled)
        with ⟨result, returned⟩ | ⟨other, -, fresh | ⟨same, unsettled⟩⟩
      · exact ⟨result, rest_poll_of_returned returned⟩
      · cases fresh
      · cases same
        exact absurd unsettled ((sound.caches _).ended loading id)

/-- A pass that begins to wait for a view looks it up: it gets it, or waits for a fill. -/
theorem step_of_idle
    (asked : (system.passes who).rest = .ask (.view id) next)
    (idle : ((system.passes who).get.getD (.ofKey id)).awaits = none)
    (sound : ViewsSound base False system)
    (assembled : ∃ view, base.view id = .ok view)
    (fault : Option String) :
    (∃ result, ((system.step (.pass who fault)).passes who).rest = next result) ∨
      ∃ generation load, Waits who id next generation load (system.step (.pass who fault)) := by
  have stepped : system.step (.pass who fault) =
      system.poll who ((system.passes who).get.getD (.ofKey id)) next := by
    unfold System.step advance
    dsimp only
    rw [asked]
    dsimp only
    rw [idle]
    rfl
  rw [stepped]
  obtain ⟨key, awaits⟩ := sound.get asked
  have polled := sound.poll asked
  generalize (system.passes who).get.getD (.ofKey id) = get at key awaits polled
  subst key
  rcases (sound.caches _).service.poll_cases awaits (not_honest_error assembled)
    with ⟨result, returned⟩ | ⟨generation, pending, -⟩
  · exact .inl ⟨result, rest_poll_of_returned returned⟩
  · have waiting : ((system.poll who get next).passes who).rest = .ask (.view get.key) next ∧
        ((system.poll who get next).passes who).get = some ⟨get.key, some generation⟩ := by
      have pending : ((system.caches (system.passes who).cache).poll get).1 =
        .pending ⟨get.key, some generation⟩ := pending
      unfold poll
      dsimp only
      rw [pending]
      exact ⟨by simpa using asked, by simp⟩
    obtain ⟨-, own⟩ := polled.gets waiting.2
    have started := List.getElem?_eq_some_iff.1 (own generation rfl)
    obtain ⟨bound, -⟩ := started
    rw [MemoService.fillKeys_length, ← (polled.caches _).started] at bound
    exact .inr ⟨generation, _, waiting.1, waiting.2, List.getElem?_eq_getElem bound⟩

end Views

section Fair

variable {base : Store} {start : System ι κ} {turns : Nat → Turn ι κ} {who : ι}

/-- A pass takes a step again and again. -/
def Recurs (turns : Nat → Turn ι κ) (who : ι) : Prop :=
  ∀ n, ∃ m, n ≤ m ∧ ∃ fault, turns m = .pass who fault

/-- A pass that waits for a fill gets its view at last. -/
theorem Waits.gets
    (recurs : Recurs turns who)
    (sound : ∀ n, ViewsSound base False (start.follow turns n))
    {id : RequestId}
    (assembled : ∃ view, base.view id = .ok view)
    {next : Except Failure View → Script Effect.Reply (Except Failure (List RequestId))}
    {generation : Nat}
    {load : Script Call.Reply (Except Failure View)}
    {n : Nat}
    (waits : Waits who id next generation load (start.follow turns n)) :
    ∃ m, n ≤ m ∧ ∃ result, ((start.follow turns m).passes who).rest = next result := by
  -- The induction is on what is left of the fill, whoever makes its calls.
  induction load using Script.goes_induction generalizing n with
  | descends load inductionHypothesis =>
  have advances : ∃ m, n ≤ m ∧
      ((∃ result, ((start.follow turns m).passes who).rest = next result) ∨
        ∃ later, load.Goes later ∧
          Waits who id next generation later (start.follow turns m)) := by
    refine exists_of_recurs
      (fun k => Waits who id next generation load (start.follow turns k)) _ recurs ?stays ?gives
      waits
    case stays =>
      intro k others waiting
      have same : (start.follow turns (k + 1)).passes who = _ := passes_follow_of_ne others
      obtain ⟨later, loading, kept⟩ := loads_step _ (turns k) waiting.loading
      have goes : Waits who id next generation later (start.follow turns (k + 1)) := by
        refine ⟨?_, ?_, ?_⟩
        · exact (congrArg Running.rest same).trans waiting.asked
        · exact (congrArg Running.get same).trans waiting.get
        · rw [same]
          exact loading
      rcases kept with rfl | descends
      · exact .inl goes
      · exact .inr (.inr ⟨later, descends, goes⟩)
    case gives =>
      rintro k ⟨fault, own⟩ waiting
      rw [follow, own]
      exact waiting.step (sound k) assembled fault
  obtain ⟨m, above, got | ⟨later, descends, waiting⟩⟩ := advances
  · exact ⟨m, above, got⟩
  · obtain ⟨last, beyond, got⟩ := inductionHypothesis later descends waiting
    exact ⟨last, Nat.le_trans above beyond, got⟩

/-- A pass that asks for a view gets it at last. -/
theorem gets_view
    (recurs : Recurs turns who)
    (sound : ∀ n, ViewsSound base False (start.follow turns n))
    {id : RequestId}
    (assembled : ∃ view, base.view id = .ok view)
    {next : Except Failure View → Script Effect.Reply (Except Failure (List RequestId))}
    {n : Nat}
    (asked : ((start.follow turns n).passes who).rest = .ask (.view id) next) :
    ∃ m, n ≤ m ∧ ∃ result, ((start.follow turns m).passes who).rest = next result := by
  cases awaits : (((start.follow turns n).passes who).get.getD (.ofKey id)).awaits with
  | some generation =>
      obtain ⟨key, own⟩ := (sound n).get asked
      obtain ⟨bound, -⟩ := List.getElem?_eq_some_iff.1 (own generation awaits)
      rw [MemoService.fillKeys_length, ← ((sound n).caches _).started] at bound
      have get : ((start.follow turns n).passes who).get = some ⟨id, some generation⟩ := by
        cases polled : ((start.follow turns n).passes who).get with
        | none =>
            rw [polled] at awaits
            cases awaits
        | some get =>
            rw [polled, Option.getD_some] at key awaits
            rw [← key, ← awaits]
      exact Waits.gets recurs sound assembled ⟨asked, get, List.getElem?_eq_getElem bound⟩
  | none =>
      have looks : ∃ m, n ≤ m ∧
          ((∃ result, ((start.follow turns m).passes who).rest = next result) ∨
            ∃ generation load, Waits who id next generation load (start.follow turns m)) := by
        refine exists_of_recurs
          (fun k => ((start.follow turns k).passes who).rest = .ask (.view id) next ∧
            (((start.follow turns k).passes who).get.getD (.ofKey id)).awaits = none)
          _ recurs ?stays ?gives ⟨asked, awaits⟩
        case stays =>
          intro k others idle
          rw [passes_follow_of_ne others]
          exact .inl idle
        case gives =>
          rintro k ⟨fault, own⟩ ⟨askedThen, idle⟩
          rw [follow, own]
          exact step_of_idle askedThen idle (sound k) assembled fault
      obtain ⟨m, above, got | ⟨generation, load, waiting⟩⟩ := looks
      · exact ⟨m, above, got⟩
      · obtain ⟨last, beyond, got⟩ := waiting.gets recurs sound assembled
        exact ⟨last, Nat.le_trans above beyond, got⟩

/-- A pass whose views can be assembled returns. -/
theorem returns_of_recurs
    (recurs : Recurs turns who)
    (sound : ∀ n, ViewsSound base False (start.follow turns n))
    (assembled : ∀ n id next, ((start.follow turns n).passes who).rest = .ask (.view id) next →
      ∃ view, base.view id = .ok view)
    (n : Nat) :
    ∃ m, n ≤ m ∧ ∃ result, ((start.follow turns m).passes who).rest = .done result := by
  generalize left : ((start.follow turns n).passes who).rest = rest
  -- The induction is on what is left of the pass.
  induction rest using Script.goes_induction generalizing n with
  | descends rest inductionHypothesis =>
  have goesOn : ∀ {later : Script Effect.Reply (Except Failure (List RequestId))} {m},
      rest.Goes later → n ≤ m → ((start.follow turns m).passes who).rest = later →
      ∃ last, n ≤ last ∧ ∃ result, ((start.follow turns last).passes who).rest = .done result := by
    intro later m descends above reached
    obtain ⟨last, beyond, returned⟩ := inductionHypothesis later descends m reached
    exact ⟨last, Nat.le_trans above beyond, returned⟩
  cases rest with
  | done result => exact ⟨n, Nat.le_refl n, result, left⟩
  | ask effect next =>
      cases effect with
      | view id =>
          obtain ⟨m, above, result, got⟩ := gets_view recurs sound (assembled n id next left) left
          exact goesOn (.reply (Effect.view id) next result) above got
      | act action =>
          obtain ⟨m, above, reply, acted⟩ := exists_of_recurs
            (fun k => ((start.follow turns k).passes who).rest = .ask (.act action) next)
            (fun k => ∃ reply, ((start.follow turns k).passes who).rest = next reply)
            recurs
            (fun k others asked => by
              rw [passes_follow_of_ne others]
              exact .inl asked)
            (fun k ⟨fault, own⟩ asked => by
              rw [follow, own]
              exact rest_step_of_act asked fault)
            left
          exact goesOn (.reply (Effect.act action) next reply) above acted

omit [DecidableEq ι] in
theorem exists_forall_le [Finite ι] (moments : ι → Nat) : ∃ bound, ∀ who, moments who ≤ bound := by
  obtain ⟨bound, above⟩ := (Set.finite_range moments).bddAbove
  exact ⟨bound, fun who => above ⟨who, rfl⟩⟩

/-- What a pass has returned it has returned for good. -/
theorem done_follow
    {n m : Nat}
    (later : n ≤ m)
    {result : Except Failure (List RequestId)}
    (returned : ((start.follow turns n).passes who).rest = .done result) :
    ((start.follow turns m).passes who).rest = .done result := by
  induction later with
  | refl => exact returned
  | @step k later inductionHypothesis =>
      by_cases own : ∃ fault, turns k = .pass who fault
      · obtain ⟨fault, own⟩ := own
        rw [follow, own]
        unfold step advance
        dsimp only
        rw [inductionHypothesis]
        exact inductionHypothesis
      · rw [passes_follow_of_ne own]
        exact inductionHypothesis

/-- If each of finitely many passes takes steps again and again, there is a moment at which all of
them have returned. -/
theorem all_return
    [Finite ι]
    (recurs : ∀ who, Recurs turns who)
    (sound : ∀ n, ViewsSound base False (start.follow turns n))
    (assembled : ∀ n who id next, ((start.follow turns n).passes who).rest = .ask (.view id) next →
      ∃ view, base.view id = .ok view) :
    ∃ n, ∀ who, ((start.follow turns n).passes who).result? ≠ none := by
  choose moments _ results returned using fun who =>
    returns_of_recurs (recurs who) sound (fun n id next => assembled n who id next) 0
  obtain ⟨bound, below⟩ := exists_forall_le moments
  refine ⟨bound, fun who => ?_⟩
  rw [Running.result?_eq_some_iff.2 (done_follow (below who) (returned who))]
  exact Option.some_ne_none _

end Fair

end System
end BuildQueue
