import BuildQueue.Proofs.Pass.Tally
import BuildQueue.Proofs.Sample
import BuildQueue.Proofs.System.Moves
import Mathlib.Algebra.BigOperators.Group.Finset.Piecewise
import Mathlib.Data.Fintype.Basic

/-!
# Crews

A crew is any number of passes that count with the same counters. What each of them is told is left
open at every step, so nothing is assumed of the store, of the view caches, of the time or of what
other clients do, and any call may fail. A pass first looks for candidates with the strategies of
its policy, and then makes its claims. Once all have returned, the claims that were counted are
balanced: `Crew.claims_counted`.

Every schedule of a system is one of the crew of its passes: `System.exists_crew`.
-/

namespace BuildQueue

open Script (Ensures)

/-- A pass by what it is at. -/
inductive Phase where
  /-- It looks for candidates still. -/
  | finding (effect : Effect)
      (next : effect.Reply → Script Effect.Reply (Except Failure (List (List RequestId))))
  /-- It could not find its candidates. -/
  | lost (failure : Failure)
  /-- It claims those that it has found. -/
  | claiming (rest : Script Effect.Reply (Except Failure (List RequestId)))

namespace Phase

variable {phase : Phase} {effect : Effect} {result : Except Failure (List RequestId)}

/-- Claims what was found. -/
def claims (found : List (List RequestId)) : Pass (List RequestId) :=
  Pass.select Pass.claimAndSkip (Pass.ascending found.flatten)

/-- A pass goes on to its claims as soon as it has found its candidates. -/
def ofFinding : Script Effect.Reply (Except Failure (List (List RequestId))) → Phase
  | .done (.ok found) => claiming (claims found).run
  | .done (.error failure) => lost failure
  | .ask effect next => finding effect next

/-- A pass that has not taken a step. -/
def start (policy : Policy Strategy) (newIds : List RequestId) : Phase :=
  ofFinding (newIds.mapM (Pass.findRedundant policy)).run

/-- What is left of the pass. -/
def rest : Phase → Script Effect.Reply (Except Failure (List RequestId))
  | finding effect next => (ExceptT.mk (.ask effect next) >>= claims).run
  | lost failure => .done (.error failure)
  | claiming rest => rest

/-- What the pass has returned. -/
def result? (phase : Phase) : Option (Except Failure (List RequestId)) :=
  match phase.rest with
  | .done result => some result
  | .ask _ _ => none

/-- Whether the pass makes its claims. -/
def isClaiming : Phase → Bool
  | claiming _ => true
  | _ => false

/-- Whether the pass has returned a failure of its claims. -/
def failsClaiming : Phase → Bool
  | claiming (.done (.error _)) => true
  | _ => false

/-- The pass gets a reply to what it asks for, if it has not returned. Gives what was done, and the
pass after it. -/
def step (reply : (effect : Effect) → effect.Reply) : Phase → Option (Deed × Phase)
  | finding effect next => some (⟨effect, reply effect⟩, ofFinding (next (reply effect)))
  | claiming (.ask effect next) => some (⟨effect, reply effect⟩, claiming (next (reply effect)))
  | claiming (.done _) | lost _ => none

theorem rest_ofFinding
    (script : Script Effect.Reply (Except Failure (List (List RequestId)))) :
    (ofFinding script).rest = (ExceptT.mk script >>= claims).run := by
  cases script with
  | ask effect next => rfl
  | done result => cases result <;> rfl

/-- A pass goes through these phases. -/
theorem rest_start
    (policy : Policy Strategy)
    (newIds : List RequestId) :
    (start policy newIds).rest = (Pass.collapse policy newIds).run := rest_ofFinding _

/-- The steps of a pass are those of what is left of it. -/
theorem step_of_asked
    {next : effect.Reply → Script Effect.Reply (Except Failure (List RequestId))}
    (asked : phase.rest = .ask effect next)
    (reply : (effect : Effect) → effect.Reply) :
    ∃ after, phase.step reply = some (⟨effect, reply effect⟩, after) ∧
      after.rest = next (reply effect) := by
  cases phase with
  | finding effect next =>
      cases asked
      exact ⟨_, rfl, rest_ofFinding _⟩
  | lost failure => cases asked
  | claiming rest =>
      obtain rfl : rest = .ask effect next := asked
      exact ⟨_, rfl, rfl⟩

/-- A pass that looks for candidates has made no claims, and the claims of one that makes them are
going to be settled. -/
def Settling (claimed : List Deed) : Phase → Prop
  | claiming rest => Ensures noting Settles rest claimed
  | _ => claimed = []

theorem settling_ofFinding
    (script : Script Effect.Reply (Except Failure (List (List RequestId)))) :
    (ofFinding script).Settling [] := by
  cases script with
  | ask effect next => rfl
  | done result =>
      cases result with
      | error failure => rfl
      | ok found => exact Pass.claims_settle _

/-- A deed is one of the claims if the pass was at them already. -/
theorem Settling.step
    {claimed : List Deed}
    {deed : Deed}
    {after : Phase}
    {reply : (effect : Effect) → effect.Reply}
    (settling : phase.Settling claimed)
    (stepped : phase.step reply = some (deed, after)) :
    after.Settling (claimed ++ if phase.isClaiming then [deed] else []) := by
  cases phase with
  | finding effect next =>
      cases stepped
      obtain rfl : claimed = [] := settling
      exact settling_ofFinding _
  | lost failure => cases stepped
  | claiming rest =>
      cases rest with
      | done result => cases stepped
      | ask effect next =>
          cases stepped
          exact settling.2 _ _ rfl

/-- The claims of a pass that has returned are balanced. -/
theorem Settling.returned
    {claimed : List Deed}
    (settling : phase.Settling claimed)
    (returned : phase.result? = some result) :
    ∃ collapsed, Balanced claimed collapsed phase.failsClaiming.toNat ∧
      ∀ ids, result = .ok ids → ids.length = collapsed := by
  cases phase with
  | finding effect next => cases returned
  | lost failure =>
      cases returned
      obtain rfl : claimed = [] := settling
      exact ⟨0, .nil, nofun⟩
  | claiming rest =>
      cases rest with
      | ask effect next => cases returned
      | done result =>
          cases returned
          cases result with
          | error failure =>
              obtain ⟨collapsed, balanced⟩ := settling
              exact ⟨collapsed, balanced, nofun⟩
          | ok ids => exact ⟨ids.length, settling, by rintro _ ⟨⟩; rfl⟩

end Phase

/-- A deed of one of some passes. -/
structure Entry (ι : Type) where
  who : ι
  /-- Whether it is one of the claims of the pass. -/
  claiming : Bool
  deed : Deed

/-- Passes, numbered by `ι`, that share their counters. -/
structure Crew (ι : Type) where
  passes : ι → Phase
  counters : Counters
  lines : List LogLine
  /-- What the passes have done so far. -/
  record : List (Entry ι)

namespace Crew

variable {ι : Type}

/-- A crew that has not taken a step. -/
def start
    (policy : ι → Policy Strategy)
    (newIds : ι → List RequestId)
    (counters : Counters)
    (lines : List LogLine) : Crew ι where
  passes who := .start (policy who) (newIds who)
  counters
  lines
  record := []

/-- What may happen next. -/
inductive Event (ι : Type) where
  /-- A pass asks for something and is told something. -/
  | told (who : ι) (reply : (effect : Effect) → effect.Reply)
  /-- Somebody counts a call of a store. -/
  | charged (write : Bool)

variable [DecidableEq ι] {crew : Crew ι} {who other : ι} {deed : Deed} {after : Phase}

/-- A pass has done something, which is put on record. -/
def note (crew : Crew ι) (who : ι) (deed : Deed) (after : Phase) : Crew ι where
  passes := Function.update crew.passes who after
  counters := deed.tally crew.counters
  lines := crew.lines ++ deed.lines
  record := crew.record ++ [⟨who, (crew.passes who).isClaiming, deed⟩]

/-- What an effect is told at a site where a call may meet a fault. -/
def told (site : Site) (fault : Option String) (view : Except Failure View) :
    (effect : Effect) → effect.Reply
  | .act action => (site.act fault action).1
  | .view _ => view

/-- The crew after something has happened. -/
def step (crew : Crew ι) : Event ι → Crew ι
  | .told who reply =>
      match (crew.passes who).step reply with
      | none => crew
      | some (deed, after) => crew.note who deed after
  | .charged write =>
      { crew with
        counters := crew.counters.increment (if write then .storeWrites else .storeReads) }

/-- The crew after all that has happened. -/
def run (crew : Crew ι) (events : List (Event ι)) : Crew ι := events.foldl step crew

/-- The counters that passes count their claims with. -/
def claimCounters : List Counter := [.claimsAttempted, .claimsLost, .requestsCollapsed]

/-- What a pass has done in its claims. -/
def claimed (crew : Crew ι) (who : ι) : List Deed :=
  (crew.record.filter fun entry => entry.who = who ∧ entry.claiming).map (·.deed)

@[simp] theorem passes_note_self : (crew.note who deed after).passes who = after := by
  simp [note]

theorem passes_note_of_ne
    (different : other ≠ who) :
    (crew.note who deed after).passes other = crew.passes other := by
  simp [note, different]

@[simp] theorem claimed_note_self :
    (crew.note who deed after).claimed who =
      crew.claimed who ++ if (crew.passes who).isClaiming then [deed] else [] := by
  cases claiming : (crew.passes who).isClaiming <;> simp [note, claimed, claiming]

theorem claimed_note_of_ne
    (different : other ≠ who) :
    (crew.note who deed after).claimed other = crew.claimed other := by
  simp [note, claimed, different.symm]

/-- The counters and the lines are those of what was done, and all claims are going to be
settled. -/
structure Recorded (counters : Counters) (lines : List LogLine) (crew : Crew ι) : Prop where
  counts : ∀ counter ∈ claimCounters, crew.counters.value counter =
    counters.value counter + crew.record.countP (·.deed.counts counter)
  announces : crew.lines.countP (·.announces) =
    lines.countP (·.announces) + crew.record.countP (·.deed.announces)
  settling : ∀ who, (crew.passes who).Settling (crew.claimed who)

namespace Recorded

variable {counters : Counters} {lines : List LogLine}

theorem start
    (policy : ι → Policy Strategy)
    (newIds : ι → List RequestId) :
    Recorded counters lines (start policy newIds counters lines) where
  counts _ _ := (Int.add_zero _).symm
  announces := rfl
  settling _ := Phase.settling_ofFinding _

theorem note
    {reply : (effect : Effect) → effect.Reply}
    (recorded : Recorded counters lines crew)
    (stepped : (crew.passes who).step reply = some (deed, after)) :
    Recorded counters lines (crew.note who deed after) where
  counts := by
    intro counter member
    have counted : ((crew.note who deed after).record.countP (·.deed.counts counter) : Int) =
        crew.record.countP (·.deed.counts counter) + if deed.counts counter then 1 else 0 := by
      rw [Crew.note, List.countP_append, List.countP_singleton, Int.natCast_add]
      split <;> rfl
    rw [counted, ← Int.add_assoc, ← recorded.counts counter member]
    exact deed.value_tally crew.counters
  announces := by
    rw [Crew.note, List.countP_append, recorded.announces, Deed.countP_announces_lines,
      List.countP_append, List.countP_singleton, Nat.add_assoc]
  settling := by
    intro other
    by_cases same : other = who
    · subst same
      rw [passes_note_self, claimed_note_self]
      exact (recorded.settling other).step stepped
    · rw [passes_note_of_ne same, claimed_note_of_ne same]
      exact recorded.settling other

theorem step
    (recorded : Recorded counters lines crew)
    (event : Event ι) :
    Recorded counters lines (crew.step event) := by
  cases event with
  | told who reply =>
      unfold Crew.step
      dsimp only
      split
      · exact recorded
      · next stepped => exact recorded.note stepped
  | charged write =>
      refine ⟨fun counter member => ?_, recorded.announces, recorded.settling⟩
      have other : counter ≠ (if write then .storeWrites else .storeReads) := by
        rintro rfl
        cases write <;> simp [claimCounters] at member
      refine Eq.trans ?_ (recorded.counts counter member)
      rw [Crew.step, Counters.increment, Counters.value_add, if_neg other, Int.add_zero]

theorem run
    (recorded : Recorded counters lines crew)
    (events : List (Event ι)) :
    Recorded counters lines (crew.run events) :=
  List.foldlRecOn events Crew.step recorded fun _ recorded event _ => recorded.step event

end Recorded

/-- The claims of all passes are those of each of them. -/
theorem countP_claiming [Fintype ι]
    (crew : Crew ι)
    (condition : Deed → Bool) :
    crew.record.countP (fun entry => entry.claiming && condition entry.deed) =
      ∑ who, (crew.claimed who).countP condition := by
  simp only [claimed, List.countP_map, List.countP_filter]
  induction crew.record with
  | nil => simp
  | cons entry record inductionHypothesis =>
      simp only [List.countP_cons, inductionHypothesis, Finset.sum_add_distrib, Function.comp_apply]
      congr 1
      cases entry.claiming <;> cases condition entry.deed <;> simp

omit [DecidableEq ι] in
/-- A deed is one of the claims or it is not. -/
theorem countP_record
    (crew : Crew ι)
    (condition : Deed → Bool) :
    crew.record.countP (fun entry => condition entry.deed) =
      crew.record.countP (fun entry => entry.claiming && condition entry.deed) +
        crew.record.countP (fun entry => !entry.claiming && condition entry.deed) := by
  rw [List.countP_eq_countP_filter_add _ _ (·.claiming), List.countP_filter, List.countP_filter]
  simp only [Bool.and_comm]

/-- What is counted by nothing but the claims of the passes is what each of them has counted. -/
theorem Recorded.value_eq [Fintype ι]
    {counters : Counters}
    {lines : List LogLine}
    {counter : Counter}
    (recorded : Recorded counters lines crew)
    (member : counter ∈ claimCounters)
    (zero : counters.value counter = 0)
    (untouched : ∀ entry ∈ crew.record, entry.claiming = false →
      entry.deed.counts counter = false) :
    crew.counters.value counter = (∑ who, (crew.claimed who).countP (·.counts counter) : Nat) := by
  have elsewhere : crew.record.countP
      (fun entry => !entry.claiming && entry.deed.counts counter) = 0 := by
    refine List.countP_eq_zero.2 fun entry listed counted => ?_
    rw [Bool.and_eq_true, Bool.not_eq_true'] at counted
    rw [untouched entry listed counted.1] at counted
    exact Bool.false_ne_true counted.2
  rw [recorded.counts counter member, zero, Int.zero_add, countP_record, elsewhere, Nat.add_zero,
    countP_claiming]

/-- Once all passes have returned, each claim that was attempted was lost, or its request was
collapsed, or the pass failed at it; unless something else has changed the counters. The requests
that were collapsed are those whose completion has succeeded, each of which was announced, and if no
pass has failed then they are those that the passes return. -/
theorem claims_counted [Fintype ι]
    (policy : ι → Policy Strategy)
    (newIds : ι → List RequestId)
    {counters : Counters}
    {lines : List LogLine}
    {events : List (Event ι)}
    (ran : (start policy newIds counters lines).run events = crew)
    (returned : ∀ who, (crew.passes who).result? ≠ none)
    (zero : ∀ counter ∈ claimCounters, counters.value counter = 0)
    (untouched : ∀ counter ∈ claimCounters, ∀ entry ∈ crew.record, entry.claiming = false →
      entry.deed.counts counter = false) :
    let value := crew.counters.value
    value .claimsAttempted = value .claimsLost + value .requestsCollapsed +
        (Finset.univ.filter fun who => (crew.passes who).failsClaiming).card ∧
      value .requestsCollapsed =
          crew.record.countP (fun entry => entry.claiming && entry.deed.completes) ∧
        crew.lines.countP (·.announces) = lines.countP (·.announces) +
            value .requestsCollapsed +
            crew.record.countP (fun entry => !entry.claiming && entry.deed.announces) ∧
          ∀ ids : ι → List RequestId, (∀ who, (crew.passes who).result? = some (.ok (ids who))) →
            value .requestsCollapsed = (∑ who, (ids who).length : Nat) := by
  intro value
  have recorded : Recorded counters lines crew := ran ▸ (Recorded.start policy newIds).run events
  have settled : ∀ who, ∃ collapsed,
      Balanced (crew.claimed who) collapsed (crew.passes who).failsClaiming.toNat ∧
        ∀ ids, (crew.passes who).result? = some (.ok ids) → ids.length = collapsed := by
    intro who
    obtain ⟨result, ended⟩ := Option.ne_none_iff_exists'.1 (returned who)
    obtain ⟨collapsed, balanced, lengths⟩ := (recorded.settling who).returned ended
    refine ⟨collapsed, balanced, fun ids same => lengths ids ?_⟩
    exact Option.some.inj (ended.symm.trans same)
  choose collapsed balanced lengths using settled
  have counted : ∀ counter ∈ claimCounters, value counter =
      (∑ who, (crew.claimed who).countP (·.counts counter) : Nat) := fun counter member =>
    recorded.value_eq member (zero counter member) (untouched counter member)
  have total : value .requestsCollapsed = (∑ who, collapsed who : Nat) := by
    rw [counted .requestsCollapsed (by decide)]
    exact congrArg Nat.cast (Finset.sum_congr rfl fun who _ => (balanced who).counted)
  have failed : (Finset.univ.filter fun who => (crew.passes who).failsClaiming).card =
      ∑ who, (crew.passes who).failsClaiming.toNat := by
    rw [Finset.card_filter]
    exact Finset.sum_congr rfl fun who _ => by cases (crew.passes who).failsClaiming <;> rfl
  refine ⟨?attempts, ?completions, ?announcements, fun ids ended => ?results⟩
  case attempts =>
    have attempts : ∑ who, (crew.claimed who).countP (·.counts .claimsAttempted) =
        ∑ who, (crew.claimed who).countP (·.counts .claimsLost) + ∑ who, collapsed who +
          ∑ who, (crew.passes who).failsClaiming.toNat := by
      rw [← Finset.sum_add_distrib, ← Finset.sum_add_distrib]
      exact Finset.sum_congr rfl fun who _ => (balanced who).attempted
    rw [counted .claimsAttempted (by decide), counted .claimsLost (by decide), total, failed,
      attempts]
    rfl
  case completions =>
    rw [total, countP_claiming]
    exact congrArg Nat.cast (Finset.sum_congr rfl fun who _ => (balanced who).completed.symm)
  case announcements =>
    have announced : crew.record.countP (fun entry => entry.claiming && entry.deed.announces) =
        ∑ who, collapsed who :=
      (countP_claiming crew _).trans (Finset.sum_congr rfl fun who _ => (balanced who).announced)
    rw [recorded.announces, countP_record, announced, total, ← Nat.add_assoc]
    rfl
  case results =>
    rw [total]
    exact congrArg Nat.cast (Finset.sum_congr rfl fun who _ => (lengths who _ (ended who)).symm)

/-- What passes are told of two requests for the same, with a claim and a completion of the second
one as given. -/
def answers (claim : Except Failure Bool) (completion : Except Failure Unit) :
    (effect : Effect) → effect.Reply
  | .act (.call _ (.listUnclaimed _)) => .ok [{ Sample.early with id := ⟨2⟩ }]
  | .act (.call _ (.claim _ _)) => claim
  | .act (.call _ (.complete _ _ _)) => completion
  | effect => told (Sample.site Sample.twins) none (.error (.other "no views")) effect

/-- Three passes want to claim the same request. The first collapses it, the second comes too late,
and the claim of the third fails. -/
theorem claims_counted_twins :
    let won := answers (.ok true) (.ok ())
    let late := answers (.ok false) (.ok ())
    let broken := answers (.error (.other "gone")) (.ok ())
    let events : List (Event (Fin 3)) :=
      [0, 1, 2].flatMap (fun who => List.replicate 5 (.told who won)) ++
        [.told 0 won, .told 1 late, .told 2 broken, .charged true, .told 0 won, .told 1 late,
          .told 0 won, .told 1 late, .told 0 won]
    let crew := (start (fun _ => .standard) (fun _ => [⟨1⟩]) ∅ []).run events
    let value := crew.counters.value
    (∀ who, (crew.passes who).result? ≠ none) ∧
      (∀ counter ∈ claimCounters, ∀ entry ∈ crew.record, entry.claiming = false →
        entry.deed.counts counter = false) ∧
        value .claimsAttempted = value .claimsLost + value .requestsCollapsed + 1 ∧
          value .requestsCollapsed = 1 := by
  intro won late broken events crew value
  have returned : ∀ who, (crew.passes who).result? ≠ none := by decide +kernel
  have untouched : ∀ counter ∈ claimCounters, ∀ entry ∈ crew.record, entry.claiming = false →
      entry.deed.counts counter = false := by
    decide +kernel
  have failed : (Finset.univ.filter fun who => (crew.passes who).failsClaiming).card = 1 := by
    decide +kernel
  have completed :
      crew.record.countP (fun entry => entry.claiming && entry.deed.completes) = 1 := by
    decide +kernel
  obtain ⟨attempts, completions, -, -⟩ := claims_counted (fun _ => .standard) (fun _ => [⟨1⟩])
    (rfl : _ = crew) returned (fun _ _ => rfl) untouched
  rw [failed] at attempts
  rw [completed] at completions
  exact ⟨returned, untouched, attempts, completions⟩

/-! ## Systems -/

/-- A crew has counted and logged this, and this is left of its passes. -/
structure Shows
    (crew : Crew ι)
    (counters : Counters)
    (lines : List LogLine)
    (rests : ι → Script Effect.Reply (Except Failure (List RequestId))) : Prop where
  counters : crew.counters = counters
  lines : crew.lines = lines
  rests : ∀ who, (crew.passes who).rest = rests who

namespace Shows

variable {counters : Counters} {lines : List LogLine} {site : Site}
  {rests : ι → Script Effect.Reply (Except Failure (List RequestId))}

/-- A pass is told something. -/
theorem tell
    {effect : Effect}
    {next : effect.Reply → Script Effect.Reply (Except Failure (List RequestId))}
    (shows : Shows crew counters lines rests)
    (asked : rests who = .ask effect next)
    (reply : (effect : Effect) → effect.Reply) :
    Shows (crew.step (.told who reply)) (Deed.tally ⟨effect, reply effect⟩ counters)
      (lines ++ Deed.lines ⟨effect, reply effect⟩)
      (Function.update rests who (next (reply effect))) := by
  obtain ⟨after, stepped, goes⟩ := Phase.step_of_asked ((shows.rests who).trans asked) reply
  have noted : crew.step (.told who reply) = crew.note who ⟨effect, reply effect⟩ after := by
    rw [step, stepped]
  rw [noted]
  refine ⟨congrArg (Deed.tally _) shows.counters, congrArg (· ++ _) shows.lines, fun other => ?_⟩
  by_cases same : other = who
  · subst same
    rw [passes_note_self, Function.update_self, goes]
  · rw [passes_note_of_ne same, Function.update_of_ne same]
    exact shows.rests other

/-- A call of the store is charged to the caller, or it costs the crew nothing. -/
theorem callWith
    (shows : Shows crew site.caller site.lines rests)
    (fault : Option String)
    (account : Account)
    (call : Call) :
    ∃ events, Shows (crew.run events) (site.callWith fault account call).2.caller
      (site.callWith fault account call).2.lines rests := by
  cases fault with
  | some message => exact ⟨[], shows⟩
  | none =>
      cases account with
      | cache => exact ⟨[], shows⟩
      | caller =>
          refine ⟨[.charged call.method.isWrite], ?_, shows.lines, shows.rests⟩
          exact congrArg (Counters.increment · _) shows.counters

/-- A pass is told something about which nothing is logged. -/
theorem tellSilently
    {effect : Effect}
    {next : effect.Reply → Script Effect.Reply (Except Failure (List RequestId))}
    (shows : Shows crew counters lines rests)
    (asked : rests who = .ask effect next)
    (reply : (effect : Effect) → effect.Reply)
    (silent : Deed.lines ⟨effect, reply effect⟩ = []) :
    Shows (crew.step (.told who reply)) (Deed.tally ⟨effect, reply effect⟩ counters) lines
      (Function.update rests who (next (reply effect))) := by
  have told := shows.tell asked reply
  rwa [silent, List.append_nil] at told

/-- A pass acts. -/
theorem act
    {action : Action}
    {next : action.Reply → Script Effect.Reply (Except Failure (List RequestId))}
    (shows : Shows crew site.caller site.lines rests)
    (asked : rests who = .ask (.act action) next)
    (fault : Option String) :
    ∃ events, Shows (crew.run events) (site.act fault action).2.caller
      (site.act fault action).2.lines
      (Function.update rests who (next (site.act fault action).1)) := by
  let reply := told site fault (.error (.other ""))
  have run_concat : ∀ events, (crew.run events).step (.told who reply) =
      crew.run (events ++ [.told who reply]) := by
    intro events
    rw [run, run, List.foldl_append]
    rfl
  cases action with
  | call account call =>
      obtain ⟨events, charged⟩ := shows.callWith fault account call
      exact ⟨_, run_concat events ▸ charged.tellSilently asked reply rfl⟩
  | direct call =>
      obtain ⟨events, charged⟩ := shows.callWith none .caller call
      exact ⟨_, run_concat events ▸ charged.tellSilently asked reply rfl⟩
  | time => exact ⟨[.told who reply], shows.tellSilently asked reply rfl⟩
  | count counter => exact ⟨[.told who reply], shows.tellSilently asked reply rfl⟩
  | log level message => exact ⟨[.told who reply], shows.tell asked reply⟩

end Shows
end Crew

namespace System

variable {ι κ : Type} [DecidableEq ι]

/-- What is left of the passes. -/
def rests (system : System ι κ) (who : ι) : Script Effect.Reply (Except Failure (List RequestId)) :=
  (system.passes who).rest

theorem rests_reply
    (system : System ι κ)
    (who : ι)
    (rest : Script Effect.Reply (Except Failure (List RequestId))) :
    (system.reply who rest).rests = Function.update system.rests who rest := by
  funext other
  by_cases same : other = who
  · subst same
    rw [Function.update_self]
    exact rest_reply_self ..
  · rw [Function.update_of_ne same, rests, passes_reply_of_ne system same]
    rfl

/-- A crew shows what a system has counted and logged, and what is left of its passes. -/
def ShownBy (system : System ι κ) (crew : Crew ι) : Prop :=
  crew.Shows system.site.caller system.site.lines system.rests

variable [DecidableEq κ] {system : System ι κ} {crew : Crew ι}

omit [DecidableEq ι] in
/-- A view cache makes its calls at its own cost. -/
theorem ShownBy.drive
    {client : Option ι}
    {cache : κ}
    {generation : Nat}
    {fault : Option String}
    {after : System ι κ}
    (shown : system.ShownBy crew)
    (driven : system.drive client cache generation fault = some after) :
    after.ShownBy crew := by
  obtain ⟨call, next, -, rfl⟩ := drive_eq_some driven
  cases fault <;> exact shown

theorem ShownBy.step
    (shown : system.ShownBy crew)
    (turn : Turn ι κ) :
    ∃ events, (system.step turn).ShownBy (crew.run events) := by
  cases turn with
  | pass who fault =>
      have advanced := advances system who fault
      change ∃ events, (system.advance who fault).ShownBy (crew.run events)
      generalize system.advance who fault = after at advanced ⊢
      cases advanced with
      | ended => exact ⟨[], shown⟩
      | acts action next asked =>
          obtain ⟨events, acted⟩ := Crew.Shows.act shown asked fault
          rw [← rests_reply] at acted
          exact ⟨events, acted⟩
      | drives id next generation asked driven => exact ⟨[], shown.drive driven⟩
      | polls id next asked =>
          unfold poll
          dsimp only
          split
          · next result _ =>
            have told := Crew.Shows.tellSilently shown asked
              (Crew.told system.site fault result) rfl
            refine ⟨[.told who (Crew.told system.site fault result)], ?_⟩
            unfold ShownBy
            rw [rests_reply]
            exact told
          · refine ⟨[], shown.counters, shown.lines, fun other => (shown.rests other).trans ?_⟩
            by_cases same : other = who
            · subst same
              simp [rests]
            · simp [rests, same]
  | drive cache generation fault =>
      unfold System.step
      dsimp only
      cases driven : system.drive none cache generation fault with
      | none => exact ⟨[], shown⟩
      | some after => exact ⟨[], shown.drive driven⟩
  | _ => exact ⟨[], shown⟩

/-- Whatever happens to a system, its passes go on, count and log as some crew does. -/
theorem exists_crew
    (site : Site)
    (caches : κ → ViewCache)
    (jobs : ι → Job κ)
    (turns : List (Turn ι κ)) :
    ∃ events, ((start site caches jobs).run turns).ShownBy
      ((Crew.start (fun who => (jobs who).policy) (fun who => (jobs who).newIds) site.caller
        site.lines).run events) := by
  refine run_induction (fun system => ∃ events, system.ShownBy (Crew.run _ events)) ?_ ?_
  · exact ⟨[], rfl, rfl, fun who => Phase.rest_start _ _⟩
  · rintro before turn _ ⟨events, shown⟩
    obtain ⟨more, stepped⟩ := shown.step turn
    refine ⟨events ++ more, ?_⟩
    rw [Crew.run, List.foldl_append]
    exact stepped

end System
end BuildQueue
