import BuildQueue.Proofs.Pass.Rules

/-!
# What the claims of a pass count

A pass counts every claim that it attempts, and then either that it was lost or, once the request is
completed, that the request was collapsed. Only a claim at which the pass fails is neither. This
needs nothing of the store: whatever the pass is told, its own deeds are balanced.
-/

namespace BuildQueue

/-- Whether a line tells that a request was collapsed. -/
def LogLine.announces (line : LogLine) : Bool :=
  line.level == .info && "collapsed build request ".toList.isPrefixOf line.message.toList

/-- Something that a pass asked for, with what it was told. -/
structure Deed where
  effect : Effect
  reply : effect.Reply

namespace Deed

variable {counter : Counter} {deed : Deed}

/-- Whether a counter is counted. -/
def counts (counter : Counter) (deed : Deed) : Bool :=
  match deed.effect with
  | .act (.count other) => other == counter
  | _ => false

/-- The counters after the deed. -/
def tally (deed : Deed) (counters : Counters) : Counters :=
  match deed.effect with
  | .act (.count counter) => counters.increment counter
  | _ => counters

/-- What is logged. -/
def lines (deed : Deed) : List LogLine :=
  match deed.effect with
  | .act (.log level message) => [⟨level, message, []⟩]
  | _ => []

/-- Whether a completion succeeds. -/
def completes : Deed → Bool
  | ⟨.act (.call _ (.complete _ _ _)), .ok ()⟩ => true
  | _ => false

/-- Whether it is logged that a request was collapsed. -/
def announces (deed : Deed) : Bool := deed.lines.any LogLine.announces

theorem value_tally (deed : Deed) (counters : Counters) :
    (deed.tally counters).value counter =
      counters.value counter + if deed.counts counter then 1 else 0 := by
  unfold tally counts
  split
  · next other _ =>
    rw [Counters.increment, Counters.value_add]
    simp only [beq_iff_eq, @eq_comm _ other]
  · exact (Int.add_zero _).symm

theorem countP_announces_lines (deed : Deed) :
    deed.lines.countP LogLine.announces = if deed.announces then 1 else 0 := by
  unfold announces lines
  split
  · rw [List.countP_singleton, List.any_cons, List.any_nil, Bool.or_false]
  · rfl

@[simp] theorem announces_collapsed (id : RequestId) (reply : Unit) :
    announces ⟨.act (.log .info ("collapsed build request " ++ toString id)), reply⟩ = true := by
  simp [announces, lines, LogLine.announces]

end Deed

/-- Claims of candidates are balanced: each that was attempted was lost, or the request was
collapsed, or the pass failed. A request is collapsed once its completion succeeds, and then it is
announced. -/
structure Balanced (deeds : List Deed) (collapsed failed : Nat) : Prop where
  attempted : deeds.countP (·.counts .claimsAttempted) =
    deeds.countP (·.counts .claimsLost) + collapsed + failed
  counted : deeds.countP (·.counts .requestsCollapsed) = collapsed
  completed : deeds.countP (·.completes) = collapsed
  announced : deeds.countP (·.announces) = collapsed

namespace Balanced

theorem nil : Balanced [] 0 0 := ⟨rfl, rfl, rfl, rfl⟩

theorem append
    {deeds more : List Deed}
    {collapsed failed moreCollapsed moreFailed : Nat}
    (balanced : Balanced deeds collapsed failed)
    (moreBalanced : Balanced more moreCollapsed moreFailed) :
    Balanced (deeds ++ more) (collapsed + moreCollapsed) (failed + moreFailed) where
  attempted := by
    rw [List.countP_append, List.countP_append, balanced.attempted, moreBalanced.attempted]
    omega
  counted := by rw [List.countP_append, balanced.counted, moreBalanced.counted]
  completed := by rw [List.countP_append, balanced.completed, moreBalanced.completed]
  announced := by rw [List.countP_append, balanced.announced, moreBalanced.announced]

end Balanced

/-- How a pass is served when nothing is known of the replies; all its deeds are written down. -/
def noting : Contract Effect.Reply (List Deed) where
  asks _ _ := True
  gives effect before reply after := after = before ++ [⟨effect, reply⟩]

/-- What holds when a pass has made its claims. -/
def Settles : Except Failure (List RequestId) → List Deed → Prop :=
  OnResult (fun ids deeds => Balanced deeds ids.length 0)
    fun _ deeds => ∃ collapsed, Balanced deeds collapsed 1

namespace Pass

open Script (Ensures)

/-- A deed is noted, and the pass goes on. -/
theorem noted_act
    {action : Action}
    {deeds : List Deed}
    {post : Except Failure action.Reply → List Deed → Prop}
    (goes : ∀ reply, post (.ok reply) (deeds ++ [⟨.act action, reply⟩])) :
    Ensures noting post (act action).run deeds :=
  ensures_act trivial fun reply _ given => given ▸ goes reply

theorem noted_call
    {asked : Call}
    {deeds : List Deed}
    {post : Except Failure asked.Value → List Deed → Prop}
    (goes : ∀ reply, post reply (deeds ++ [⟨.act (.call .caller asked), reply⟩])) :
    Ensures noting post (call asked).run deeds :=
  ensures_call trivial fun reply _ given => given ▸ goes reply

/-- One more claim keeps the balance, with whatever comes of it. -/
theorem claimAndSkip_balanced
    (id : RequestId)
    {deeds : List Deed}
    {collapsed : Nat}
    (balanced : Balanced deeds collapsed 0) :
    Ensures noting
      (OnResult
        (fun verdict after => Balanced after (if verdict then collapsed + 1 else collapsed) 0)
        fun _ after => Balanced after collapsed 1)
      (claimAndSkip id).run deeds := by
  unfold claimAndSkip
  refine Ensures.run_bind (noted_act fun now => ?_)
  refine Ensures.run_bind (noted_act fun _ => ?_)
  refine Ensures.run_bind (noted_call fun reply => ?_)
  simp only [List.append_assoc, List.cons_append, List.nil_append]
  rcases reply with failure | _ | _
  · change Balanced (deeds ++ _) (collapsed + 0) (0 + 1)
    exact balanced.append ⟨rfl, rfl, rfl, rfl⟩
  · refine Ensures.run_bind (noted_act fun _ => ?_)
    refine Ensures.run_bind (noted_act fun _ => ?_)
    simp only [List.append_assoc, List.cons_append, List.nil_append]
    change Balanced (deeds ++ _) (collapsed + 0) (0 + 0)
    exact balanced.append ⟨rfl, rfl, rfl, rfl⟩
  · refine Ensures.run_bind (noted_act fun reply => ?_)
    rcases reply with failure | _
    · refine Ensures.run_bind ?_
      unfold releaseClaim
      refine Ensures.run_bind (noted_act fun reply => ?_)
      rcases reply with _ | _
      all_goals
        refine noted_act fun _ => ?_
        simp only [List.append_assoc, List.cons_append, List.nil_append]
        change Balanced (deeds ++ _) (collapsed + 0) (0 + 1)
        exact balanced.append ⟨rfl, rfl, rfl, rfl⟩
    · refine Ensures.run_bind (noted_act fun _ => ?_)
      refine Ensures.run_bind (noted_act fun _ => ?_)
      simp only [List.append_assoc, List.cons_append, List.nil_append]
      change Balanced (deeds ++ _) (collapsed + 1) (0 + 0)
      refine balanced.append ⟨rfl, rfl, rfl, ?_⟩
      simp only [List.countP_cons, Deed.announces_collapsed]
      rfl

/-- The claims of a pass are balanced, also if it fails with requests collapsed already. -/
theorem claims_settle (ids : List RequestId) :
    Ensures noting Settles (select claimAndSkip ids).run [] := by
  refine (ensures_select (fun chosen _ deeds => Balanced deeds chosen.length 0)
    (fun _ deeds => ∃ collapsed, Balanced deeds collapsed 1) ?_ .nil).mono fun result _ holds => ?_
  · intro chosen id rest deeds balanced
    refine (claimAndSkip_balanced id balanced).mono fun result after holds => ?_
    rcases result with failure | _ | _
    · exact ⟨_, holds⟩
    · exact holds
    · rw [onResult_ok, if_pos rfl, List.length_append]
      exact holds
  · cases result with
    | error failure => exact holds
    | ok ids => exact holds

end Pass
end BuildQueue
