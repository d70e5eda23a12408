import BuildQueue.Pass
import BuildQueue.Proofs.Script

/-!
# Rules for passes

What passes ensure, put together from what their parts ensure. A pass may fail, so its condition has
two sides, and a rule for a loop has an invariant over the items that were handled and those that
are left.
-/

namespace BuildQueue

/-- A condition on a result: one for its value and one for its error. -/
def OnResult
    {α ε σ : Type}
    (succeeds : α → σ → Prop)
    (fails : ε → σ → Prop) : Except ε α → σ → Prop
  | .ok value, state => succeeds value state
  | .error error, state => fails error state

section OnResult

variable {α ε σ : Type} {succeeds : α → σ → Prop} {fails : ε → σ → Prop} {state : σ}

@[simp] theorem onResult_ok (value : α) :
    OnResult succeeds fails (.ok value) state ↔ succeeds value state := Iff.rfl

@[simp] theorem onResult_error (error : ε) :
    OnResult succeeds fails (.error error) state ↔ fails error state := Iff.rfl

end OnResult

namespace Script.Ensures

variable {Op : Type} {Reply : Op → Type} {α β ε σ : Type} {contract : Contract Reply σ}

@[simp] theorem run_pure_iff
    {post : Except ε α → σ → Prop}
    {value : α}
    {state : σ} :
    Ensures contract post (pure value : ExceptT ε (Script Reply) α).run state ↔
      post (.ok value) state := Iff.rfl

@[simp] theorem run_throw_iff
    {post : Except ε α → σ → Prop}
    {error : ε}
    {state : σ} :
    Ensures contract post (throw error : ExceptT ε (Script Reply) α).run state ↔
      post (.error error) state := Iff.rfl

/-- One computation after the other: an error of the first is one of both. -/
theorem run_bind
    {first : ExceptT ε (Script Reply) α}
    {next : α → ExceptT ε (Script Reply) β}
    {post : Except ε β → σ → Prop}
    {state : σ}
    (ensured : Ensures contract
      (OnResult (fun value after => Ensures contract post (next value).run after)
        fun error after => post (.error error) after) first.run state) :
    Ensures contract post (first >>= next).run state := by
  change Ensures contract post (first.run >>= ExceptT.bindCont next) state
  refine Ensures.bind (ensured.mono fun result after holds => ?_)
  cases result with
  | ok value => exact holds
  | error error => exact holds

private theorem run_mapM_from
    {step : α → ExceptT ε (Script Reply) β}
    (invariant : List β → List α → σ → Prop)
    (fails : ε → σ → Prop)
    (preserved : ∀ done item rest state, invariant done (item :: rest) state →
      Ensures contract
        (OnResult (fun value after => invariant (done ++ [value]) rest after) fails)
        (step item).run state)
    {done : List β}
    {items : List α}
    {state : σ}
    (holds : invariant done items state) :
    Ensures contract (OnResult (fun values after => invariant (done ++ values) [] after) fails)
      (items.mapM step).run state := by
  induction items generalizing done state with
  | nil =>
      rw [List.mapM_nil, run_pure_iff, OnResult, List.append_nil]
      exact holds
  | cons item rest inductionHypothesis =>
      rw [List.mapM_cons]
      refine run_bind ((preserved done item rest state holds).mono fun result after kept => ?_)
      cases result with
      | error error => exact kept
      | ok value =>
          refine run_bind ((inductionHypothesis kept).mono fun result last reached => ?_)
          cases result with
          | error error => exact reached
          | ok values =>
              rw [onResult_ok, List.append_assoc] at reached
              exact reached

/-- The items of a list handled one after the other. The invariant is about the values so far and
the items that are left. -/
theorem run_mapM
    {step : α → ExceptT ε (Script Reply) β}
    (invariant : List β → List α → σ → Prop)
    (fails : ε → σ → Prop)
    (preserved : ∀ done item rest state, invariant done (item :: rest) state →
      Ensures contract
        (OnResult (fun value after => invariant (done ++ [value]) rest after) fails)
        (step item).run state)
    {items : List α}
    {state : σ}
    (holds : invariant [] items state) :
    Ensures contract (OnResult (fun values after => invariant values [] after) fails)
      (items.mapM step).run state :=
  run_mapM_from invariant fails preserved holds

end Script.Ensures

/-- Whether an action concerns neither the store nor any other client. -/
def Action.IsQuiet : Action → Prop
  | .time | .count _ | .log _ _ => True
  | _ => False

namespace Pass

open Script (Ensures)

variable {α σ : Type} {contract : Contract Effect.Reply σ} {state : σ}

/-- An action ensures what holds of each of its replies. -/
theorem ensures_act
    {action : Action}
    {post : Except Failure action.Reply → σ → Prop}
    (asked : contract.asks (.act action) state)
    (given : ∀ reply after, contract.gives (.act action) state reply after →
      post (.ok reply) after) :
    Ensures contract post (act action).run state :=
  ⟨asked, given⟩

/-- A guarded call hands its failure on. -/
theorem ensures_call
    {asked : Call}
    {post : Except Failure asked.Value → σ → Prop}
    (asks : contract.asks (.act (.call .caller asked)) state)
    (given : ∀ reply after, contract.gives (.act (.call .caller asked)) state reply after →
      post reply after) :
    Ensures contract post (call asked).run state :=
  ⟨asks, given⟩

/-- A view that cannot be had is a failure. -/
theorem ensures_view
    {id : RequestId}
    {post : Except Failure View → σ → Prop}
    (asks : contract.asks (.view id) state)
    (given : ∀ reply after, contract.gives (.view id) state reply after → post reply after) :
    Ensures contract post (view id).run state :=
  ⟨asks, given⟩

private theorem ensures_select_from
    {decision : α → Pass Bool}
    (invariant : List α → List α → σ → Prop)
    (fails : Failure → σ → Prop)
    (preserved : ∀ chosen item rest state, invariant chosen (item :: rest) state →
      Ensures contract
        (OnResult (fun verdict after =>
          invariant (if verdict then chosen ++ [item] else chosen) rest after) fails)
        (decision item).run state)
    {chosen items : List α}
    (holds : invariant chosen items state) :
    Ensures contract (OnResult (fun more after => invariant (chosen ++ more) [] after) fails)
      (select decision items).run state := by
  induction items generalizing chosen state with
  | nil =>
      rw [select, Ensures.run_pure_iff, OnResult, List.append_nil]
      exact holds
  | cons item rest inductionHypothesis =>
      rw [select]
      refine Ensures.run_bind ((preserved chosen item rest state holds).mono
        fun result after kept => ?_)
      cases result with
      | error failure => exact kept
      | ok verdict =>
          cases verdict with
          | false => exact inductionHypothesis kept
          | true =>
              refine Ensures.run_bind ((inductionHypothesis kept).mono
                fun result last reached => ?_)
              cases result with
              | error failure => exact reached
              | ok more =>
                  rw [onResult_ok, if_pos rfl, List.append_assoc] at reached
                  exact reached

/-- The items of a list for which a decision is positive, decided one after the other. The invariant
is about the items that were chosen so far and those that are left. -/
theorem ensures_select
    {decision : α → Pass Bool}
    (invariant : List α → List α → σ → Prop)
    (fails : Failure → σ → Prop)
    (preserved : ∀ chosen item rest state, invariant chosen (item :: rest) state →
      Ensures contract
        (OnResult (fun verdict after =>
          invariant (if verdict then chosen ++ [item] else chosen) rest after) fails)
        (decision item).run state)
    {items : List α}
    (holds : invariant [] items state) :
    Ensures contract (OnResult (fun chosen after => invariant chosen [] after) fails)
      (select decision items).run state :=
  ensures_select_from invariant fails preserved holds

/-- Quiet actions are allowed where a condition holds, and keep it. -/
def Quiet (contract : Contract Effect.Reply σ) (condition : σ → Prop) : Prop :=
  ∀ (action : Action), action.IsQuiet → ∀ state, condition state →
    contract.asks (.act action) state ∧
      ∀ reply after, contract.gives (.act action) state reply after → condition after

theorem Quiet.count
    {condition : σ → Prop}
    (quiet : Quiet contract condition)
    (holds : condition state)
    {counter : Counter}
    {post : Except Failure Unit → σ → Prop}
    (counted : ∀ after, condition after → post (.ok ()) after) :
    Ensures contract post (count counter).run state := by
  obtain ⟨asks, kept⟩ := quiet (.count counter) trivial state holds
  exact ensures_act asks fun reply after given => counted after (kept reply after given)

theorem Quiet.log
    {condition : σ → Prop}
    (quiet : Quiet contract condition)
    (holds : condition state)
    {level : Level}
    {message : String}
    {post : Except Failure Unit → σ → Prop}
    (logged : ∀ after, condition after → post (.ok ()) after) :
    Ensures contract post (log level message).run state := by
  obtain ⟨asks, kept⟩ := quiet (.log level message) trivial state holds
  exact ensures_act asks fun reply after given => logged after (kept reply after given)

/-- Claiming a request and completing it as skipped, by conditions for the points in between: the
claim is lost or won, the completion succeeds or breaks, and a broken one is released. -/
theorem ensures_claimAndSkip
    {id : RequestId}
    {ready lost skipped : σ → Prop}
    (won : Timestamp → σ → Prop)
    (broken : Failure → σ → Prop)
    {released fails : Failure → σ → Prop}
    (quietReady : Quiet contract ready)
    (quietLost : Quiet contract lost)
    (quietSkipped : Quiet contract skipped)
    (quietReleased : ∀ failure, Quiet contract (released failure))
    (claims : ∀ now state, ready state →
      contract.asks (.act (.call .caller (.claim [id] (some now)))) state ∧
        ∀ reply after,
          contract.gives (.act (.call .caller (.claim [id] (some now)))) state reply after →
          OnResult (fun verdict after => if verdict = true then won now after else lost after) fails
            reply after)
    (completes : ∀ now state, won now state →
      contract.asks (.act (.call .caller (.complete [id] .skipped (some now)))) state ∧
        ∀ reply after,
          contract.gives (.act (.call .caller (.complete [id] .skipped (some now)))) state reply
            after →
          OnResult (fun _ => skipped) broken reply after)
    (releases : ∀ failure state, broken failure state →
      contract.asks (.act (.call .caller (.unclaim [id]))) state ∧
        ∀ reply after,
          contract.gives (.act (.call .caller (.unclaim [id]))) state reply after →
          released failure after)
    (ends : ∀ failure state, released failure state → fails failure state)
    (start : ready state) :
    Ensures contract
      (OnResult (fun verdict after => if verdict = true then skipped after else lost after) fails)
      (claimAndSkip id).run state := by
  unfold claimAndSkip
  obtain ⟨asks, kept⟩ := quietReady .time trivial state start
  refine Ensures.run_bind (ensures_act asks fun now timed given => ?_)
  have readyTimed := kept now timed given
  refine Ensures.run_bind (quietReady.count readyTimed fun counted readyCounted => ?_)
  obtain ⟨asksClaim, claimed⟩ := claims now counted readyCounted
  refine Ensures.run_bind (ensures_call asksClaim fun reply taken given => ?_)
  have outcome := claimed reply taken given
  cases reply with
  | error failure => exact outcome
  | ok verdict =>
  rw [onResult_ok] at outcome ⊢
  cases verdict with
  | false =>
      rw [if_neg Bool.false_ne_true] at outcome ⊢
      refine Ensures.run_bind (quietLost.count outcome fun counted lostCounted => ?_)
      exact Ensures.run_bind (quietLost.log lostCounted fun logged lostLogged => lostLogged)
  | true =>
      rw [if_pos rfl] at outcome ⊢
      obtain ⟨asksComplete, completed⟩ := completes now taken outcome
      refine Ensures.run_bind (ensures_act asksComplete fun reply last given => ?_)
      have ended := completed reply last given
      rw [onResult_ok]
      cases reply with
      | ok _ =>
          refine Ensures.run_bind (quietSkipped.count ended fun counted skippedCounted => ?_)
          exact Ensures.run_bind (quietSkipped.log skippedCounted fun logged skippedLogged =>
            skippedLogged)
      | error failure =>
          obtain ⟨asksRelease, given⟩ := releases failure last ended
          refine Ensures.run_bind ?_
          unfold releaseClaim
          refine Ensures.run_bind (ensures_act asksRelease fun reply after answered => ?_)
          have freed := given reply after answered
          rw [onResult_ok]
          cases reply with
          | ok _ => exact (quietReleased failure).log freed fun _ logged => ends _ _ logged
          | error _ => exact (quietReleased failure).log freed fun _ logged => ends _ _ logged

end Pass
end BuildQueue
