import BuildQueue.Proofs.Pass.Rules
import BuildQueue.Proofs.Pass.Screening
import BuildQueue.Proofs.System

/-!
# What a returned request attests

A pass returns only requests that it has claimed and completed itself, each once. This needs nothing
of the store, of the strategies or of the views: whatever a pass is told, what it returns is what
its own exchanges show.
-/

namespace BuildQueue

/-- How a pass is served when nothing is known of the replies; its own exchanges are written
down. -/
def attesting : Contract Effect.Reply (List Exchange) where
  asks _ _ := True
  gives
    | .act action, before, reply, after => after = before ++ action.exchanges reply
    | .view _, before, _, after => after = before

/-- Exchanges show that a request was claimed and then completed as skipped. -/
def Attested (exchanges : List Exchange) (id : RequestId) : Prop :=
  ∃ time, ⟨.claim [id] time, .ok true⟩ ∈ exchanges ∧
    ⟨.complete [id] .skipped time, .ok ()⟩ ∈ exchanges

theorem Attested.mono
    {exchanges more : List Exchange}
    {id : RequestId}
    (attested : Attested exchanges id)
    (extension : exchanges ⊆ more) :
    Attested more id := by
  obtain ⟨time, claimed, completed⟩ := attested
  exact ⟨time, extension claimed, extension completed⟩

namespace Pass

open Script (Ensures)

/-- Whatever a script asks for, its exchanges are only added to. -/
theorem ensures_attesting
    {α : Type}
    (script : Script Effect.Reply α)
    (own : List Exchange) :
    Ensures attesting (fun _ after => own ⊆ after) script own := by
  induction script generalizing own with
  | done value => exact List.Subset.refl own
  | ask effect next inductionHypothesis =>
      refine ⟨trivial, fun reply after given => ?_⟩
      have grown : own ⊆ after := by
        cases effect with
        | act action =>
            obtain rfl := given
            exact List.subset_append_left own _
        | view id =>
            rw [show after = own from given]
            exact List.Subset.refl own
      exact (inductionHypothesis reply after).mono fun _ _ more =>
        List.Subset.trans grown more

/-- What more exchanges do not falsify is kept by quiet actions. -/
theorem quiet_attesting
    {condition : List Exchange → Prop}
    (monotone : ∀ {own more}, own ⊆ more → condition own → condition more) :
    Quiet attesting condition := by
  intro action quiet own holds
  refine ⟨trivial, fun reply after given => ?_⟩
  obtain rfl := given
  exact monotone (List.subset_append_left own _) holds

/-- A request that is skipped is attested. -/
theorem claimAndSkip_ensures_attesting
    (id : RequestId)
    (own : List Exchange) :
    Ensures attesting
      (OnResult (fun verdict after => own ⊆ after ∧ (verdict = true → Attested after id))
        fun _ _ => True)
      (claimAndSkip id).run own := by
  have kept : Quiet attesting fun after => own ⊆ after :=
    quiet_attesting fun more before => List.Subset.trans before more
  have skipped : Quiet attesting fun after => own ⊆ after ∧ Attested after id :=
    quiet_attesting fun more before => ⟨List.Subset.trans before.1 more, before.2.mono more⟩
  have anything : Quiet attesting fun _ => True := quiet_attesting fun _ _ => trivial
  refine (ensures_claimAndSkip
    (fun now after => own ⊆ after ∧ ⟨.claim [id] (some now), .ok true⟩ ∈ after)
    (fun _ _ => True) kept kept skipped (fun _ => anything) ?claims ?completes ?releases
    (fun _ _ _ => trivial) (List.Subset.refl own)).mono fun result after ensured => ?_
  case claims =>
    refine fun now before holds => ⟨trivial, fun reply after given => ?_⟩
    obtain rfl := given
    cases reply with
    | error failure => trivial
    | ok verdict =>
        cases verdict with
        | false => exact List.Subset.trans holds (List.subset_append_left before _)
        | true =>
            exact ⟨List.Subset.trans holds (List.subset_append_left before _),
              List.mem_append_right before List.mem_cons_self⟩
  case completes =>
    refine fun now before holds => ⟨trivial, fun reply after given => ?_⟩
    obtain rfl := given
    cases reply with
    | error failure => trivial
    | ok _ =>
        exact ⟨List.Subset.trans holds.1 (List.subset_append_left before _), some now,
          List.mem_append_left _ holds.2, List.mem_append_right before List.mem_cons_self⟩
  case releases => exact fun _ _ _ => ⟨trivial, fun _ _ _ => trivial⟩
  cases result with
  | error failure => trivial
  | ok verdict =>
      cases verdict with
      | false => exact ⟨ensured, fun impossible => (by cases impossible)⟩
      | true => exact ⟨ensured.1, fun _ => ensured.2⟩

/-- A pass returns attested requests in ascending order. -/
theorem collapse_ensures_attesting
    (policy : Policy Strategy)
    (newIds : List RequestId) :
    Ensures attesting
      (OnResult (fun ids own => ids.Pairwise (· < ·) ∧ ∀ id ∈ ids, Attested own id)
        fun _ _ => True)
      (collapse policy newIds).run [] := by
  unfold collapse
  refine Ensures.run_bind ((ensures_attesting _ []).mono fun result own _ => ?_)
  cases result with
  | error failure => trivial
  | ok found =>
      refine (ensures_select
        (fun chosen rest own => (chosen ++ rest).Pairwise (· < ·) ∧
          ∀ id ∈ chosen, Attested own id)
        (fun _ _ => True) ?_ ?_).mono fun result after ensured => ?_
      · rintro chosen id rest own ⟨ordered, attested⟩
        refine (claimAndSkip_ensures_attesting id own).mono fun result after ensured => ?_
        cases result with
        | error failure => trivial
        | ok verdict =>
            obtain ⟨grown, skipped⟩ := ensured
            cases verdict with
            | false =>
                refine ⟨ordered.sublist (by simp), fun other listed => ?_⟩
                exact (attested other listed).mono grown
            | true =>
                refine ⟨by simpa using ordered, fun other listed => ?_⟩
                rcases List.mem_append.1 listed with before | last
                · exact (attested other before).mono grown
                · obtain rfl := List.mem_singleton.1 last
                  exact skipped rfl
      · exact ⟨pairwise_ascending _, fun _ listed => absurd listed List.not_mem_nil⟩
      · cases result with
        | error failure => trivial
        | ok ids =>
            rw [onResult_ok, List.append_nil] at ensured
            exact ensured

end Pass
end BuildQueue
