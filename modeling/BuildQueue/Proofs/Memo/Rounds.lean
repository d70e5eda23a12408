import BuildQueue.Proofs.Memo.Failing

/-!
# Rounds as many as it takes

A poll takes a get through a limited number of rounds. Without the limit a get goes on until a round
ends it or leaves it waiting; whether it ever does so is what `Runs` tells. If no get starts over
twice then the limit makes no difference. A get that is left waiting waits for a running fill.
-/

namespace BuildQueue

variable {κ ν ε : Type}

namespace MemoService

variable [DecidableEq κ]

/-- A get goes through one round after the other until a round ends it or leaves it waiting, however
many these are: the gets and services that the rounds find, and what the get comes to. -/
inductive Runs : MemoService κ ν ε → Get κ → List (Get κ × MemoService κ ν ε) →
    Progress κ ν ε × MemoService κ ν ε → Prop where
  | returned
      {service after : MemoService κ ν ε}
      {get : Get κ}
      {result : Except ε ν}
      (ends : service.round get = (.returned result, after)) :
      Runs service get [(get, service)] (.returned result, after)
  | waits
      {service after : MemoService κ ν ε}
      {get : Get κ}
      {generation : Nat}
      (ends : service.round get = (.waits generation, after)) :
      Runs service get [(get, service)] (.pending ⟨get.key, some generation⟩, after)
  | again
      {service next : MemoService κ ν ε}
      {get : Get κ}
      {found : List (Get κ × MemoService κ ν ε)}
      {outcome : Progress κ ν ε × MemoService κ ν ε}
      (startsOver : service.round get = (.again, next))
      (rest : Runs next ⟨get.key, none⟩ found outcome) :
      Runs service get ((get, service) :: found) outcome

variable
  {service after : MemoService κ ν ε}
  {get left : Get κ}
  {found others : List (Get κ × MemoService κ ν ε)}
  {outcome other : Progress κ ν ε × MemoService κ ν ε}
  {generation : Nat}

/-- The rounds of a get are determined, and so is what it comes to. -/
theorem Runs.unique
    (runs : Runs service get found outcome)
    (again : Runs service get others other) :
    found = others ∧ outcome = other := by
  induction runs generalizing others other with
  | returned ends =>
      cases again with
      | returned endsToo => simp_all
      | waits waits => simp_all
      | again startsOver rest => simp_all
  | waits waits =>
      cases again with
      | returned ends => simp_all
      | waits waitsToo => simp_all
      | again startsOver rest => simp_all
  | again startsOver rest inductionHypothesis =>
      cases again with
      | returned ends => simp_all
      | waits waits => simp_all
      | again startsOverToo restToo =>
          rw [startsOver] at startsOverToo
          cases startsOverToo
          obtain ⟨rfl, rfl⟩ := inductionHypothesis restToo
          exact ⟨rfl, rfl⟩

/-- A get whose first round does not start over is through with it. -/
theorem runs_of_ne_again
    (ends : (service.round get).1 ≠ .again)
    (count : Nat) :
    Runs service get (service.found get (count + 1)) (service.rounds get (count + 1)) := by
  unfold found rounds
  generalize result : service.round get = outcome at ends
  obtain ⟨round, after⟩ := outcome
  cases round with
  | returned returned => exact .returned result
  | waits generation => exact .waits result
  | again => exact absurd rfl ends

/-- If no get starts over twice then a poll takes its get through all rounds that it needs. -/
theorem runs_poll
    (once : ∀ next, service.round get = (.again, next) →
      (next.round ⟨get.key, none⟩).1 ≠ .again) :
    Runs service get (service.found get maxRounds) (service.poll get) := by
  by_cases again : (service.round get).1 = .again
  · have first : service.round get = (.again, (service.round get).2) := Prod.ext again rfl
    have rest := runs_of_ne_again (once _ first) 1
    unfold poll maxRounds found rounds
    rw [first]
    exact .again first rest
  · exact runs_of_ne_again again 2

/-- A get is left waiting for a fill that has not ended. -/
theorem end?_of_round
    (waits : service.round get = (.waits generation, after)) :
    after.end? generation = none := by
  cases joins : service.joins? get with
  | none =>
      obtain ⟨value, filledAt, -, -, hit⟩ := round_of_hit joins
      rw [hit] at waits
      cases waits
  | some joined =>
      have sees := sees_round joins
      rw [waits] at sees
      obtain rfl := sees.waits_eq
      rw [round_of_joins joins] at waits
      have unended := end?_of_waits (congrArg Prod.fst waits)
      rwa [waits] at unended

theorem Runs.end?_of_pending
    (runs : Runs service get found (.pending left, after)) :
    ∃ generation, left = ⟨get.key, some generation⟩ ∧ after.end? generation = none := by
  generalize result : (Progress.pending left, after) = outcome at runs
  induction runs with
  | returned ends => cases result
  | waits waits =>
      cases result
      exact ⟨_, rfl, end?_of_round waits⟩
  | again startsOver rest inductionHypothesis => exact inductionHypothesis result

omit [DecidableEq κ] in
/-- A fill that has started and not ended is running and has no result. -/
theorem running_of_end?
    {fill : Fill κ ν ε}
    (started : service.fills[generation]? = some fill)
    (unended : service.end? generation = none) :
    fill = ⟨fill.key, .running⟩ ∧ service.result? generation fill.key = none := by
  have running : (service.refresh generation fill).state = .running := by
    unfold end? state? at unended
    rw [started] at unended
    simp only [Option.map_some, Option.bind_some] at unended
    generalize (service.refresh generation fill).state = state at unended ⊢
    cases state with
    | running => rfl
    | succeeded value => cases unended
    | failed error => cases unended
  have same := refresh_of_running running
  have state : fill.state = .running := by rwa [same] at running
  refine ⟨by rw [← state], ?_⟩
  unfold refresh at running
  rw [state] at running
  cases given : service.result? generation fill.key with
  | none => rfl
  | some result =>
      rw [given] at running
      cases result <;> cases running

end MemoService

end BuildQueue
