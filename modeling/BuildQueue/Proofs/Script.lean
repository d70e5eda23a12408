import BuildQueue.Script

/-!
# What scripts ensure

A contract says what a script may ask for in a state and what it may be given, together with the
state after that. The surroundings of a script need not be deterministic: other clients act between
any two operations, so a contract permits every reply that some schedule can produce.

`Script.Ensures` holds of a script that, as long as it is served by the contract, asks only for what
the contract allows and ends with a given condition. The rules follow the construction of scripts:
`Ensures.bind` for one script after the other and `Ensures.refine` for a change of contract.
`Script.run_alike` compares two surroundings that give a script the same replies.
-/

namespace BuildQueue

/-- What may be asked and given between a script and its surroundings, over states of type `σ`. -/
structure Contract {Op : Type} (Reply : Op → Type) (σ : Type) where
  /-- What a script may ask for. -/
  asks : Op → σ → Prop
  /-- What it may be given, with the state after that. -/
  gives : (op : Op) → σ → Reply op → σ → Prop

namespace Script

variable {Op : Type} {Reply : Op → Type} {α β σ τ : Type}

/-- Served by a contract, the script asks only for what it may and ends with a condition. -/
def Ensures
    (contract : Contract Reply σ)
    (post : α → σ → Prop) : Script Reply α → σ → Prop
  | done value, state => post value state
  | ask op next, state =>
      contract.asks op state ∧
        ∀ reply after, contract.gives op state reply after →
          Ensures contract post (next reply) after

namespace Ensures

variable {contract : Contract Reply σ} {script : Script Reply α} {state : σ}

/-- What is ensured may be weakened. -/
theorem mono
    {post weaker : α → σ → Prop}
    (ensured : Ensures contract post script state)
    (weaken : ∀ value after, post value after → weaker value after) :
    Ensures contract weaker script state := by
  induction script generalizing state with
  | done value => exact weaken value state ensured
  | ask op next inductionHypothesis =>
      exact ⟨ensured.1, fun reply after given =>
        inductionHypothesis reply (ensured.2 reply after given)⟩

/-- A script ensures what its second part ensures wherever its first part ends. -/
theorem bind
    {next : α → Script Reply β}
    {post : β → σ → Prop}
    (ensured : Ensures contract
      (fun value after => Ensures contract post (next value) after) script state) :
    Ensures contract post (script >>= next) state := by
  induction script generalizing state with
  | done value => exact ensured
  | ask op rest inductionHypothesis =>
      exact ⟨ensured.1, fun reply after given =>
        inductionHypothesis reply (ensured.2 reply after given)⟩

/-- What a script ensures under one contract it ensures under another that allows it as much and
gives it no more, the states of the two contracts being related. -/
theorem refine
    {other : Contract Reply τ}
    {post : α → τ → Prop}
    (related : σ → τ → Prop)
    (asks : ∀ op here there, related here there →
      other.asks op there → contract.asks op here)
    (gives : ∀ op here there reply after, related here there →
      other.asks op there → contract.gives op here reply after →
      ∃ thereAfter, other.gives op there reply thereAfter ∧ related after thereAfter)
    {there : τ}
    (ensured : Ensures other post script there)
    (start : related state there) :
    Ensures contract
      (fun value after => ∃ thereAfter, related after thereAfter ∧ post value thereAfter)
      script state := by
  induction script generalizing state there with
  | done value => exact ⟨there, start, ensured⟩
  | ask op next inductionHypothesis =>
      refine ⟨asks op state there start ensured.1, fun reply after given => ?_⟩
      obtain ⟨thereAfter, thereGiven, relatedAfter⟩ :=
        gives op state there reply after start ensured.1 given
      exact inductionHypothesis reply (ensured.2 reply thereAfter thereGiven) relatedAfter

/-- Surroundings that honour a contract run a script to an end that the script ensures. -/
theorem run
    {post : α → τ → Prop}
    {served : Contract Reply τ}
    (perform : (op : Op) → σ → Reply op × σ)
    (related : σ → τ → Prop)
    (honoured : ∀ op here there, related here there → served.asks op there →
      ∃ thereAfter, served.gives op there (perform op here).1 thereAfter ∧
        related (perform op here).2 thereAfter)
    {there : τ}
    (ensured : Ensures served post script there)
    (state : σ)
    (start : related state there) :
    ∃ thereAfter, related (Script.run perform script state).2 thereAfter ∧
      post (Script.run perform script state).1 thereAfter := by
  induction script generalizing state there with
  | done value => exact ⟨there, start, ensured⟩
  | ask op next inductionHypothesis =>
      obtain ⟨thereAfter, given, relatedAfter⟩ := honoured op state there start ensured.1
      exact inductionHypothesis _ (ensured.2 _ thereAfter given) _ relatedAfter

end Ensures

/-- Surroundings that give the same replies, from states that stay related, run a script alike. -/
theorem run_alike
    {perform : (op : Op) → σ → Reply op × σ}
    {other : (op : Op) → τ → Reply op × τ}
    (related : σ → τ → Prop)
    (step : ∀ op here there, related here there →
      (perform op here).1 = (other op there).1 ∧ related (perform op here).2 (other op there).2)
    (script : Script Reply α)
    {state : σ}
    {twin : τ}
    (start : related state twin) :
    (run perform script state).1 = (run other script twin).1 ∧
      related (run perform script state).2 (run other script twin).2 := by
  induction script generalizing state twin with
  | done value => exact ⟨rfl, start⟩
  | ask op next inductionHypothesis =>
      obtain ⟨same, after⟩ := step op state twin start
      rw [run_ask, run_ask, same]
      exact inductionHypothesis _ after

end Script
end BuildQueue
