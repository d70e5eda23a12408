/-!
# Scripts

A script is a computation that asks its surroundings for one thing after the other: each question
is an operation, and what comes next depends on the reply. Since a script is data, it can be run
to its end, stopped before any operation and taken up later, or interleaved with others.
-/

namespace BuildQueue

/-- A script whose operations are of type `Op`, the reply to an operation being of the type that
`Reply` says. -/
inductive Script {Op : Type} (Reply : Op → Type) (α : Type) where
  /-- The script has ended with a value. -/
  | done (value : α)
  /-- The script asks for an operation and goes on with its reply. -/
  | ask (op : Op) (next : Reply op → Script Reply α)

namespace Script

variable {Op : Type} {Reply : Op → Type} {α β σ : Type}

/-- The script of one operation. -/
def single (op : Op) : Script Reply (Reply op) := ask op done

/-- One script after the other. -/
def bind : Script Reply α → (α → Script Reply β) → Script Reply β
  | done value, f => f value
  | ask op next, f => ask op fun reply => (next reply).bind f

instance : Monad (Script Reply) where
  pure := done
  bind := bind

@[simp] theorem pure_eq (value : α) : (pure value : Script Reply α) = done value := rfl

@[simp] theorem done_bind (value : α) (f : α → Script Reply β) : done value >>= f = f value := rfl

@[simp] theorem ask_bind (op : Op) (next : Reply op → Script Reply α) (f : α → Script Reply β) :
    ask op next >>= f = ask op fun reply => next reply >>= f := rfl

theorem bind_done (script : Script Reply α) : script.bind done = script := by
  induction script with
  | done value => rfl
  | ask op next ih => exact congrArg _ (funext ih)

theorem bind_assoc {γ : Type} (script : Script Reply α) (f : α → Script Reply β)
    (g : β → Script Reply γ) : (script.bind f).bind g = script.bind fun a => (f a).bind g := by
  induction script with
  | done value => rfl
  | ask op next ih => exact congrArg _ (funext ih)

instance : LawfulMonad (Script Reply) :=
  LawfulMonad.mk' (Script Reply) bind_done (fun _ _ => rfl) bind_assoc

/-- Runs a script to its end over a state, each operation giving a reply and a new state. -/
def run (perform : (op : Op) → σ → Reply op × σ) : Script Reply α → σ → α × σ
  | done value, state => (value, state)
  | ask op next, state =>
    let (reply, state) := perform op state
    run perform (next reply) state

@[simp] theorem run_done (perform : (op : Op) → σ → Reply op × σ) (value : α) (state : σ) :
    run perform (done value) state = (value, state) := rfl

@[simp] theorem run_ask (perform : (op : Op) → σ → Reply op × σ) (op : Op)
    (next : Reply op → Script Reply α) (state : σ) :
    run perform (ask op next) state =
      run perform (next (perform op state).1) (perform op state).2 := rfl

/-- Running one script after the other is running the second where the first ended. -/
theorem run_bind (perform : (op : Op) → σ → Reply op × σ) (script : Script Reply α)
    (f : α → Script Reply β) (state : σ) :
    run perform (script >>= f) state =
      run perform (f (run perform script state).1) (run perform script state).2 := by
  induction script generalizing state with
  | done value => rfl
  | ask op next ih => exact ih _ _

/-- Runs a script up to the first operation at which it is to wait. A script that has waited at
its first operation already does not wait there again. Gives the value of the script if it ended,
else what is left of it. -/
def advance (waits : Op → σ → Bool) (perform : (op : Op) → σ → Reply op × σ) :
    Script Reply α → Bool → σ → (α ⊕ Script Reply α) × σ
  | done value, _, state => (.inl value, state)
  | ask op next, waited, state =>
    if waits op state && !waited then (.inr (ask op next), state)
    else
      let (reply, state) := perform op state
      advance waits perform (next reply) false state

end Script
end BuildQueue
