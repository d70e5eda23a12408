import BuildQueue.Context
import BuildQueue.Memo
import BuildQueue.View.Assembly

/-!
# Effects of a pass

A collapse pass asks its surroundings for calls of the store, for views from its view cache, for the
time, and for counting and logging. Each of them is one effect, so that other clients can act
between any two. A view that the cache does not hold takes calls of the store as well; those are the
cache's.
-/

namespace BuildQueue

/-- Who a call is charged to. -/
inductive Account where
  /-- The caller of the pass. -/
  | caller
  /-- The view cache. -/
  | cache
deriving DecidableEq, Repr

/-- What a pass may ask of the place where it runs. -/
inductive Action where
  /-- A call of the store through its guard. -/
  | call (account : Account) (call : Call)
  /-- A call of the store that the guard does not see. -/
  | direct (call : Call)
  /-- The current time. -/
  | time
  | count (counter : Counter)
  | log (level : Level) (message : String)

/-- What an action gives. -/
@[reducible] def Action.Reply : Action → Type
  | .call _ asked => asked.Reply
  | .direct asked => asked.Reply
  | .time => Timestamp
  | .count _ => Unit
  | .log _ _ => Unit

/-- What a pass may ask for. -/
inductive Effect where
  | act (action : Action)
  /-- The view of a request, through the view cache. -/
  | view (id : RequestId)

/-- What the surroundings reply to an effect. -/
@[reducible] def Effect.Reply : Effect → Type
  | .act action => action.Reply
  | .view _ => Except Failure View

/-- A computation with these effects that may fail. -/
abbrev Pass (α : Type) := ExceptT Failure (Script Effect.Reply) α

namespace Pass

variable {α : Type}

/-- Asks for an action. -/
def act (action : Action) : Pass action.Reply := ExceptT.lift (Script.single (Effect.act action))

/-- Makes a call through the guard of the store and gives its failure as a value. -/
def attempt (call : Call) : Pass call.Reply := act (.call .caller call)

/-- Makes a call through the guard of the store. -/
def call (call : Call) : Pass call.Value :=
  ExceptT.mk (Script.single (Effect.act (.call .caller call)))

/-- Makes a call that the guard of the store does not see, and gives its failure as a value. -/
def direct (call : Call) : Pass call.Reply := act (.direct call)

/-- A script of calls as a script of effects, charged to an account. -/
def chargeScript (account : Account) : Script Call.Reply α → Script Effect.Reply α
  | .done value => .done value
  | .ask call next =>
    .ask (Effect.act (.call account call)) fun reply => chargeScript account (next reply)

/-- A computation that calls the store, charged to an account. -/
def charge (account : Account) (calling : Calling α) : Pass α :=
  ExceptT.mk (chargeScript account calling.run)

/-- Logs a line. -/
def log (level : Level) (message : String) : Pass Unit := act (.log level message)

/-- Counts one. -/
def count (counter : Counter) : Pass Unit := act (.count counter)

/-- The view of a request as the view cache gives it. -/
def view (id : RequestId) : Pass View := ExceptT.mk (Script.single (Effect.view id))

end Pass
end BuildQueue
