import BuildQueue.Counters

/-!
# Contexts

A context says on whose behalf something is done: it belongs to a session, logs with its
key-values, and counts. Contexts are made from each other. A clone shares everything with the
context that it was made from; a derived context has more key-values and counters of its own, but
belongs to the same session; a fresh context shares nothing.
-/

namespace BuildQueue

/-! ## Log lines -/

/-- The level of a log line. -/
inductive Level where
  | debug
  | info
  | warning
  | error
deriving DecidableEq, Repr

/-- The name of a level. -/
def Level.name : Level → String
  | debug => "debug"
  | info => "info"
  | warning => "warning"
  | error => "error"

/-- A log line, with the key-values of the context that logged it, the newest first. -/
structure LogLine where
  level : Level
  message : String
  keyValues : List (String × String) := []
deriving DecidableEq, Repr

/-! ## Contexts -/

/-- A context. Contexts of one family share their counters. -/
structure Context where
  session : Nat
  family : Nat
  keyValues : List (String × String)
  /-- Whether the lines of the context are kept. -/
  recorded : Bool
deriving DecidableEq, Repr

/-- All contexts that were made, in this order, the counters of each family, the number of
sessions, and the lines that were kept. -/
structure Contexts where
  made : List Context
  families : List Counters
  sessions : Nat
  lines : List LogLine
deriving DecidableEq

namespace Contexts

/-- No contexts. -/
def empty : Contexts := ⟨[], [], 0, []⟩

/-- Makes a context of a session with a new family. -/
def make (contexts : Contexts) (session : Nat) (keyValues : List (String × String))
    (recorded : Bool) : Contexts :=
  { contexts with
    made := contexts.made ++ [⟨session, contexts.families.length, keyValues, recorded⟩]
    families := contexts.families ++ [∅] }

/-- Makes a context of a new session. -/
def fresh (contexts : Contexts) (recorded : Bool) : Contexts :=
  { contexts.make contexts.sessions [] recorded with sessions := contexts.sessions + 1 }

/-- Makes a context that shares everything with one that was made. -/
def clone (contexts : Contexts) (context : Context) : Contexts :=
  { contexts with made := contexts.made ++ [context] }

/-- Makes a context of the same session with more key-values, the newest first. -/
def deriveAll (contexts : Contexts) (context : Context) (added : List (String × String)) :
    Contexts :=
  contexts.make context.session (added ++ context.keyValues) context.recorded

/-- Makes a context of the same session with one more key-value. -/
def derive (contexts : Contexts) (context : Context) (key value : String) : Contexts :=
  contexts.deriveAll context [(key, value)]

/-- The counters that a context sees. -/
def countersOf (contexts : Contexts) (context : Context) : Counters :=
  (contexts.families[context.family]?).getD ∅

/-- Changes the counters that a context sees. -/
def updateCounters (contexts : Contexts) (context : Context) (update : Counters → Counters) :
    Contexts :=
  { contexts with families := contexts.families.modify context.family update }

/-- Logs a line through a context. -/
def log (contexts : Contexts) (context : Context) (level : Level) (message : String) : Contexts :=
  if context.recorded then
    { contexts with lines := contexts.lines ++ [⟨level, message, context.keyValues⟩] }
  else contexts

end Contexts
end BuildQueue
