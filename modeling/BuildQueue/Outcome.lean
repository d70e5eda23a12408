/-!
# Outcomes

The outcome of a completed build request, and the codes under which outcomes are stored.
-/

namespace BuildQueue

/-- How a build request ended. A request that was retired without running is skipped. -/
inductive Outcome where
  | success
  | warnings
  | failure
  | skipped
  | exception
  | retry
  | cancelled
deriving DecidableEq, Repr

namespace Outcome

/-- The code of an outcome. -/
def code : Outcome → Int
  | success => 0
  | warnings => 1
  | failure => 2
  | skipped => 3
  | exception => 4
  | retry => 5
  | cancelled => 6

/-- The outcome of a code. -/
def ofCode? : Int → Option Outcome
  | 0 => some success
  | 1 => some warnings
  | 2 => some failure
  | 3 => some skipped
  | 4 => some exception
  | 5 => some retry
  | 6 => some cancelled
  | _ => none

/-- The name of an outcome. -/
def name : Outcome → String
  | success => "success"
  | warnings => "warnings"
  | failure => "failure"
  | skipped => "skipped"
  | exception => "exception"
  | retry => "retry"
  | cancelled => "cancelled"

instance : ToString Outcome := ⟨name⟩

/-- What is said of a code that belongs to no outcome. -/
def unknownCodeMessage (code : Int) : String := "Unknown result code " ++ toString code

@[simp] theorem ofCode?_code (outcome : Outcome) : ofCode? outcome.code = some outcome := by
  cases outcome <;> rfl

end Outcome
end BuildQueue
