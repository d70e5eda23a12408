/-!
# Timestamps

An instant is the number of seconds since the beginning of 1970, UTC. Its text is the RFC 3339
form of date and time; instants further than about 262000 years away are written as `@` and the
seconds.

Days are counted from 1970-01-01 in the proleptic Gregorian calendar. A cycle of 400 years has
146097 days; within a cycle years begin in March, so that the leap day is the last of its year.
-/

namespace BuildQueue

/-! ## Calendar dates -/

/-- A date of the proleptic Gregorian calendar, with astronomical year numbers. -/
structure Date where
  year : Int
  month : Nat
  day : Nat
deriving DecidableEq, Repr

namespace Date

/-- The number of days in 400 years. -/
def cycleDays : Int := 146097

/-- The number of days from 0000-03-01 to 1970-01-01. -/
def epochOffset : Int := 719468

/-- The year of a cycle in which a day of the cycle falls, both counted from zero. -/
def yearOfCycle (day : Nat) : Nat :=
  (day - day / 1460 + day / 36524 - day / 146096) / 365

/-- The number of days of a cycle before one of its years. -/
def daysBeforeYear (year : Nat) : Nat := 365 * year + year / 4 - year / 100

/-- The number of days of a year that begins in March before one of its months, March being the
month zero. -/
def daysBeforeMonth (month : Nat) : Nat := (153 * month + 2) / 5

/-- The date of a day, counted from 1970-01-01. -/
def ofDay (day : Int) : Date :=
  let shifted := day + epochOffset
  let cycle := shifted / cycleDays
  let dayOfCycle := (shifted % cycleDays).toNat
  let year := yearOfCycle dayOfCycle
  let dayOfYear := dayOfCycle - daysBeforeYear year
  let month := (5 * dayOfYear + 2) / 153
  { year := year + 400 * cycle + if month < 10 then 0 else 1
    month := if month < 10 then month + 3 else month - 9
    day := dayOfYear - daysBeforeMonth month + 1 }

end Date

/-! ## Instants -/

open Std

/-- An instant, in whole seconds. -/
structure Timestamp where
  seconds : Int
deriving DecidableEq, Repr, Inhabited

namespace Timestamp

instance : Ord Timestamp := ⟨fun a b => compare a.seconds b.seconds⟩
instance : LT Timestamp := ⟨fun a b => a.seconds < b.seconds⟩
instance : LE Timestamp := ⟨fun a b => a.seconds ≤ b.seconds⟩
instance : DecidableLT Timestamp := fun a b => inferInstanceAs (Decidable (a.seconds < b.seconds))
instance : DecidableLE Timestamp := fun a b => inferInstanceAs (Decidable (a.seconds ≤ b.seconds))

@[simp] theorem compare_def (a b : Timestamp) : compare a b = compare a.seconds b.seconds := rfl

instance : TransOrd Timestamp where
  eq_swap {a b} := by
    rw [compare_def, compare_def]
    exact OrientedCmp.eq_swap
  isLE_trans {a b c} h h' := by
    rw [compare_def] at *
    exact TransCmp.isLE_trans h h'

instance : LawfulEqOrd Timestamp where
  compare_self {a} := by
    rw [compare_def]
    exact ReflCmp.compare_self
  eq_of_compare {a b} h := by
    cases a; cases b
    rw [compare_def] at h
    exact congrArg _ (LawfulEqCmp.eq_of_compare h)

/-- The number of seconds in a day. -/
def daySeconds : Int := 86400

/-- The first instant with a calendar text: the beginning of the year -262143. -/
def firstOnCalendar : Timestamp := ⟨-8334601228800⟩

/-- The last instant with a calendar text: the end of the year 262142. -/
def lastOnCalendar : Timestamp := ⟨8210266876799⟩

/-- Whether an instant has a calendar text. -/
def OnCalendar (t : Timestamp) : Prop := firstOnCalendar ≤ t ∧ t ≤ lastOnCalendar

instance (t : Timestamp) : Decidable t.OnCalendar :=
  inferInstanceAs (Decidable (firstOnCalendar ≤ t ∧ t ≤ lastOnCalendar))

/-- The decimal digits of a natural, with zeros in front up to a width. -/
def padded (width value : Nat) : String :=
  let digits := toString value
  String.ofList (List.replicate (width - digits.length) '0') ++ digits

/-- The text of a year: four digits from 0000 to 9999, otherwise signed. -/
def yearText (year : Int) : String :=
  if year < 0 then "-" ++ padded 4 year.natAbs
  else if year ≤ 9999 then padded 4 year.natAbs
  else "+" ++ padded 4 year.natAbs

/-- The date and time of an instant in RFC 3339 form. -/
def calendarText (t : Timestamp) : String :=
  let date := Date.ofDay (t.seconds / daySeconds)
  let second := (t.seconds % daySeconds).toNat
  yearText date.year ++ "-" ++ padded 2 date.month ++ "-" ++ padded 2 date.day ++ "T" ++
    padded 2 (second / 3600) ++ ":" ++ padded 2 (second / 60 % 60) ++ ":" ++
    padded 2 (second % 60) ++ "+00:00"

/-- The text of an instant. -/
def render (t : Timestamp) : String :=
  if t.OnCalendar then t.calendarText else "@" ++ toString t.seconds

instance : ToString Timestamp := ⟨render⟩

end Timestamp
end BuildQueue
