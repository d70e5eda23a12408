import BuildQueue.Timestamp
import Mathlib.Data.Prod.Lex
import Mathlib.Tactic.IntervalCases

/-!
# The dates of the days

The lengths of the months and the rule for leap years say which dates the proleptic Gregorian
calendar has and which date follows which. Days get their dates in this order: the day zero is
1970-01-01 (`ofDay_zero`), the following day has the following date (`ofDay_succ`), and every date
of the calendar is the date of exactly one day (`exists_ofDay_eq`, `ofDay_inj`).

The proofs count the days before a year and before a month, both from March on, so that the leap
day does not move any month. A day has one place in this count (`exists_daysBefore`), and its date
is read off there (`ofDay_of_daysBefore`).
-/

namespace BuildQueue
namespace Date

/-! ## The calendar -/

/-- Whether a year has a leap day. -/
def IsLeap (year : Int) : Prop := year % 4 = 0 ∧ (year % 100 = 0 → year % 400 = 0)

instance (year : Int) : Decidable (IsLeap year) :=
  inferInstanceAs (Decidable (year % 4 = 0 ∧ (year % 100 = 0 → year % 400 = 0)))

/-- The number of days of a month. -/
def monthDays (year : Int) (month : Nat) : Nat :=
  if month = 2 then if IsLeap year then 29 else 28
  else if month = 4 ∨ month = 6 ∨ month = 9 ∨ month = 11 then 30
  else 31

theorem monthDays_pos (year : Int) (month : Nat) : 0 < monthDays year month := by
  unfold monthDays
  repeat' split
  all_goals decide

theorem monthDays_le (year : Int) (month : Nat) : monthDays year month ≤ 31 := by
  unfold monthDays
  repeat' split
  all_goals decide

/-- The dates that the calendar has. -/
structure InCalendar (date : Date) : Prop where
  month_pos : 1 ≤ date.month
  month_le : date.month ≤ 12
  day_pos : 1 ≤ date.day
  day_le : date.day ≤ monthDays date.year date.month

/-- The date of the following day. -/
def next (date : Date) : Date :=
  if date.day < monthDays date.year date.month then { date with day := date.day + 1 }
  else if date.month < 12 then ⟨date.year, date.month + 1, 1⟩
  else ⟨date.year + 1, 1, 1⟩

/-- Dates are ordered by year, then by month, then by day. -/
instance : LinearOrder Date :=
  LinearOrder.lift' (fun date => toLex (date.year, toLex (date.month, date.day)))
    fun date other equal => by
      cases date
      cases other
      simpa using equal

theorem lt_iff {date other : Date} :
    date < other ↔ date.year < other.year ∨ date.year = other.year ∧
      (date.month < other.month ∨ date.month = other.month ∧ date.day < other.day) := by
  change toLex (date.year, toLex (date.month, date.day)) <
    toLex (other.year, toLex (other.month, other.day)) ↔ _
  rw [Prod.Lex.toLex_lt_toLex, Prod.Lex.toLex_lt_toLex]

theorem lt_next (date : Date) : date < date.next := by
  rw [lt_iff]
  unfold next
  split
  · exact .inr ⟨rfl, .inr ⟨rfl, Nat.lt_succ_self _⟩⟩
  · split
    · exact .inr ⟨rfl, .inl (Nat.lt_succ_self _)⟩
    · exact .inl (Int.lt_succ _)

/-! ## Years that begin in March -/

/-- The number of days from 0000-03-01 to the first of March of a year. -/
def daysBefore (year : Int) : Int := 365 * year + year / 4 - year / 100 + year / 400

/-- The number of days of a month of a year that begins in March, March being the month zero. -/
def marchDays (year : Int) (month : Nat) : Nat :=
  monthDays (year + if month < 10 then 0 else 1) (if month < 10 then month + 3 else month - 9)

/-- The date of a day of such a month, the first being the day zero. -/
def marchDate (year : Int) (month day : Nat) : Date :=
  { year := year + if month < 10 then 0 else 1
    month := if month < 10 then month + 3 else month - 9
    day := day + 1 }

theorem marchDays_february (year : Int) :
    marchDays year 11 = if IsLeap (year + 1) then 29 else 28 := rfl

theorem marchDays_february_bounds (year : Int) :
    28 ≤ marchDays year 11 ∧ marchDays year 11 ≤ 29 := by
  rw [marchDays_february]
  split <;> decide

theorem daysBeforeMonth_succ (year : Int) {month : Nat} (month_lt : month < 11) :
    daysBeforeMonth (month + 1) = daysBeforeMonth month + marchDays year month := by
  interval_cases month <;> rfl

theorem daysBefore_succ (year : Int) :
    daysBefore (year + 1) = daysBefore year + daysBeforeMonth 11 + marchDays year 11 := by
  rw [marchDays_february]
  unfold daysBefore daysBeforeMonth
  by_cases leap : IsLeap (year + 1)
  · rw [if_pos leap]
    unfold IsLeap at leap
    omega
  · rw [if_neg leap]
    unfold IsLeap at leap
    omega

/-- Dividing by 153 gives the month of a day of the year. -/
theorem month_iff {year : Int} {month dayOfYear : Nat} :
    (month < 12 ∧ daysBeforeMonth month ≤ dayOfYear ∧
        dayOfYear < daysBeforeMonth month + marchDays year month) ↔
      dayOfYear < daysBeforeMonth 11 + marchDays year 11 ∧ (5 * dayOfYear + 2) / 153 = month := by
  have february := marchDays_february_bounds year
  by_cases last : month = 11
  · subst last
    unfold daysBeforeMonth
    omega
  by_cases month_lt : month < 11
  · have ends := daysBeforeMonth_succ year month_lt
    unfold daysBeforeMonth at *
    omega
  · unfold daysBeforeMonth
    omega

theorem next_marchDate_of_lt {year : Int} {month day : Nat}
    (within : day + 1 < marchDays year month) :
    (marchDate year month day).next = marchDate year month (day + 1) :=
  if_pos within

theorem next_marchDate_of_month_lt {year : Int} {month day : Nat} (month_lt : month < 11)
    (last : day + 1 = marchDays year month) :
    (marchDate year month day).next = marchDate year (month + 1) 0 := by
  have ends : ¬day + 1 < marchDays year month := by omega
  refine (if_neg ends).trans ?_
  interval_cases month <;> simp [marchDate]

theorem next_marchDate_february {year : Int} {day : Nat} (last : day + 1 = marchDays year 11) :
    (marchDate year 11 day).next = marchDate (year + 1) 0 0 := by
  have ends : ¬day + 1 < marchDays year 11 := by omega
  refine (if_neg ends).trans ?_
  simp [marchDate]

theorem exists_marchDate_eq {date : Date} (inCalendar : date.InCalendar) :
    ∃ year month day, month < 12 ∧ day < marchDays year month ∧
      marchDate year month day = date := by
  obtain ⟨year, month, day⟩ := date
  obtain ⟨month_pos, month_le, day_pos, day_le⟩ := inCalendar
  simp only at month_pos month_le day_pos day_le
  by_cases spring : 3 ≤ month
  · have before : month - 3 < 10 := by omega
    refine ⟨year, month - 3, day - 1, by omega, ?_, ?_⟩
    · rw [marchDays, if_pos before, if_pos before, Nat.sub_add_cancel spring, Int.add_zero]
      omega
    · rw [marchDate, if_pos before, if_pos before, Nat.sub_add_cancel spring, Int.add_zero,
        Nat.sub_add_cancel day_pos]
  · have after : ¬month + 9 < 10 := by omega
    refine ⟨year - 1, month + 9, day - 1, by omega, ?_, ?_⟩
    · rw [marchDays, if_neg after, if_neg after, Nat.add_sub_cancel, Int.sub_add_cancel]
      omega
    · rw [marchDate, if_neg after, if_neg after, Nat.add_sub_cancel, Int.sub_add_cancel,
        Nat.sub_add_cancel day_pos]

/-! ## The place of a day -/

/-- Whether a year of a cycle has a given day: the `year`-th of a period of four years, which is the
`period`-th of a century, which is the `century`-th of the cycle. Only the last year of a period may
have a day 365, and that of the last period only in the last century. -/
structure YearOfCycle (century period year day : Nat) : Prop where
  century_lt : century < 4
  period_lt : period < 25
  year_lt : year < 4
  day_lt : day < 365 ∨ day = 365 ∧ year = 3 ∧ (period < 24 ∨ century = 3)

namespace YearOfCycle

variable {century period year day : Nat}

theorem exists_of_lt {dayOfCycle : Nat} (within : dayOfCycle < 146097) :
    ∃ century period year day, YearOfCycle century period year day ∧
      dayOfCycle = 36524 * century + 1461 * period + 365 * year + day := by
  obtain ⟨century, ofCentury, century_lt, ofCentury_lt, rfl⟩ : ∃ century ofCentury,
      century < 4 ∧ (ofCentury < 36524 ∨ ofCentury = 36524 ∧ century = 3) ∧
        dayOfCycle = 36524 * century + ofCentury :=
    ⟨min (dayOfCycle / 36524) 3, dayOfCycle - 36524 * min (dayOfCycle / 36524) 3,
      by omega, by omega, by omega⟩
  obtain ⟨year, day, year_lt, day_lt, ofPeriod⟩ : ∃ year day,
      year < 4 ∧ (day < 365 ∨ day = 365 ∧ year = 3) ∧
        ofCentury % 1461 = 365 * year + day :=
    ⟨min (ofCentury % 1461 / 365) 3, ofCentury % 1461 - 365 * min (ofCentury % 1461 / 365) 3,
      by omega, by omega, by omega⟩
  exact ⟨century, ofCentury / 1461, year, day,
    ⟨century_lt, by omega, year_lt, by omega⟩, by omega⟩

theorem yearOfCycle_eq (place : YearOfCycle century period year day) :
    yearOfCycle (36524 * century + 1461 * period + 365 * year + day) =
      100 * century + 4 * period + year := by
  obtain ⟨century_lt, period_lt, year_lt, day_lt⟩ := place
  obtain ⟨dayOfCycle, total⟩ : ∃ dayOfCycle,
      36524 * century + 1461 * period + 365 * year + day = dayOfCycle := ⟨_, rfl⟩
  rw [total, yearOfCycle]
  -- The last day of the cycle is its only day in a fifth century.
  by_cases last : dayOfCycle = 146096
  · omega
  have centuries : dayOfCycle / 36524 = century := by omega
  have cycles : dayOfCycle / 146096 = 0 := by omega
  have periods : dayOfCycle / 1460 =
      25 * century + period + (24 * century + period + 365 * year + day) / 1460 := by omega
  rw [centuries, cycles, periods]
  omega

theorem daysBeforeYear_eq (place : YearOfCycle century period year day) :
    daysBeforeYear (100 * century + 4 * period + year) =
      36524 * century + 1461 * period + 365 * year := by
  obtain ⟨century_lt, period_lt, year_lt, day_lt⟩ := place
  unfold daysBeforeYear
  omega

theorem daysBefore_eq (cycle : Int) (place : YearOfCycle century period year day) :
    daysBefore (400 * cycle + (100 * century + 4 * period + year : Nat)) =
      cycleDays * cycle + (36524 * century + 1461 * period + 365 * year : Nat) := by
  obtain ⟨century_lt, period_lt, year_lt, day_lt⟩ := place
  unfold daysBefore cycleDays
  omega

theorem isLeap_iff (cycle : Int) (century_lt : century < 4) (period_lt : period < 25)
    (year_lt : year < 4) :
    IsLeap (400 * cycle + (100 * century + 4 * period + year : Nat) + 1) ↔
      year = 3 ∧ (period < 24 ∨ century = 3) := by
  unfold IsLeap
  omega

/-- A year of a cycle ends when its month of February does. -/
theorem iff_lt_marchDays (cycle : Int) (century_lt : century < 4) (period_lt : period < 25)
    (year_lt : year < 4) :
    YearOfCycle century period year day ↔ day < daysBeforeMonth 11 +
      marchDays (400 * cycle + (100 * century + 4 * period + year : Nat)) 11 := by
  have days : YearOfCycle century period year day ↔
      day < 365 ∨ day = 365 ∧ year = 3 ∧ (period < 24 ∨ century = 3) :=
    ⟨day_lt, fun day_lt => ⟨century_lt, period_lt, year_lt, day_lt⟩⟩
  rw [days, marchDays_february]
  simp only [isLeap_iff cycle century_lt period_lt year_lt]
  unfold daysBeforeMonth
  split <;> omega

theorem ofDay_eq (cycle : Int) (place : YearOfCycle century period year day) :
    ofDay (cycleDays * cycle + (36524 * century + 1461 * period + 365 * year + day : Nat) -
        epochOffset) =
      marchDate (400 * cycle + (100 * century + 4 * period + year : Nat)) ((5 * day + 2) / 153)
        (day - daysBeforeMonth ((5 * day + 2) / 153)) := by
  have dayOfCycle_lt : 36524 * century + 1461 * period + 365 * year + day < 146097 := by
    obtain ⟨century_lt, period_lt, year_lt, day_lt⟩ := place
    omega
  have cycle_eq : (cycleDays * cycle +
      (36524 * century + 1461 * period + 365 * year + day : Nat)) / cycleDays = cycle := by
    unfold cycleDays
    omega
  have dayOfCycle_eq : ((cycleDays * cycle +
      (36524 * century + 1461 * period + 365 * year + day : Nat)) % cycleDays).toNat =
        36524 * century + 1461 * period + 365 * year + day := by
    unfold cycleDays
    omega
  unfold ofDay marchDate
  simp only [Int.sub_add_cancel, cycle_eq, dayOfCycle_eq, place.yearOfCycle_eq,
    place.daysBeforeYear_eq, Nat.add_sub_cancel_left]
  rw [Int.add_comm (400 * cycle)]

end YearOfCycle

theorem ofDay_of_daysBefore {year : Int} {month day : Nat} (month_lt : month < 12)
    (within : day < marchDays year month) :
    ofDay (daysBefore year + daysBeforeMonth month + day - epochOffset) =
      marchDate year month day := by
  obtain ⟨cycle, century, period, ofPeriod, century_lt, period_lt, ofPeriod_lt, rfl⟩ :
      ∃ cycle : Int, ∃ century period ofPeriod : Nat,
        century < 4 ∧ period < 25 ∧ ofPeriod < 4 ∧
          year = 400 * cycle + (100 * century + 4 * period + ofPeriod : Nat) :=
    ⟨year / 400, (year % 400 / 100).toNat, (year % 100 / 4).toNat, (year % 4).toNat,
      by omega, by omega, by omega, by omega⟩
  have ofYear := month_iff.mp ⟨month_lt, Nat.le_add_right _ day, Nat.add_lt_add_left within _⟩
  have place : YearOfCycle century period ofPeriod (daysBeforeMonth month + day) :=
    (YearOfCycle.iff_lt_marchDays cycle century_lt period_lt ofPeriod_lt).mpr
      ofYear.1
  have date := place.ofDay_eq cycle
  rw [ofYear.2, Nat.add_sub_cancel_left] at date
  rw [← date, place.daysBefore_eq cycle]
  congr 1
  omega

theorem exists_daysBefore (number : Int) : ∃ year : Int, ∃ month day : Nat,
    month < 12 ∧ day < marchDays year month ∧
      number = daysBefore year + daysBeforeMonth month + day - epochOffset := by
  let cycle := (number + epochOffset) / cycleDays
  have dayOfCycle_lt : ((number + epochOffset) % cycleDays).toNat < 146097 := by
    unfold cycleDays
    omega
  obtain ⟨century, period, year, dayOfYear, place, rest⟩ :=
    YearOfCycle.exists_of_lt dayOfCycle_lt
  have dayOfYear_lt :=
    (YearOfCycle.iff_lt_marchDays cycle place.century_lt place.period_lt place.year_lt).mp place
  obtain ⟨month_lt, month_le, day_lt⟩ := month_iff.mpr ⟨dayOfYear_lt, rfl⟩
  refine ⟨_, _, _, month_lt, Nat.sub_lt_left_of_lt_add month_le day_lt, ?_⟩
  rw [place.daysBefore_eq cycle]
  unfold cycle cycleDays at *
  omega

/-! ## The dates of successive days -/

theorem ofDay_zero : ofDay 0 = ⟨1970, 1, 1⟩ := rfl

theorem ofDay_succ (number : Int) : ofDay (number + 1) = (ofDay number).next := by
  obtain ⟨year, month, day, month_lt, within, rfl⟩ := exists_daysBefore number
  rw [ofDay_of_daysBefore month_lt within]
  by_cases inside : day + 1 < marchDays year month
  · rw [next_marchDate_of_lt inside, ← ofDay_of_daysBefore month_lt inside]
    congr 1
    omega
  have last : day + 1 = marchDays year month := by omega
  by_cases february : month = 11
  · subst february
    rw [next_marchDate_february last, ← ofDay_of_daysBefore (by omega) (monthDays_pos _ _),
      daysBefore_succ year]
    congr 1
    unfold daysBeforeMonth
    omega
  · have month_lt' : month < 11 := by omega
    rw [next_marchDate_of_month_lt month_lt' last,
      ← ofDay_of_daysBefore (by omega) (monthDays_pos _ _), daysBeforeMonth_succ year month_lt']
    congr 1
    omega

theorem ofDay_lt_iff {number other : Int} : ofDay number < ofDay other ↔ number < other := by
  have increasing : StrictMono ofDay := by
    apply strictMono_int_of_lt_succ
    intro day
    rw [ofDay_succ]
    exact lt_next _
  exact increasing.lt_iff_lt

theorem ofDay_inj {number other : Int} : ofDay number = ofDay other ↔ number = other := by
  refine ⟨fun same => ?_, congrArg ofDay⟩
  rcases Int.lt_trichotomy number other with before | equal | after
  · exact absurd same (ofDay_lt_iff.mpr before).ne
  · exact equal
  · exact absurd same (ofDay_lt_iff.mpr after).ne'

theorem inCalendar_ofDay (number : Int) : (ofDay number).InCalendar := by
  obtain ⟨year, month, day, month_lt, within, rfl⟩ := exists_daysBefore number
  rw [ofDay_of_daysBefore month_lt within]
  unfold marchDate
  constructor
  · simp only
    split <;> omega
  · simp only
    split <;> omega
  · simp
  · exact within

/-- Every date of the calendar is the date of a day, and by `ofDay_inj` of one day only. -/
theorem exists_ofDay_eq {date : Date} (inCalendar : date.InCalendar) :
    ∃ number, ofDay number = date := by
  obtain ⟨year, month, day, month_lt, within, rfl⟩ := exists_marchDate_eq inCalendar
  exact ⟨_, ofDay_of_daysBefore month_lt within⟩

end Date
end BuildQueue
