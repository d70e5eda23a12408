import BuildQueue.Proofs.Calendar
import BuildQueue.Proofs.Text.Digits

/-!
# The texts of instants

An instant is its date and its second of the day, and instants are ordered by them. Its calendar
text has the year in front, which may have any length, and behind it the same number of bytes for
every instant; so the year and the rest can be told apart and read back. A text with `@` is no
calendar text. Hence the text determines the instant.

From the year 0000 to the year 9999 all parts of the text have a fixed length, and the texts sort
like the instants. Outside these years they do not, since the signs sort before the digits.
-/

namespace BuildQueue
namespace Timestamp

variable {t u : Timestamp}

/-! ## Date and time of day -/

/-- The date of an instant. -/
def date (t : Timestamp) : Date := Date.ofDay (t.seconds / daySeconds)

/-- The second of its day at which an instant falls. -/
def secondOfDay (t : Timestamp) : Nat := (t.seconds % daySeconds).toNat

theorem secondOfDay_lt (t : Timestamp) : t.secondOfDay < 86400 := by
  unfold secondOfDay daySeconds
  omega

theorem month_lt (t : Timestamp) : t.date.month < 100 :=
  Nat.lt_of_le_of_lt (Date.inCalendar_ofDay _).month_le (by decide)

theorem day_lt (t : Timestamp) : t.date.day < 100 :=
  Nat.lt_of_le_of_lt ((Date.inCalendar_ofDay _).day_le.trans (Date.monthDays_le _ _)) (by decide)

theorem lt_trichotomy (t u : Timestamp) : t < u ∨ t = u ∨ u < t := by
  rcases Int.lt_trichotomy t.seconds u.seconds with lt | same | gt
  · exact .inl lt
  · exact .inr (.inl (congrArg mk same))
  · exact .inr (.inr gt)

theorem lt_iff : t < u ↔ t.date < u.date ∨ t.date = u.date ∧ t.secondOfDay < u.secondOfDay := by
  change t.seconds < u.seconds ↔ _
  unfold date secondOfDay
  rw [Date.ofDay_lt_iff, Date.ofDay_inj]
  unfold daySeconds
  omega

/-- The year of an instant is before a given year if the instant is before the first day of the
given year. -/
theorem year_lt_iff (t : Timestamp) {year number : Int}
    (newYear : Date.ofDay number = ⟨year, 1, 1⟩) :
    t.date.year < year ↔ t.seconds < number * daySeconds := by
  have before : t.date < ⟨year, 1, 1⟩ ↔ t.seconds < number * daySeconds := by
    rw [← newYear, date, Date.ofDay_lt_iff]
    unfold daySeconds
    omega
  have inCalendar : t.date.InCalendar := Date.inCalendar_ofDay _
  have month_pos := inCalendar.month_pos
  have day_pos := inCalendar.day_pos
  rw [← before, Date.lt_iff]
  simp only
  omega

/-- The instants with a calendar text are those of the years from -262143 to 262142. -/
theorem onCalendar_iff (t : Timestamp) :
    t.OnCalendar ↔ -262143 ≤ t.date.year ∧ t.date.year ≤ 262142 := by
  have first := t.year_lt_iff (show Date.ofDay (-96465292) = ⟨-262143, 1, 1⟩ from rfl)
  have last := t.year_lt_iff (show Date.ofDay 95026237 = ⟨262143, 1, 1⟩ from rfl)
  change -8334601228800 ≤ t.seconds ∧ t.seconds ≤ 8210266876799 ↔ _
  unfold daySeconds at first last
  omega

/-! ## The text behind the year -/

/-- The text of an instant from the month on. -/
def afterYear (t : Timestamp) : String :=
  "-" ++ (padded 2 t.date.month ++ ("-" ++ (padded 2 t.date.day ++
    ("T" ++ (padded 2 (t.secondOfDay / 3600) ++ (":" ++ (padded 2 (t.secondOfDay / 60 % 60) ++
      (":" ++ (padded 2 (t.secondOfDay % 60) ++ "+00:00")))))))))

theorem calendarText_eq (t : Timestamp) : t.calendarText = yearText t.date.year ++ t.afterYear := by
  simp only [calendarText, afterYear, date, secondOfDay, String.append_assoc]

section Field

variable (separator : String) {value other : Nat} {rest rest' : String}

theorem length_bytes_field (value_lt : value < 100) :
    (bytes (separator ++ (padded 2 value ++ rest))).length =
      (bytes separator).length + (2 + (bytes rest).length) := by
  rw [bytes_append, bytes_append, List.length_append, List.length_append,
    length_bytes_padded (by decide) value_lt]

theorem bytes_field_lt (value_lt : value < 100) (other_lt : other < 100)
    (lt : value < other ∨ value = other ∧ bytes rest < bytes rest') :
    bytes (separator ++ (padded 2 value ++ rest)) <
      bytes (separator ++ (padded 2 other ++ rest')) := by
  rw [bytes_append, bytes_append separator]
  apply List.append_left_lt
  apply bytes_append_lt
  · rw [length_bytes_padded (by decide) value_lt, length_bytes_padded (by decide) other_lt]
  · apply lt.imp (bytes_padded_lt (by decide) other_lt)
    rintro ⟨rfl, below⟩
    exact ⟨rfl, below⟩

end Field

theorem length_bytes_afterYear (t u : Timestamp) :
    (bytes t.afterYear).length = (bytes u.afterYear).length := by
  have t_second := t.secondOfDay_lt
  have u_second := u.secondOfDay_lt
  unfold afterYear
  rw [length_bytes_field _ t.month_lt, length_bytes_field _ u.month_lt,
    length_bytes_field _ t.day_lt, length_bytes_field _ u.day_lt,
    length_bytes_field, length_bytes_field, length_bytes_field, length_bytes_field,
    length_bytes_field, length_bytes_field]
  all_goals omega

theorem year_le_of_lt (lt : t < u) : t.date.year ≤ u.date.year := by
  rcases lt_iff.mp lt with earlier | ⟨same, -⟩
  · rw [Date.lt_iff] at earlier
    omega
  · exact le_of_eq (congrArg Date.year same)

/-- Within a year the text behind the year sorts by month, day, hour, minute and second, which is
the order of the instants. -/
theorem bytes_afterYear_lt (same_year : t.date.year = u.date.year) (lt : t < u) :
    bytes t.afterYear < bytes u.afterYear := by
  have t_second := t.secondOfDay_lt
  have u_second := u.secondOfDay_lt
  have byMonth : t.date.month < u.date.month ∨ t.date.month = u.date.month ∧
      (t.date.day < u.date.day ∨ t.date.day = u.date.day ∧ t.secondOfDay < u.secondOfDay) := by
    rcases lt_iff.mp lt with earlier | ⟨same, later⟩
    · rw [Date.lt_iff] at earlier
      omega
    · rw [same]
      omega
  have byHour : t.secondOfDay < u.secondOfDay →
      t.secondOfDay / 3600 < u.secondOfDay / 3600 ∨
        t.secondOfDay / 3600 = u.secondOfDay / 3600 ∧
          (t.secondOfDay / 60 % 60 < u.secondOfDay / 60 % 60 ∨
            t.secondOfDay / 60 % 60 = u.secondOfDay / 60 % 60 ∧
              t.secondOfDay % 60 < u.secondOfDay % 60) := by
    omega
  unfold afterYear
  refine bytes_field_lt _ t.month_lt u.month_lt (byMonth.imp_right (And.imp_right fun byDay => ?_))
  refine bytes_field_lt _ t.day_lt u.day_lt (byDay.imp_right (And.imp_right fun later => ?_))
  refine bytes_field_lt _ (by omega) (by omega)
    ((byHour later).imp_right (And.imp_right fun byMinute => ?_))
  refine bytes_field_lt _ (by omega) (by omega)
    (byMinute.imp_right (And.imp_right fun bySecond => ?_))
  exact bytes_field_lt _ (by omega) (by omega) (.inl bySecond)

theorem bytes_afterYear_injective (same_year : t.date.year = u.date.year)
    (equal : bytes t.afterYear = bytes u.afterYear) : t = u := by
  rcases lt_trichotomy t u with before | same | after
  · have lt := bytes_afterYear_lt same_year before
    rw [equal] at lt
    exact absurd lt (List.lt_irrefl _)
  · exact same
  · have lt := bytes_afterYear_lt same_year.symm after
    rw [equal] at lt
    exact absurd lt (List.lt_irrefl _)

/-! ## Years and seconds -/

/-- The sign of a year. -/
def yearSign (year : Int) : String := if year < 0 then "-" else if year ≤ 9999 then "" else "+"

theorem isSign_yearSign (year : Int) : IsSign (yearSign year) year := by
  unfold yearSign
  split
  · exact ⟨by simpa using ‹year < 0›, by simp⟩
  · split
    · exact ⟨by simp; omega, by simp⟩
    · exact ⟨by simp; omega, by simp⟩

theorem yearText_eq (year : Int) : yearText year = yearSign year ++ padded 4 year.natAbs := by
  unfold yearText yearSign
  split
  · rfl
  · split
    · rw [String.empty_append]
    · rfl

theorem yearText_injective {year year' : Int} (equal : yearText year = yearText year') :
    year = year' := by
  rw [yearText_eq, yearText_eq] at equal
  exact (isSign_yearSign year).value_injective (isSign_yearSign year') equal

/-- The sign of a number of seconds. -/
def secondsSign (seconds : Int) : String := if seconds < 0 then "-" else ""

theorem isSign_secondsSign (seconds : Int) : IsSign (secondsSign seconds) seconds := by
  unfold secondsSign
  split
  · exact ⟨by simpa using ‹seconds < 0›, by simp⟩
  · exact ⟨by simp; omega, by simp⟩

theorem toString_seconds (seconds : Int) :
    toString seconds = secondsSign seconds ++ padded 0 seconds.natAbs := by
  rw [Int.toString_eq_repr, Int.repr_eq_if, ← toString_nat, Nat.toString_eq_repr]
  unfold secondsSign
  by_cases negative : seconds < 0
  · have value : (-seconds).toNat = seconds.natAbs := by omega
    rw [if_neg (by omega), if_pos negative, value]
  · have value : seconds.toNat = seconds.natAbs := by omega
    rw [if_pos (by omega), if_neg negative, value, String.empty_append]

theorem toString_injective {seconds seconds' : Int}
    (equal : toString seconds = toString seconds') : seconds = seconds' := by
  rw [toString_seconds, toString_seconds] at equal
  exact (isSign_secondsSign seconds).value_injective (isSign_secondsSign seconds') equal

/-! ## The two forms of a text -/

theorem at_not_mem_padded (width value : Nat) : '@' ∉ (padded width value).toList :=
  fun mem => absurd (isDigit_of_mem_padded mem) (by decide)

theorem at_not_mem_yearSign (year : Int) : '@' ∉ (yearSign year).toList := by
  unfold yearSign
  repeat' split
  all_goals decide

theorem at_not_mem_calendarText (t : Timestamp) : '@' ∉ t.calendarText.toList := by
  simp [calendarText_eq, yearText_eq, afterYear, String.toList_append, at_not_mem_padded,
    at_not_mem_yearSign]

theorem calendarText_ne_at (t : Timestamp) (rest : String) : t.calendarText ≠ "@" ++ rest := by
  intro equal
  apply t.at_not_mem_calendarText
  simp [equal, String.toList_append]

theorem calendarText_injective (equal : t.calendarText = u.calendarText) : t = u := by
  rw [calendarText_eq, calendarText_eq] at equal
  have parts := congrArg bytes equal
  rw [bytes_append, bytes_append] at parts
  obtain ⟨years, rests⟩ := List.append_inj' parts (length_bytes_afterYear t u)
  have same_year := yearText_injective (bytes_injective years)
  exact bytes_afterYear_injective same_year rests

theorem render_injective (equal : t.render = u.render) : t = u := by
  unfold render at equal
  by_cases inside : t.OnCalendar <;> by_cases inside' : u.OnCalendar
  · rw [if_pos inside, if_pos inside'] at equal
    exact calendarText_injective equal
  · rw [if_pos inside, if_neg inside'] at equal
    exact absurd equal (t.calendarText_ne_at _)
  · rw [if_neg inside, if_pos inside'] at equal
    exact absurd equal.symm (u.calendarText_ne_at _)
  · rw [if_neg inside, if_neg inside', String.append_right_inj] at equal
    exact congrArg mk (toString_injective equal)

/-! ## The order of the texts -/

/-- Whether an instant falls in a year from 0000 to 9999. -/
def FourDigitYear (t : Timestamp) : Prop := 0 ≤ t.date.year ∧ t.date.year ≤ 9999

instance (t : Timestamp) : Decidable t.FourDigitYear :=
  inferInstanceAs (Decidable (0 ≤ t.date.year ∧ t.date.year ≤ 9999))

theorem FourDigitYear.onCalendar (four : t.FourDigitYear) : t.OnCalendar := by
  obtain ⟨year_nonneg, year_le⟩ := four
  rw [onCalendar_iff]
  omega

theorem FourDigitYear.render_eq (four : t.FourDigitYear) :
    t.render = padded 4 t.date.year.natAbs ++ t.afterYear := by
  have not_negative : ¬t.date.year < 0 := Int.not_lt.mpr four.1
  rw [render, if_pos four.onCalendar, calendarText_eq, yearText, if_neg not_negative,
    if_pos four.2]

theorem bytes_render_lt (four : t.FourDigitYear) (four' : u.FourDigitYear) (lt : t < u) :
    bytes t.render < bytes u.render := by
  rw [four.render_eq, four'.render_eq]
  obtain ⟨year_nonneg, year_le⟩ := four
  obtain ⟨year_nonneg', year_le'⟩ := four'
  apply bytes_append_lt
  · rw [length_bytes_padded (by decide) (by omega), length_bytes_padded (by decide) (by omega)]
  · rcases Int.lt_or_eq_of_le (year_le_of_lt lt) with earlier | same
    · exact .inl (bytes_padded_lt (by decide) (by omega) (by omega))
    · exact .inr ⟨by rw [same], bytes_afterYear_lt same lt⟩

/-- Two instants have the same text only if they are the same, on the calendar and off it; in the
years from 0000 to 9999 the bytes of the texts sort like the instants. -/
theorem texts_unambiguous (t u : Timestamp) :
    (t.render = u.render ↔ t = u) ∧
      (t.FourDigitYear → u.FourDigitYear → (t < u ↔ bytes t.render < bytes u.render)) := by
  refine ⟨⟨render_injective, congrArg render⟩, fun four four' => ?_⟩
  refine ⟨bytes_render_lt four four', fun lt => ?_⟩
  rcases lt_trichotomy t u with before | same | after
  · exact before
  · rw [same] at lt
    exact absurd lt (List.lt_irrefl _)
  · exact absurd lt (List.lt_asymm (bytes_render_lt four' four after))

/-- The first second of the year 0000 and the last one of the year 9999 have different texts, in
the order of the instants. -/
theorem texts_unambiguous_first_last :
    let first : Timestamp := ⟨-62167219200⟩
    let last : Timestamp := ⟨253402300799⟩
    first.FourDigitYear ∧ last.FourDigitYear ∧ first < last ∧ first.render ≠ last.render ∧
      bytes first.render < bytes last.render := by
  intro first last
  have four : first.FourDigitYear := by decide
  have four' : last.FourDigitYear := by decide
  have lt : first < last := by decide
  obtain ⟨unambiguous, order⟩ := texts_unambiguous first last
  refine ⟨four, four', lt, fun equal => ?_, (order four four').mp lt⟩
  exact absurd (unambiguous.mp equal) (by decide)

/-- The first second of the year 10000 sorts before the last one of the year 9999. -/
example : bytes (render ⟨253402300800⟩) < bytes (render ⟨253402300799⟩) := by decide +kernel

end Timestamp
end BuildQueue
