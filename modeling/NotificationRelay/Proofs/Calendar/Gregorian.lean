/-
# The Gregorian calendar

The dates of days are found by division, in eras of 400 years that begin in March. That they are
those of the calendar is said here without eras: the first of January 1970 is day 0
(`Day.civil_zero`), every day has a date that exists (`Day.exists_civil`), and the date of the next
day is the next date (`Day.civil_next`): the next day of the month, or the first of the next month,
or New Year. Days and the dates that exist correspond to each other (`Day.ofCivil_civil`,
`Day.civil_ofCivil`) and their orders agree (`Day.before_civil_iff`).

What carries the proofs is where a month begins. Months are counted from March of the year 0, and
`Day.monthStart` is the number of days before a month: it grows by the length of the month
(`Day.monthStart_months_succ`), and the date of a day is found in the month that has begun and not
ended on it (`Day.Within`).
-/
import NotificationRelay.Calendar.Day
import Mathlib.Order.Monotone.Basic
import Mathlib.Tactic.IntervalCases

namespace NotificationRelay
namespace Day

/-- The day after a day. -/
def next (d : Day) : Day := ⟨d.number + 1⟩

/-- The day before a day. -/
def previous (d : Day) : Day := ⟨d.number - 1⟩

namespace Civil

/-- The month is one of the year, and the day is one of the month. -/
structure Exists (c : Civil) : Prop where
  month : 1 ≤ c.month ∧ c.month ≤ 12
  day : 1 ≤ c.day ∧ c.day ≤ monthLength c.year c.month

/-- The date after a date. -/
def next (c : Civil) : Civil :=
  if c.day < monthLength c.year c.month then ⟨c.year, c.month, c.day + 1⟩
  else if c.month < 12 then ⟨c.year, c.month + 1, 1⟩
  else ⟨c.year + 1, 1, 1⟩

/-- The order of dates: by year, within a year by month, and within a month by day. -/
def Before (c e : Civil) : Prop :=
  c.year < e.year ∨ c.year = e.year ∧ (c.month < e.month ∨ c.month = e.month ∧ c.day < e.day)

/-- The number of the month of a date, counted from March of the year 0. -/
def months (c : Civil) : Int := 12 * c.year + c.month - 3

end Civil

variable {c e : Civil} {d : Day}

/-! ## Where months begin -/

/-- The days from the first of March of the year 0 to the first of March of a year. -/
def yearStart (year : Int) : Int := 365 * year + year / 4 - year / 100 + year / 400

/-- The days from the first of March of the year 0 to the first day of a month. -/
def monthStart (k : Int) : Int := yearStart (k / 12) + (153 * (k % 12) + 2) / 5

/-- Every era of 400 years has as many days. -/
theorem yearStart_era (era year : Int) :
    yearStart (year + era * 400) = yearStart year + era * 146097 := by
  unfold yearStart
  omega

/-- A year has at least 365 days. -/
theorem yearStart_le_succ (year : Int) : yearStart year + 365 ≤ yearStart (year + 1) := by
  unfold yearStart
  omega

/-- A month begins as many days after its year as the months before it have. -/
theorem monthStart_of_year {m : Int} (year : Int) (least : 0 ≤ m) (most : m < 12) :
    monthStart (12 * year + m) = yearStart year + (153 * m + 2) / 5 := by
  have whole : (12 * year + m) / 12 = year := by omega
  have rest : (12 * year + m) % 12 = m := by omega
  rw [monthStart, whole, rest]

/-- A leap year is divisible by four, and by 400 if it is by a hundred. -/
theorem isLeap_iff (year : Int) :
    isLeap year = true ↔ year % 4 = 0 ∧ (year % 100 ≠ 0 ∨ year % 400 = 0) := by
  simp [isLeap]

/-- A year of the count, from March to March, is as long as the civil year that it ends in. -/
theorem yearStart_succ (year : Int) :
    yearStart (year + 1) = yearStart year + 337 + monthLength (year + 1) 2 := by
  have leap := isLeap_iff (year + 1)
  unfold yearStart monthLength
  by_cases is : isLeap (year + 1)
  · rw [if_pos rfl, if_pos is]
    have := leap.1 is
    omega
  · rw [if_pos rfl, if_neg is]
    have : ¬ _ := mt leap.2 is
    omega

/-- The months other than February are as long as their starts in the year lie apart. -/
theorem monthLength_of_ne_february {month : Nat} (year : Int) (least : 1 ≤ month)
    (most : month ≤ 12) (other : month ≠ 2) :
    let m := ((month : Int) + 9) % 12
    (monthLength year month : Int) = (153 * (m + 1) + 2) / 5 - (153 * m + 2) / 5 := by
  interval_cases month <;> first | rfl | exact absurd rfl other

/-- Every month has a day. -/
theorem one_le_monthLength (year : Int) (month : Nat) : 1 ≤ monthLength year month := by
  unfold monthLength
  split_ifs <;> decide

/-- **The next month begins when the days of a month are over.** -/
theorem monthStart_months_succ (least : 1 ≤ c.month) (most : c.month ≤ 12) :
    monthStart (c.months + 1) = monthStart c.months + monthLength c.year c.month := by
  by_cases february : c.month = 2
  · have here : c.months = 12 * (c.year - 1) + 11 := by
      unfold Civil.months
      omega
    have after : c.months + 1 = 12 * c.year + 0 := by omega
    have year := yearStart_succ (c.year - 1)
    rw [Int.sub_add_cancel] at year
    rw [after, here, monthStart_of_year _ (by decide) (by decide),
      monthStart_of_year _ (by decide) (by decide), february, year]
    omega
  · -- The month and the next one lie in the same year of the count.
    obtain ⟨year, split⟩ : ∃ year, c.months = 12 * year + ((c.month : Int) + 9) % 12 :=
      ⟨c.months / 12, by unfold Civil.months; omega⟩
    have length := monthLength_of_ne_february c.year least most february
    rw [split, Int.add_assoc, monthStart_of_year _ (by omega) (by omega),
      monthStart_of_year _ (by omega) (by omega), length]
    omega

/-- No month begins after the next. -/
theorem monthStart_le_succ (k : Int) : monthStart k ≤ monthStart (k + 1) := by
  have year := yearStart_le_succ (k / 12)
  have next : (k + 1) / 12 = k / 12 ∨ (k + 1) / 12 = k / 12 + 1 ∧ k % 12 = 11 := by omega
  unfold monthStart
  rcases next with same | ⟨turn, last⟩
  · rw [same]
    omega
  · rw [turn, last]
    omega

/-- A later month does not begin before an earlier one. -/
theorem monthStart_mono {j k : Int} (le : j ≤ k) : monthStart j ≤ monthStart k :=
  monotone_int_of_le_succ monthStart_le_succ le

/-! ## The day of a date -/

/-- A date is as many days after the first of its month as its day says. -/
theorem number_ofCivil (least : 1 ≤ c.month) (most : c.month ≤ 12) :
    (ofCivil c).number = monthStart c.months + c.day - 719469 := by
  by_cases early : c.month ≤ 2
  · have here : c.months = 12 * (c.year - 1) + (c.month + 9) := by
      unfold Civil.months
      omega
    rw [here, monthStart_of_year _ (by omega) (by omega)]
    simp only [ofCivil, early, if_true, if_neg (show ¬ 2 < c.month by omega), yearStart]
    omega
  · have here : c.months = 12 * c.year + (c.month - 3) := by
      unfold Civil.months
      omega
    rw [here, monthStart_of_year _ (by omega) (by omega)]
    simp only [ofCivil, early, if_false, if_pos (show 2 < c.month by omega), yearStart]
    omega

/-! ## The year of a day -/

/-- Where a day lies in its era: in which century of it, in which four years of the century, in
which year of the four, and on which day of the year. A year has 366 days if it is the last of four,
and then not if the four are the last of a century, unless the century is the last of the era. -/
structure Place (n : Int) where
  century : Int
  four : Int
  year : Int
  day : Int
  centuries : 0 ≤ century ∧ century ≤ 3
  fours : 0 ≤ four ∧ four ≤ 24
  years : 0 ≤ year ∧ year ≤ 3
  days : 0 ≤ day ∧ day ≤ 365
  leap : day = 365 → year = 3 ∧ (four = 24 → century = 3)
  whole : n = 36524 * century + 1461 * four + 365 * year + day

namespace Place

variable {n : Int}

/-- Every day of an era has its place. The last day of a period would begin another one by the
quotient alone, which is why no quotient goes beyond the last period. -/
theorem nonempty (least : 0 ≤ n) (most : n < 146097) : Nonempty (Place n) := by
  obtain ⟨c, r, centuries, rest, era⟩ : ∃ c r : Int, (0 ≤ c ∧ c ≤ 3) ∧
      (0 ≤ r ∧ r ≤ 36524 ∧ (r = 36524 → c = 3)) ∧ n = 36524 * c + r :=
    ⟨min (n / 36524) 3, n - 36524 * min (n / 36524) 3, by omega⟩
  obtain ⟨q, s, fours, rest', century⟩ : ∃ q s : Int, (0 ≤ q ∧ q ≤ 24) ∧
      (0 ≤ s ∧ s ≤ 1460 ∧ (s = 1460 → q = 24 → c = 3)) ∧ r = 1461 * q + s :=
    ⟨min (r / 1461) 24, r - 1461 * min (r / 1461) 24, by omega⟩
  obtain ⟨p, t, years, rest'', four⟩ : ∃ p t : Int, (0 ≤ p ∧ p ≤ 3) ∧
      (0 ≤ t ∧ t ≤ 365 ∧ (t = 365 → p = 3)) ∧ s = 365 * p + t :=
    ⟨min (s / 365) 3, s - 365 * min (s / 365) 3, by omega⟩
  exact ⟨⟨c, q, p, t, centuries, fours, years, by omega, by omega, by omega⟩⟩

/-- The year of the era. -/
def yearOfEra (p : Place n) : Int := 100 * p.century + 4 * p.four + p.year

/-- The leap days that have been, taken off, leave 365 days for each year. -/
theorem yearOfEra_eq (p : Place n) :
    (n - n / 1460 + n / 36524 - n / 146096) / 365 = p.yearOfEra := by
  obtain ⟨c, q, y, t, centuries, fours, years, days, leap, whole⟩ := p
  -- The last day of the era is the only one on which 36524 goes once too often.
  have century : n / 36524 - n / 146096 = c := by
    by_cases final : n = 146096
    · omega
    · have : n < 146096 := by omega
      have : 1461 * q + 365 * y + t < 36524 := by omega
      omega
  have four : n / 1460 = 25 * c + q + (24 * c + q + 365 * y + t) / 1460 := by omega
  show _ = 100 * c + 4 * q + y
  omega

/-- The year of a day begins as many days before it as its place tells. -/
theorem yearStart_yearOfEra (p : Place n) : yearStart p.yearOfEra = n - p.day := by
  obtain ⟨c, q, y, t, centuries, fours, years, days, leap, whole⟩ := p
  show yearStart (100 * c + 4 * q + y) = n - t
  have hundreds : (100 * c + 4 * q + y) / 100 = c := by omega
  have fourths : (100 * c + 4 * q + y) / 4 = 25 * c + q := by omega
  unfold yearStart
  rw [hundreds, fourths]
  omega

/-- The year of a day has not ended on that day. -/
theorem lt_yearStart_succ (p : Place n) : n < yearStart (p.yearOfEra + 1) := by
  have start := p.yearStart_yearOfEra
  obtain ⟨c, q, y, t, centuries, fours, years, days, leap, whole⟩ := p
  change yearStart (100 * c + 4 * q + y) = n - t at start
  show n < yearStart (100 * c + 4 * q + y + 1)
  by_cases day : t = 365
  · unfold yearStart at *
    omega
  · have := yearStart_le_succ (100 * c + 4 * q + y)
    omega

end Place

/-! ## The date of a day -/

/-- The date of a day of a year that begins in March. -/
def Civil.ofMarch (year day : Int) : Civil :=
  let month := (5 * day + 2) / 153
  ⟨if month < 10 then year else year + 1, (if month < 10 then month + 3 else month - 9).toNat,
    (day - (153 * month + 2) / 5 + 1).toNat⟩

/-- The date is one of the month in which the day lies, and it counts the days of the month up to
the day. -/
structure Within (d : Day) (c : Civil) : Prop where
  month : 1 ≤ c.month ∧ c.month ≤ 12
  begun : monthStart c.months ≤ d.number + 719468
  left : d.number + 719468 < monthStart (c.months + 1)
  day : (c.day : Int) = d.number + 719468 - monthStart c.months + 1

/-- The date of a day is found by its place in the era. -/
theorem civil_eq_ofMarch (d : Day) : ∃ year day : Int, d.civil = .ofMarch year day ∧
    (0 ≤ day ∧ day ≤ 365) ∧ d.number + 719468 = yearStart year + day ∧
    yearStart year + day < yearStart (year + 1) := by
  obtain ⟨place⟩ := Place.nonempty (n := (d.number + 719468) % 146097) (by omega) (by omega)
  have start := place.yearStart_yearOfEra
  have after := place.lt_yearStart_succ
  have within : 0 ≤ place.yearOfEra ∧ place.yearOfEra < 400 := by
    have := place.centuries
    have := place.fours
    have := place.years
    unfold Place.yearOfEra
    omega
  have day : (d.number + 719468) % 146097 - (365 * place.yearOfEra + place.yearOfEra / 4
      - place.yearOfEra / 100) = place.day := by
    unfold yearStart at start
    omega
  refine ⟨place.yearOfEra + (d.number + 719468) / 146097 * 400, place.day, ?_, place.days, ?_, ?_⟩
  · have days := place.days
    -- January and February are of the next civil year.
    have month : (5 * place.day + 2) / 153 < 12 := by omega
    have early : (if (5 * place.day + 2) / 153 < 10 then (5 * place.day + 2) / 153 + 3
        else (5 * place.day + 2) / 153 - 9) ≤ 2 ↔ ¬ (5 * place.day + 2) / 153 < 10 := by
      split_ifs <;> omega
    simp only [civil, Civil.ofMarch, place.yearOfEra_eq, day, early, ite_not]
  · rw [yearStart_era]
    omega
  · rw [Int.add_right_comm, yearStart_era, yearStart_era]
    omega

/-- The date is one of a month, and of one that lies in the year that began in March. -/
theorem Civil.month_ofMarch {day : Int} (year : Int) (least : 0 ≤ day) (most : day ≤ 365) :
    (1 ≤ (ofMarch year day).month ∧ (ofMarch year day).month ≤ 12) ∧
      (ofMarch year day).months = 12 * year + (5 * day + 2) / 153 := by
  have month : 0 ≤ (5 * day + 2) / 153 ∧ (5 * day + 2) / 153 < 12 := by omega
  unfold months ofMarch
  by_cases early : (5 * day + 2) / 153 < 10
  · simp only [if_pos early]
    omega
  · simp only [if_neg early]
    omega

/-- **A day lies in the month of its date.** -/
theorem within_civil (d : Day) : d.Within d.civil := by
  obtain ⟨year, day, date, ⟨least, most⟩, number, ends⟩ := d.civil_eq_ofMarch
  obtain ⟨month, months⟩ := Civil.month_ofMarch year least most
  have start : monthStart (Civil.ofMarch year day).months =
      yearStart year + (153 * ((5 * day + 2) / 153) + 2) / 5 := by
    rw [months, monthStart_of_year year (by omega) (by omega)]
  rw [date]
  refine ⟨month, by omega, ?_, ?_⟩
  · by_cases final : (5 * day + 2) / 153 = 11
    · have after : (Civil.ofMarch year day).months + 1 = 12 * (year + 1) + 0 := by omega
      rw [after, monthStart_of_year _ (by decide) (by decide)]
      omega
    · rw [months, Int.add_assoc, monthStart_of_year year (by omega) (by omega)]
      omega
  · rw [start]
    show (((day - (153 * ((5 * day + 2) / 153) + 2) / 5 + 1).toNat : Nat) : Int) = _
    omega

namespace Within

/-- The day within which a date lies is the day of the date. -/
theorem ofCivil_eq (within : d.Within c) : ofCivil c = d := by
  have number := number_ofCivil within.month.1 within.month.2
  have day := within.day
  have same : (ofCivil c).number = d.number := by omega
  exact congrArg Day.mk same

/-- A date that lies within a day exists. -/
theorem civil_exists (within : d.Within c) : c.Exists where
  month := within.month
  day := by
    have length := monthStart_months_succ within.month.1 within.month.2
    have := within.begun
    have := within.left
    have := within.day
    omega

end Within

/-- **Every day has a date that exists.** -/
theorem exists_civil (d : Day) : d.civil.Exists := d.within_civil.civil_exists

/-- **A date is read back as the day that it was written for.** -/
theorem ofCivil_civil (d : Day) : ofCivil d.civil = d := d.within_civil.ofCivil_eq

/-! ## Dates in order -/

namespace Civil

/-- The date after a date that exists exists. -/
theorem Exists.next (is : c.Exists) : c.next.Exists := by
  obtain ⟨⟨first, final⟩, least, most⟩ := is
  unfold Civil.next
  split_ifs with inside inYear
  · exact ⟨⟨first, final⟩, Nat.le_add_left .., inside⟩
  · exact ⟨⟨Nat.le_add_left .., inYear⟩, le_rfl, one_le_monthLength ..⟩
  · exact ⟨⟨le_rfl, show 1 ≤ 12 by decide⟩, le_rfl, one_le_monthLength ..⟩

/-- Of two dates that differ one comes before the other. -/
theorem before_or_eq_or_before (c e : Civil) : c.Before e ∨ c = e ∨ e.Before c := by
  obtain ⟨year, month, day⟩ := c
  obtain ⟨year', month', day'⟩ := e
  simp only [Before, mk.injEq]
  omega

end Civil

/-- **The day of the next date is the next day.** -/
theorem ofCivil_next (is : c.Exists) : ofCivil c.next = (ofCivil c).next := by
  have here := number_ofCivil is.month.1 is.month.2
  have there := number_ofCivil is.next.month.1 is.next.month.2
  have length := monthStart_months_succ is.month.1 is.month.2
  have least := is.day.1
  have most := is.day.2
  have final := is.month.2
  suffices same : (ofCivil c.next).number = (ofCivil c).number + 1 from congrArg Day.mk same
  rw [there, here]
  unfold Civil.next
  split_ifs with inside inYear
  · simp only [Civil.months]
    omega
  · have after : Civil.months ⟨c.year, c.month + 1, 1⟩ = c.months + 1 := by
      simp only [Civil.months]
      omega
    rw [after, length]
    dsimp only
    omega
  · have after : Civil.months ⟨c.year + 1, 1, 1⟩ = c.months + 1 := by
      simp only [Civil.months]
      omega
    rw [after, length]
    dsimp only
    omega

/-- **An earlier date is an earlier day.** -/
theorem number_ofCivil_lt (is : c.Exists) (there : e.Exists) (before : c.Before e) :
    (ofCivil c).number < (ofCivil e).number := by
  have first := is.month
  have second := there.month
  rw [number_ofCivil first.1 first.2, number_ofCivil second.1 second.2]
  by_cases same : c.months = e.months
  · have day : c.day < e.day := by
      unfold Civil.months at same
      unfold Civil.Before at before
      omega
    rw [same]
    omega
  · have later : c.months + 1 ≤ e.months := by
      unfold Civil.months at same ⊢
      unfold Civil.Before at before
      omega
    have starts := monthStart_mono later
    have length := monthStart_months_succ first.1 first.2
    have := is.day
    have := there.day
    omega

/-- No two dates that exist are of one day. -/
theorem ofCivil_inj (is : c.Exists) (there : e.Exists) (same : ofCivil c = ofCivil e) : c = e := by
  rcases c.before_or_eq_or_before e with before | equal | before
  · exact absurd (congrArg Day.number same) (number_ofCivil_lt is there before).ne
  · exact equal
  · exact absurd (congrArg Day.number same) (number_ofCivil_lt there is before).ne'

/-- **A date that exists is the date of its day.** -/
theorem civil_ofCivil (is : c.Exists) : (ofCivil c).civil = c :=
  ofCivil_inj (exists_civil _) is (ofCivil_civil _)

/-- The count of the days begins with the first of January 1970. -/
theorem civil_zero : civil ⟨0⟩ = ⟨1970, 1, 1⟩ := by decide

/-- **The date of the next day is the next date.** -/
theorem civil_next (d : Day) : d.next.civil = d.civil.next := by
  rw [← civil_ofCivil d.exists_civil.next, ofCivil_next d.exists_civil, ofCivil_civil]

/-- The leap day of a year that 4 divides and 100 does not. -/
example : (ofCivil ⟨2024, 2, 29⟩).next.civil = ⟨2024, 3, 1⟩ := by decide

/-- **The order of days is the order of their dates.** -/
theorem before_civil_iff (d e : Day) : d.civil.Before e.civil ↔ d.number < e.number := by
  have forward : ∀ d e : Day, d.civil.Before e.civil → d.number < e.number := by
    intro d e before
    have := number_ofCivil_lt d.exists_civil e.exists_civil before
    rwa [ofCivil_civil, ofCivil_civil] at this
  refine ⟨forward d e, fun less => ?_⟩
  rcases d.civil.before_or_eq_or_before e.civil with before | same | before
  · exact before
  · have : d = e := by rw [← ofCivil_civil d, same, ofCivil_civil]
    exact absurd less (by rw [this]; exact lt_irrefl _)
  · exact absurd (forward e d before) (lt_asymm less)

end Day
end NotificationRelay
