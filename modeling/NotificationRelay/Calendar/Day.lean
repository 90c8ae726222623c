/-
# Days

A day is counted from the first of January 1970. A second belongs to the day that
contains it in universal time: the whole part of its quotient by 86400, rounded
down, so that the second before the epoch lies on day `-1`. Only the seconds of the
years from `-262143` to `262142` have a day. Years, months and days of the month
follow the Gregorian calendar, extended to all years; the count runs over eras of
400 years that begin on the first of March, so that the leap day ends its year.
-/

namespace NotificationRelay

/-- A calendar day, counted from the first of January 1970. -/
structure Day where
  number : Int
  deriving DecidableEq, Repr, Inhabited

/-- The first second that lies on a day. -/
def leastSecond : Int := -8334601228800

/-- The last second that lies on a day. -/
def greatestSecond : Int := 8210266876799

/-- Whether a second lies on a day. -/
def isRepresentable (seconds : Int) : Bool :=
  decide (leastSecond ≤ seconds) && decide (seconds ≤ greatestSecond)

namespace Day

/-- The day that contains a second, if one does. -/
def ofSeconds? (seconds : Int) : Option Day :=
  if isRepresentable seconds then some ⟨seconds / 86400⟩ else none

/-- The year, the month and the day of the month. -/
structure Civil where
  year : Int
  month : Nat
  day : Nat
  deriving DecidableEq, Repr, Inhabited

/-- The civil date of a day. -/
def civil (d : Day) : Civil :=
  let n := d.number + 719468
  let era := n / 146097
  let dayOfEra := n % 146097
  let yearOfEra := (dayOfEra - dayOfEra / 1460 + dayOfEra / 36524 - dayOfEra / 146096) / 365
  let dayOfYear := dayOfEra - (365 * yearOfEra + yearOfEra / 4 - yearOfEra / 100)
  let fromMarch := (5 * dayOfYear + 2) / 153
  let day := dayOfYear - (153 * fromMarch + 2) / 5 + 1
  let month := if fromMarch < 10 then fromMarch + 3 else fromMarch - 9
  let year := yearOfEra + era * 400
  ⟨if month ≤ 2 then year + 1 else year, month.toNat, day.toNat⟩

/-- The day of a civil date. -/
def ofCivil (c : Civil) : Day :=
  let year := if c.month ≤ 2 then c.year - 1 else c.year
  let era := year / 400
  let yearOfEra := year % 400
  let fromMarch : Int := if 2 < c.month then c.month - 3 else c.month + 9
  let dayOfYear := (153 * fromMarch + 2) / 5 + c.day - 1
  let dayOfEra := yearOfEra * 365 + yearOfEra / 4 - yearOfEra / 100 + dayOfYear
  ⟨era * 146097 + dayOfEra - 719468⟩

/-- A year with a leap day. -/
def isLeap (year : Int) : Bool := year % 4 == 0 && (year % 100 != 0 || year % 400 == 0)

/-- The number of days of a month. -/
def monthLength (year : Int) (month : Nat) : Nat :=
  if month = 2 then (if isLeap year then 29 else 28)
  else if month = 4 ∨ month = 6 ∨ month = 9 ∨ month = 11 then 30
  else 31

/-- The day of a civil date that exists and whose year is in the range of the calendar. -/
def ofCivil? (c : Civil) : Option Day :=
  if -262143 ≤ c.year ∧ c.year ≤ 262142 ∧ 1 ≤ c.month ∧ c.month ≤ 12
      ∧ 1 ≤ c.day ∧ c.day ≤ monthLength c.year c.month then
    some (ofCivil c)
  else none

end Day
end NotificationRelay
