/-!
# Points in time

A timestamp is a date of the proleptic Gregorian calendar and a time of day, both in UTC, down to
the nanosecond. A second may be numbered 60: a leap second, which follows second 59 of its minute.
The calendar begins with the year -262143 and ends with the year 262142.

In text a timestamp is `YYYY-MM-DDThh:mm:ss`, a fraction if there is one, and `Z`. The fraction
has three, six or nine digits, the fewest that lose nothing. A year outside `0000` to `9999`
carries a sign.

## Main definitions

* `Date`, `TimeOfDay`, `Timestamp`
* `Timestamp.text`
* `Timestamp.ofUnixMillis`, `Timestamp.ofLocal?`, `Timestamp.nanosecondsSince`
-/

namespace Reactive

/-! ### Dates -/

/-- Every fourth year is a leap year, except for three of four century years. -/
def isLeapYear (year : Int) : Bool :=
  year % 4 = 0 ∧ (year % 100 ≠ 0 ∨ year % 400 = 0)

/-- The number of days of a month. -/
def daysInMonth (year : Int) (month : Nat) : Nat :=
  if month = 2 then if isLeapYear year then 29 else 28
  else if month = 4 ∨ month = 6 ∨ month = 9 ∨ month = 11 then 30
  else 31

theorem daysInMonth_pos (year : Int) (month : Nat) : 1 ≤ daysInMonth year month := by
  unfold daysInMonth
  repeat' split
  all_goals omega

/-- A day of the calendar. -/
structure Date where
  year : Int
  month : Nat
  day : Nat
  year_ge : -262143 ≤ year
  year_le : year ≤ 262142
  month_pos : 1 ≤ month
  month_le : month ≤ 12
  day_pos : 1 ≤ day
  day_le : day ≤ daysInMonth year month
  deriving DecidableEq

namespace Date

/-- The date with these parts, if the calendar has it. -/
def ofParts? (year : Int) (month day : Nat) : Option Date :=
  if h : (-262143 ≤ year ∧ year ≤ 262142) ∧ (1 ≤ month ∧ month ≤ 12) ∧
      1 ≤ day ∧ day ≤ daysInMonth year month then
    some ⟨year, month, day, h.1.1, h.1.2, h.2.1.1, h.2.1.2, h.2.2.1, h.2.2.2⟩
  else none

theorem ofParts?_self (d : Date) : ofParts? d.year d.month d.day = some d := by
  simp [ofParts?, d.year_ge, d.year_le, d.month_pos, d.month_le, d.day_pos, d.day_le]

/-- The date with these parts, a part outside its range counting as the nearest one inside. -/
def clamp (year : Int) (month day : Nat) : Date :=
  let year' := max (-262143) (min year 262142)
  let month' := max 1 (min month 12)
  { year := year'
    month := month'
    day := max 1 (min day (daysInMonth year' month'))
    year_ge := by omega
    year_le := by omega
    month_pos := Nat.le_max_left _ _
    month_le := Nat.max_le.mpr ⟨by decide, Nat.min_le_right _ _⟩
    day_pos := Nat.le_max_left _ _
    day_le := Nat.max_le.mpr ⟨daysInMonth_pos _ _, Nat.min_le_right _ _⟩ }

/-- The number of a date, counted in days from 1 January 1970. Years are counted from March, so
that a leap day ends its year, and in cycles of 400 years, which all have 146097 days. -/
def toDays (d : Date) : Int :=
  let year := if d.month ≤ 2 then d.year - 1 else d.year
  let yearOfCycle := year % 400
  let monthFromMarch : Int := if d.month ≤ 2 then d.month + 9 else d.month - 3
  let dayOfYear := (153 * monthFromMarch + 2) / 5 + d.day - 1
  year / 400 * 146097 + (yearOfCycle * 365 + yearOfCycle / 4 - yearOfCycle / 100 + dayOfYear) -
    719468

/-- The date with a given number, the inverse of `toDays` within the calendar. -/
def ofDays (days : Int) : Date :=
  let shifted := days + 719468
  let dayOfCycle := shifted % 146097
  let yearOfCycle :=
    (dayOfCycle - dayOfCycle / 1460 + dayOfCycle / 36524 - dayOfCycle / 146096) / 365
  let dayOfYear := dayOfCycle - (365 * yearOfCycle + yearOfCycle / 4 - yearOfCycle / 100)
  let monthFromMarch := (5 * dayOfYear + 2) / 153
  let day := dayOfYear - (153 * monthFromMarch + 2) / 5 + 1
  let month := if monthFromMarch < 10 then monthFromMarch + 3 else monthFromMarch - 9
  let year := yearOfCycle + shifted / 146097 * 400
  clamp (if month ≤ 2 then year + 1 else year) month.toNat day.toNat

/-- The date with a given number, if it lies within the calendar. -/
def ofDays? (days : Int) : Option Date :=
  let date := ofDays days
  if date.toDays = days then some date else none

end Date

/-! ### Times of day -/

/-- A time of day, in UTC. Second 60 is a leap second. -/
structure TimeOfDay where
  hour : Nat
  minute : Nat
  second : Nat
  nanosecond : Nat
  hour_lt : hour < 24
  minute_lt : minute < 60
  second_le : second ≤ 60
  nanosecond_lt : nanosecond < 1000000000
  deriving DecidableEq

namespace TimeOfDay

/-- The time of day with these parts, if there is one. -/
def ofParts? (hour minute second nanosecond : Nat) : Option TimeOfDay :=
  if h : hour < 24 ∧ minute < 60 ∧ second ≤ 60 ∧ nanosecond < 1000000000 then
    some ⟨hour, minute, second, nanosecond, h.1, h.2.1, h.2.2.1, h.2.2.2⟩
  else none

theorem ofParts?_self (t : TimeOfDay) :
    ofParts? t.hour t.minute t.second t.nanosecond = some t := by
  simp [ofParts?, t.hour_lt, t.minute_lt, t.second_le, t.nanosecond_lt]

/-- The minute of the day. -/
def minuteOfDay (t : TimeOfDay) : Nat := t.hour * 60 + t.minute

/-- The second of the day. A leap second shares its number with the second before it. -/
def secondOfDay (t : TimeOfDay) : Nat := t.minuteOfDay * 60 + min t.second 59

/-- The nanoseconds past `secondOfDay`, a whole second more in a leap second. -/
def fraction (t : TimeOfDay) : Nat :=
  (if t.second = 60 then 1000000000 else 0) + t.nanosecond

/-- The same second of the hour, at another minute of the day. Whole days are left out. -/
def atMinute (t : TimeOfDay) (minute : Nat) : TimeOfDay :=
  { t with
    hour := minute / 60 % 24
    minute := minute % 60
    hour_lt := Nat.mod_lt _ (by decide)
    minute_lt := Nat.mod_lt _ (by decide) }

/-- The time of day a number of milliseconds after midnight. Whole days are left out. -/
def ofMillis (millis : Nat) : TimeOfDay where
  hour := millis / 3600000 % 24
  minute := millis / 60000 % 60
  second := millis / 1000 % 60
  nanosecond := millis % 1000 * 1000000
  hour_lt := Nat.mod_lt _ (by decide)
  minute_lt := Nat.mod_lt _ (by decide)
  second_le := Nat.le_of_lt (Nat.mod_lt _ (by decide))
  nanosecond_lt := by have := Nat.mod_lt millis (y := 1000) (by decide); omega

end TimeOfDay

/-! ### Timestamps -/

/-- A point in time, in UTC. -/
structure Timestamp where
  date : Date
  time : TimeOfDay
  deriving DecidableEq

namespace Timestamp

/-- The point a number of milliseconds after the start of 1970, or before it. Outside the calendar
the date is the nearest one inside. -/
def ofUnixMillis (millis : Int) : Timestamp :=
  ⟨Date.ofDays (millis / 86400000), TimeOfDay.ofMillis (millis % 86400000).toNat⟩

/-- The time from one point to another in nanoseconds. A leap second that lies between the two
times of day, the later included, is counted. -/
def nanosecondsSince (later earlier : Timestamp) : Int :=
  let days := later.date.toDays - earlier.date.toDays
  let second := later.time.secondOfDay
  let second' := earlier.time.secondOfDay
  let leap : Int :=
    if second' < second ∧ earlier.time.second = 60 then 1
    else if second < second' ∧ later.time.second = 60 then -1
    else 0
  (days * 86400 + second - second' + leap) * 1000000000 +
    (later.time.fraction - earlier.time.fraction)

/-- The decimal digits of a number, padded with zeros to a width. -/
def padded (width n : Nat) : List Char :=
  let digits := Nat.toDigits 10 n
  List.replicate (width - digits.length) '0' ++ digits

/-- A year in four digits, and with a sign and perhaps more digits if four do not hold it. -/
def yearDigits (year : Int) : List Char :=
  if 0 ≤ year ∧ year ≤ 9999 then padded 4 year.toNat
  else (if year < 0 then '-' else '+') :: padded 4 year.natAbs

/-- The fraction of a second: nothing, or a point and three, six or nine digits. -/
def fractionDigits (nanosecond : Nat) : List Char :=
  if nanosecond = 0 then []
  else if nanosecond % 1000000 = 0 then '.' :: padded 3 (nanosecond / 1000000)
  else if nanosecond % 1000 = 0 then '.' :: padded 6 (nanosecond / 1000)
  else '.' :: padded 9 nanosecond

/-- The text of a timestamp. -/
def text (t : Timestamp) : String :=
  String.ofList <|
    yearDigits t.date.year ++ '-' :: padded 2 t.date.month ++ '-' :: padded 2 t.date.day ++
      'T' :: padded 2 t.time.hour ++ ':' :: padded 2 t.time.minute ++
      ':' :: padded 2 t.time.second ++ fractionDigits t.time.nanosecond ++ ['Z']

/-- The point in UTC at which clocks with an offset, in minutes, show a local date and time. There
is none if it lies outside the calendar. -/
def ofLocal? (date : Date) (time : TimeOfDay) (offset : Int) : Option Timestamp :=
  let minute := time.minuteOfDay - offset
  let days := minute / 1440
  let date? := if days = 0 then some date else Date.ofDays? (date.toDays + days)
  date?.map fun date => ⟨date, time.atMinute (minute % 1440).toNat⟩

end Timestamp

end Reactive
