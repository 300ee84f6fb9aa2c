set_option autoImplicit false

/-!
# Calendar: dates and times of day

Dates are those of the proleptic Gregorian calendar with years -262143 to 262142.  A time of day counts
nanoseconds; a leap second is the second before it with a whole second of nanoseconds more.  At the end of a
minute a clock shows a leap second as the second 60; elsewhere it shows the second after it.
-/

namespace RecordQuery

/-- Every fourth year has a leap day, except centuries not divisible by 400. -/
def isLeapYear (year : Int) : Bool :=
  year % 4 == 0 && (year % 100 != 0 || year % 400 == 0)

/-- Number of days of a month. -/
def daysInMonth (year : Int) (month : Nat) : Nat :=
  if month = 2 then (if isLeapYear year then 29 else 28)
  else if month = 4 ∨ month = 6 ∨ month = 9 ∨ month = 11 then 30
  else 31

/-- A calendar date. -/
structure Date where
  year : Int
  month : Nat
  day : Nat
  year_range : -262143 ≤ year ∧ year ≤ 262142
  month_range : 1 ≤ month ∧ month ≤ 12
  day_range : 1 ≤ day ∧ day ≤ daysInMonth year month
  deriving DecidableEq

namespace Date

/-- The first day of the year zero. -/
instance : Inhabited Date := ⟨⟨0, 1, 1, by decide, by decide, by decide⟩⟩

/-- The date with this year, month and day, if the calendar has it. -/
def of? (year : Int) (month day : Nat) : Option Date :=
  if h : (-262143 ≤ year ∧ year ≤ 262142) ∧ (1 ≤ month ∧ month ≤ 12) ∧
      1 ≤ day ∧ day ≤ daysInMonth year month then
    some ⟨year, month, day, h.1, h.2.1, h.2.2⟩
  else none

@[simp] theorem of?_fields (d : Date) : of? d.year d.month d.day = some d := by
  simp [of?, d.year_range, d.month_range, d.day_range]

/-- Earlier dates come first. -/
def compare (a b : Date) : Ordering :=
  (Ord.compare a.year b.year).then ((Ord.compare a.month b.month).then (Ord.compare a.day b.day))

end Date

/-- A time of day. -/
structure TimeOfDay where
  hour : Nat
  minute : Nat
  second : Nat
  nanosecond : Nat
  hour_lt : hour < 24
  minute_lt : minute < 60
  second_lt : second < 60
  nanosecond_lt : nanosecond < 2000000000
  deriving DecidableEq

namespace TimeOfDay

/-- The first moment of a day. -/
def midnight : TimeOfDay := ⟨0, 0, 0, 0, by decide, by decide, by decide, by decide⟩

instance : Inhabited TimeOfDay := ⟨midnight⟩

/-- The time with these parts, if they are in range. -/
def of? (hour minute second nanosecond : Nat) : Option TimeOfDay :=
  if h : hour < 24 ∧ minute < 60 ∧ second < 60 ∧ nanosecond < 2000000000 then
    some ⟨hour, minute, second, nanosecond, h.1, h.2.1, h.2.2.1, h.2.2.2⟩
  else none

@[simp] theorem of?_fields (t : TimeOfDay) : of? t.hour t.minute t.second t.nanosecond = some t := by
  simp only [of?]
  rw [dif_pos ⟨t.hour_lt, t.minute_lt, t.second_lt, t.nanosecond_lt⟩]

/-- The second as a clock shows it: a leap second is one more than the second before it. -/
def shownSecond (t : TimeOfDay) : Nat := t.second + t.nanosecond / 1000000000

/-- The nanoseconds within the shown second. -/
def shownNanosecond (t : TimeOfDay) : Nat := t.nanosecond % 1000000000

/-- Earlier times come first. -/
def compare (a b : TimeOfDay) : Ordering :=
  (Ord.compare a.hour b.hour).then ((Ord.compare a.minute b.minute).then
    ((Ord.compare a.second b.second).then (Ord.compare a.nanosecond b.nanosecond)))

end TimeOfDay

/-- A date and a time of day, without a zone. -/
structure DateTime where
  date : Date
  time : TimeOfDay
  deriving DecidableEq, Inhabited

namespace DateTime

/-- The first moment of a date. -/
def midnight (d : Date) : DateTime := ⟨d, .midnight⟩

/-- Earlier moments come first. -/
def compare (a b : DateTime) : Ordering := (a.date.compare b.date).then (a.time.compare b.time)

end DateTime

end RecordQuery
