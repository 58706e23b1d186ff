/-
The real-time clock and `get_date` (proj/src/rtc.c).

The clock steps through the valid date-times, second by second, with a
year of two digits that starts over after 99 and a leap year every
fourth. Its registers hold the fields in BCD.

`get_date` reads six registers one after the other and decodes them when
it has them all; a failing read leaves the zero its variable was
initialised with. The clock runs on meanwhile: `Reading` is a time to
start from and how many steps the clock takes before each further read.
-/
import Lcom.Machine.Clock

namespace Lcom.Proj

-- ========================================================== date-times

/-- `struct Date`. -/
structure Date where
  day : ℕ
  month : ℕ
  year : ℕ
  hour : ℕ
  minute : ℕ
  second : ℕ
  deriving DecidableEq, Repr

/-- The length of a month. -/
def daysIn (year month : ℕ) : ℕ :=
  if month = 2 then if year % 4 = 0 then 29 else 28
  else if month = 4 ∨ month = 6 ∨ month = 9 ∨ month = 11 then 30
  else 31

/-- The date-times a clock can show. -/
structure Date.Valid (d : Date) : Prop where
  year : d.year < 100
  month_pos : 1 ≤ d.month
  month_le : d.month ≤ 12
  day_pos : 1 ≤ d.day
  day_le : d.day ≤ daysIn d.year d.month
  hour : d.hour < 24
  minute : d.minute < 60
  second : d.second < 60

/-- One second later. -/
def Date.next (d : Date) : Date :=
  if d.second < 59 then { d with second := d.second + 1 }
  else if d.minute < 59 then { d with minute := d.minute + 1, second := 0 }
  else if d.hour < 23 then
    { d with hour := d.hour + 1, minute := 0, second := 0 }
  else if d.day < daysIn d.year d.month then
    { d with day := d.day + 1, hour := 0, minute := 0, second := 0 }
  else if d.month < 12 then
    { year := d.year, month := d.month + 1, day := 1
      hour := 0, minute := 0, second := 0 }
  else if d.year < 99 then
    { year := d.year + 1, month := 1, day := 1
      hour := 0, minute := 0, second := 0 }
  else
    { year := 0, month := 1, day := 1, hour := 0, minute := 0, second := 0 }

theorem daysIn_pos (year month : ℕ) : 1 ≤ daysIn year month := by
  unfold daysIn
  split_ifs <;> omega

theorem daysIn_le (year month : ℕ) : daysIn year month ≤ 31 := by
  unfold daysIn
  split_ifs <;> omega

/-- The clock shows valid date-times only. -/
theorem Date.Valid.next {d : Date} (h : d.Valid) : d.next.Valid := by
  obtain ⟨hyear, hmonth, hmonth', hday, hday', hhour, hminute, hsecond⟩ := h
  unfold Date.next
  split_ifs
  · exact ⟨hyear, hmonth, hmonth', hday, hday', hhour, hminute, by grind⟩
  · exact ⟨hyear, hmonth, hmonth', hday, hday', hhour, by grind, by grind⟩
  · exact ⟨hyear, hmonth, hmonth', hday, hday', by grind, by grind, by grind⟩
  · exact ⟨hyear, hmonth, hmonth', by grind, by grind, by grind, by grind,
      by grind⟩
  · exact ⟨hyear, by grind, by grind, le_refl 1, daysIn_pos _ _, by grind,
      by grind, by grind⟩
  · exact ⟨by grind, by grind, by grind, le_refl 1, daysIn_pos _ _, by grind,
      by grind, by grind⟩
  · exact ⟨by grind, by grind, by grind, le_refl 1, daysIn_pos _ _, by grind,
      by grind, by grind⟩

/-- A date-time of the clock. -/
abbrev DateTime := { d : Date // d.Valid }

/-- The second before the year starts over. -/
def centuryEnd : DateTime :=
  ⟨{ year := 99, month := 12, day := 31, hour := 23, minute := 59
     second := 59 }, by constructor <;> decide⟩

/-- The second after that. -/
def centuryStart : DateTime :=
  ⟨{ year := 0, month := 1, day := 1, hour := 0, minute := 0, second := 0 },
    by constructor <;> decide⟩

/-- One second later. -/
def DateTime.next (t : DateTime) : DateTime := ⟨t.val.next, t.property.next⟩

-- =========================================================== registers

/-- A number below 100 in BCD. -/
def bcd (n : ℕ) : UInt8 := UInt8.ofNat (16 * (n / 10) + n % 10)

/-- `convert_bcd_to_dec`. -/
def convertBcdToDec (bcd : UInt8) : ℕ :=
  ((bcd &&& 0xF0) >>> 4).toNat * 10 + (bcd &&& 0x0F).toNat

/-- What the six reads of `get_date` return, `none` where one fails. -/
structure RtcReads where
  year : Option UInt8
  month : Option UInt8
  day : Option UInt8
  hour : Option UInt8
  minute : Option UInt8
  second : Option UInt8

/-- `get_date`: the date it stores. -/
def getDate (r : RtcReads) : Date :=
  let year := r.year.getD 0
  let month := r.month.getD 0
  let day := r.day.getD 0
  let hour := r.hour.getD 0
  let minute := r.minute.getD 0
  let second := r.second.getD 0
  { year := convertBcdToDec year
    month := convertBcdToDec month
    day := convertBcdToDec day
    hour := convertBcdToDec hour
    minute := convertBcdToDec minute
    second := convertBcdToDec second }

-- ============================================================ a reading

/-- A call of `get_date` while the clock runs: the time at which it reads
the year, and the steps of the clock before each of the other reads. -/
structure Reading where
  start : DateTime
  toMonth : ℕ
  toDay : ℕ
  toHour : ℕ
  toMinute : ℕ
  toSecond : ℕ

namespace Reading

variable (r : Reading)

/-- The time at which the month is read. -/
def atMonth : DateTime := DateTime.next^[r.toMonth] r.start

/-- The time at which the day is read. -/
def atDay : DateTime := DateTime.next^[r.toDay] r.atMonth

/-- The time at which the hour is read. -/
def atHour : DateTime := DateTime.next^[r.toHour] r.atDay

/-- The time at which the minute is read. -/
def atMinute : DateTime := DateTime.next^[r.toMinute] r.atHour

/-- The time at which the second is read. -/
def atSecond : DateTime := DateTime.next^[r.toSecond] r.atMinute

/-- The steps of the clock during the call. -/
def steps : ℕ :=
  r.toMonth + r.toDay + r.toHour + r.toMinute + r.toSecond

/-- What the registers say. -/
def reads : RtcReads :=
  { year := some (bcd r.start.val.year)
    month := some (bcd r.atMonth.val.month)
    day := some (bcd r.atDay.val.day)
    hour := some (bcd r.atHour.val.hour)
    minute := some (bcd r.atMinute.val.minute)
    second := some (bcd r.atSecond.val.second) }

/-- The date stored is one the clock showed during the call. -/
def Existed : Prop :=
  ∃ k, k ≤ r.steps ∧ (DateTime.next^[k] r.start).val = getDate r.reads

/-- The registers read later than the year, against the time at which the
year was read: the first of them to differ has gone up. -/
def GoesUp : Prop :=
  r.start.val.month < r.atMonth.val.month
    ∨ r.start.val.month = r.atMonth.val.month
      ∧ (r.start.val.day < r.atDay.val.day
        ∨ r.start.val.day = r.atDay.val.day
          ∧ (r.start.val.hour < r.atHour.val.hour
            ∨ r.start.val.hour = r.atHour.val.hour
              ∧ (r.start.val.minute < r.atMinute.val.minute
                ∨ r.start.val.minute = r.atMinute.val.minute
                  ∧ r.start.val.second ≤ r.atSecond.val.second)))

/-- The registers read earlier than the second, against the time at which
the second is read: the first of them to differ is lower. -/
def EndsUp : Prop :=
  r.start.val.year < r.atSecond.val.year
    ∨ r.start.val.year = r.atSecond.val.year
      ∧ (r.atMonth.val.month < r.atSecond.val.month
        ∨ r.atMonth.val.month = r.atSecond.val.month
          ∧ (r.atDay.val.day < r.atSecond.val.day
            ∨ r.atDay.val.day = r.atSecond.val.day
              ∧ (r.atHour.val.hour < r.atSecond.val.hour
                ∨ r.atHour.val.hour = r.atSecond.val.hour
                  ∧ r.atMinute.val.minute ≤ r.atSecond.val.minute)))

/-- How often the year starts over during the call. -/
def centuries : ℕ :=
  (List.range r.steps).countP fun k =>
    decide (DateTime.next^[k] r.start = centuryEnd)

/-- The day read exists in the year and month read. And what is read has
gone up since the year was read; or the year has started over once, and
what is read, the year among it, is below the time at which the second is
read; or the year has started over more than once. -/
def Untorn : Prop :=
  r.atDay.val.day ≤ daysIn r.start.val.year r.atMonth.val.month
    ∧ (r.GoesUp ∨ (r.centuries = 1 ∧ r.EndsUp) ∨ 2 ≤ r.centuries)

end Reading

end Lcom.Proj
