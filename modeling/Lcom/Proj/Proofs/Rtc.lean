/-
When `get_date` reads a time that existed.

The date-times of the clock are in order, and the clock of the library
is the one of the source (`rtc`), so what it has shown during a call is
an interval. The date read is put together from six times of it. As far
as a register of the date goes, its leading fields are at most those of
the time at which the next register is read; so the date is never later
than the last read (`mixed_le`), and the only question is whether it is
earlier than the first.
-/
import Lcom.Proj.Rtc

namespace Lcom.Proj

open Machine

-- =========================================================== the order

/-- The leading fields of a date as one number, each in a range wide
enough for it. -/
def Date.months (d : Date) : ℕ := d.year * 13 + d.month

def Date.days (d : Date) : ℕ := d.months * 32 + d.day

def Date.hours (d : Date) : ℕ := d.days * 24 + d.hour

def Date.minutes (d : Date) : ℕ := d.hours * 60 + d.minute

def Date.stamp (d : Date) : ℕ := d.minutes * 60 + d.second

section

variable {d e : Date}

/-- The order of dates is lexicographic. -/
theorem stamp_le_iff (hd : d.Valid) (he : e.Valid) :
    d.stamp ≤ e.stamp ↔ d.year < e.year ∨ d.year = e.year
      ∧ (d.month < e.month ∨ d.month = e.month
        ∧ (d.day < e.day ∨ d.day = e.day
          ∧ (d.hour < e.hour ∨ d.hour = e.hour
            ∧ (d.minute < e.minute ∨ d.minute = e.minute
              ∧ d.second ≤ e.second)))) := by
  have h1 := hd.month_le
  have h2 := he.month_le
  have h3 := hd.day_le.trans (daysIn_le _ _)
  have h4 := he.day_le.trans (daysIn_le _ _)
  have h5 := hd.hour
  have h6 := he.hour
  have h7 := hd.minute
  have h8 := he.minute
  have h9 := hd.second
  have h10 := he.second
  simp only [Date.stamp, Date.minutes, Date.hours, Date.days, Date.months]
  omega

theorem Date.Valid.day_lt (h : d.Valid) : d.day < 32 :=
  Nat.lt_succ_of_le (h.day_le.trans (daysIn_le _ _))

theorem minutes_le (hd : d.Valid) (he : e.Valid) (h : d.stamp ≤ e.stamp) :
    d.minutes ≤ e.minutes := by
  have h1 := hd.second
  have h2 := he.second
  unfold Date.stamp at h
  omega

theorem hours_le (hd : d.Valid) (he : e.Valid) (h : d.stamp ≤ e.stamp) :
    d.hours ≤ e.hours := by
  have h1 := hd.minute
  have h2 := he.minute
  have hle := minutes_le hd he h
  unfold Date.minutes at hle
  omega

theorem days_le (hd : d.Valid) (he : e.Valid) (h : d.stamp ≤ e.stamp) :
    d.days ≤ e.days := by
  have h1 := hd.hour
  have h2 := he.hour
  have hle := hours_le hd he h
  unfold Date.hours at hle
  omega

theorem months_le (hd : d.Valid) (he : e.Valid) (h : d.stamp ≤ e.stamp) :
    d.months ≤ e.months := by
  have h1 := hd.day_lt
  have h2 := he.day_lt
  have hle := days_le hd he h
  unfold Date.days at hle
  omega

theorem year_le (hd : d.Valid) (he : e.Valid) (h : d.stamp ≤ e.stamp) :
    d.year ≤ e.year := by
  have h1 := hd.month_le
  have h2 := he.month_le
  have hle := months_le hd he h
  unfold Date.months at hle
  omega

theorem year_month_eq (hd : d.Valid) (he : e.Valid)
    (h : d.months = e.months) : d.year = e.year ∧ d.month = e.month := by
  have h1 := hd.month_le
  have h2 := he.month_le
  unfold Date.months at h
  omega

/-- The number of a date determines it. -/
theorem stamp_injective (hd : d.Valid) (he : e.Valid)
    (h : d.stamp = e.stamp) : d = e := by
  have hle := h.le
  have hge := h.ge
  have hmin := le_antisymm (minutes_le hd he hle) (minutes_le he hd hge)
  have hhour := le_antisymm (hours_le hd he hle) (hours_le he hd hge)
  have hday := le_antisymm (days_le hd he hle) (days_le he hd hge)
  have hmonth := le_antisymm (months_le hd he hle) (months_le he hd hge)
  obtain ⟨hy, hm⟩ := year_month_eq hd he hmonth
  obtain ⟨day, month, year, hour, minute, second⟩ := d
  obtain ⟨day', month', year', hour', minute', second'⟩ := e
  simp only [Date.stamp, Date.minutes, Date.hours, Date.days] at *
  simp only [Date.mk.injEq]
  omega

-- =========================================================== the clock

/-- After the last second of a month come the later months. -/
theorem monthEnd_lt_iff (hd : d.Valid) (he : e.Valid)
    (hday : d.day = daysIn d.year d.month) (hhour : d.hour = 23)
    (hminute : d.minute = 59) (hsecond : d.second = 59) :
    d.stamp < e.stamp ↔ d.months < e.months := by
  have h1 := hd.day_lt
  have h2 := he.day_lt
  have h3 := he.hour
  have h4 := he.minute
  have h5 := he.second
  rcases lt_trichotomy d.months e.months with hlt | heq | hgt
  · refine iff_of_true ?_ hlt
    unfold Date.stamp Date.minutes Date.hours Date.days
    omega
  · -- the same month: its last second is over
    refine iff_of_false ?_ (by omega)
    obtain ⟨hy, hm⟩ := year_month_eq hd he heq
    have hle := he.day_le
    rw [← hy, ← hm, ← hday] at hle
    unfold Date.stamp Date.minutes Date.hours Date.days
    omega
  · refine iff_of_false ?_ (by omega)
    unfold Date.stamp Date.minutes Date.hours Date.days
    omega

/-- From the first second of a month on come the month and the later
ones. -/
theorem monthStart_le_iff (he : e.Valid) (year month : ℕ) :
    Date.stamp { year, month, day := 1, hour := 0, minute := 0, second := 0 }
        ≤ e.stamp
      ↔ year * 13 + month ≤ e.months := by
  have h1 := he.day_lt
  have h2 := he.day_pos
  have h3 := he.hour
  have h4 := he.minute
  have h5 := he.second
  simp only [Date.stamp, Date.minutes, Date.hours, Date.days]
  simp only [Date.months]
  omega

/-- Within a month the clock counts by one. -/
theorem stamp_next (hd : d.Valid)
    (h : d.second < 59 ∨ d.minute < 59 ∨ d.hour < 23
      ∨ d.day < daysIn d.year d.month) : d.next.stamp = d.stamp + 1 := by
  have h1 := hd.hour
  have h2 := hd.minute
  have h3 := hd.second
  unfold Date.next
  split_ifs
  all_goals
    simp only [Date.stamp, Date.minutes, Date.hours, Date.days, Date.months]
    omega

/-- A date-time at the end of its month, year and century is the last. -/
theorem eq_centuryEnd (hd : d.Valid) (hyear : 99 ≤ d.year)
    (hmonth : 12 ≤ d.month) (hday : daysIn d.year d.month ≤ d.day)
    (hhour : 23 ≤ d.hour) (hminute : 59 ≤ d.minute)
    (hsecond : 59 ≤ d.second) : d = centuryEnd.val := by
  obtain ⟨day, month, year, hour, minute, second⟩ := d
  obtain ⟨h1, -, h2, -, h3, h4, h5, h6⟩ := hd
  dsimp only at *
  obtain rfl : year = 99 := by omega
  obtain rfl : month = 12 := by omega
  have h31 : daysIn 99 12 = 31 := rfl
  rw [h31] at hday h3
  obtain rfl : day = 31 := by omega
  obtain rfl : hour = 23 := by omega
  obtain rfl : minute = 59 := by omega
  obtain rfl : second = 59 := by omega
  rfl

/-- No date-time lies between one and the next. -/
theorem stamp_lt_iff (hd : d.Valid) (he : e.Valid)
    (hne : d ≠ centuryEnd.val) :
    d.stamp < e.stamp ↔ d.next.stamp ≤ e.stamp := by
  by_cases h : d.second < 59 ∨ d.minute < 59 ∨ d.hour < 23
      ∨ d.day < daysIn d.year d.month
  · rw [stamp_next hd h]
    exact Nat.lt_iff_add_one_le
  · simp only [not_or, not_lt] at h
    obtain ⟨hsecond, hminute, hhour, hday⟩ := h
    rw [monthEnd_lt_iff hd he (le_antisymm hd.day_le hday)
      (by have := hd.hour; omega) (by have := hd.minute; omega)
      (by have := hd.second; omega)]
    unfold Date.next
    rw [if_neg (by omega), if_neg (by omega), if_neg (by omega),
      if_neg (by omega)]
    by_cases hmonth : d.month < 12
    · rw [if_pos hmonth, monthStart_le_iff he]
      unfold Date.months
      omega
    · have hyear : d.year < 99 := by
        by_contra hyear
        exact hne (eq_centuryEnd hd (not_lt.1 hyear) (not_lt.1 hmonth) hday
          hhour hminute hsecond)
      rw [if_neg hmonth, if_pos hyear, monthStart_le_iff he]
      have h1 := he.month_pos
      have h2 := he.month_le
      have h3 := hd.month_le
      unfold Date.months
      omega

end

theorem centuryStart_le (t : DateTime) :
    centuryStart.val.stamp ≤ t.val.stamp := by
  refine (monthStart_le_iff t.property 0 1).2 ?_
  have h := t.property.month_pos
  unfold Date.months
  omega

theorem le_centuryEnd (t : DateTime) :
    t.val.stamp ≤ centuryEnd.val.stamp := by
  have h1 := t.property.year
  have h2 := t.property.month_le
  have h3 := t.property.day_lt
  have h4 := t.property.hour
  have h5 := t.property.minute
  have h6 := t.property.second
  simp only [Date.stamp, Date.minutes, Date.hours, Date.days, Date.months,
    centuryEnd]
  omega

/-- The clock of the computer. -/
def rtc : Clock DateTime where
  next := DateTime.next
  rank := fun t => t.val.stamp
  first := centuryStart
  last := centuryEnd
  rank_injective := fun t u h =>
    Subtype.ext (stamp_injective t.property u.property h)
  first_le := centuryStart_le
  le_last := le_centuryEnd
  next_last := rfl
  lt_iff := fun t ht u => stamp_lt_iff t.property u.property fun h =>
    ht (Subtype.ext h)

-- ========================================================== the reading

/-- Decoding undoes the encoding. -/
theorem convertBcdToDec_bcd {n : ℕ} (h : n < 100) :
    convertBcdToDec (bcd n) = n := by
  have hall : ∀ n : Fin 100, convertBcdToDec (bcd n.val) = n.val := by
    decide
  exact hall ⟨n, h⟩

namespace Reading

variable (r : Reading)

/-- The date put together from the six reads. -/
def mixed : Date :=
  { year := r.start.val.year
    month := r.atMonth.val.month
    day := r.atDay.val.day
    hour := r.atHour.val.hour
    minute := r.atMinute.val.minute
    second := r.atSecond.val.second }

theorem getDate_reads : getDate r.reads = r.mixed := by
  have h1 := r.start.property.year
  have h2 := r.atMonth.property.month_le
  have h3 := r.atDay.property.day_lt
  have h4 := r.atHour.property.hour
  have h5 := r.atMinute.property.minute
  have h6 := r.atSecond.property.second
  simp only [getDate, reads, mixed, Option.getD_some, Date.mk.injEq]
  refine ⟨?_, ?_, ?_, ?_, ?_, ?_⟩ <;> exact convertBcdToDec_bcd (by omega)

/-- The date is valid if its day is one of its month. -/
theorem mixed_valid
    (h : r.atDay.val.day ≤ daysIn r.start.val.year r.atMonth.val.month) :
    r.mixed.Valid where
  year := r.start.property.year
  month_pos := r.atMonth.property.month_pos
  month_le := r.atMonth.property.month_le
  day_pos := r.atDay.property.day_pos
  day_le := h
  hour := r.atHour.property.hour
  minute := r.atMinute.property.minute
  second := r.atSecond.property.second

/-- The clock's time at the last read. -/
theorem after_steps : rtc.after r.start r.steps = r.atSecond := by
  unfold steps
  rw [rtc.after_add, rtc.after_add, rtc.after_add, rtc.after_add]
  rfl

theorem centuries_eq : r.centuries = rtc.turns r.start r.steps := rfl

/-- Within one century the clock's times at the six reads go up. -/
theorem reads_ascend (h : r.centuries = 0) :
    r.start.val.stamp ≤ r.atMonth.val.stamp
      ∧ r.atMonth.val.stamp ≤ r.atDay.val.stamp
      ∧ r.atDay.val.stamp ≤ r.atHour.val.stamp
      ∧ r.atHour.val.stamp ≤ r.atMinute.val.stamp
      ∧ r.atMinute.val.stamp ≤ r.atSecond.val.stamp := by
  rw [centuries_eq, steps] at h
  simp only [rtc.turns_add, rtc.after_add, Nat.add_eq_zero_iff] at h
  obtain ⟨⟨⟨⟨hmonth, hday⟩, hhour⟩, hminute⟩, hsecond⟩ := h
  exact ⟨rtc.rank_le_after hmonth, rtc.rank_le_after hday,
    rtc.rank_le_after hhour, rtc.rank_le_after hminute,
    rtc.rank_le_after hsecond⟩

/-- Within one century the date is never later than the last read: up to
each field it is at most the time at which that field was read. -/
theorem mixed_le (h : r.centuries = 0) :
    r.mixed.stamp ≤ r.atSecond.val.stamp := by
  obtain ⟨h1, h2, h3, h4, h5⟩ := r.reads_ascend h
  have hyear := year_le r.start.property r.atMonth.property h1
  have hmonths : r.mixed.months ≤ r.atMonth.val.months := by
    simp only [Date.months, mixed]
    omega
  have hdays : r.mixed.days ≤ r.atDay.val.days := by
    have hnext := months_le r.atMonth.property r.atDay.property h2
    simp only [Date.days]
    simp only [mixed] at hmonths ⊢
    omega
  have hhours : r.mixed.hours ≤ r.atHour.val.hours := by
    have hnext := days_le r.atDay.property r.atHour.property h3
    simp only [Date.hours]
    simp only [mixed] at hdays ⊢
    omega
  have hminutes : r.mixed.minutes ≤ r.atMinute.val.minutes := by
    have hnext := hours_le r.atHour.property r.atMinute.property h4
    simp only [Date.minutes]
    simp only [mixed] at hhours ⊢
    omega
  have hnext := minutes_le r.atMinute.property r.atSecond.property h5
  simp only [Date.stamp]
  simp only [mixed] at hminutes ⊢
  omega

theorem goesUp_iff (h : r.mixed.Valid) :
    r.start.val.stamp ≤ r.mixed.stamp ↔ r.GoesUp := by
  rw [stamp_le_iff r.start.property h]
  simp [mixed, GoesUp]

theorem endsUp_iff (h : r.mixed.Valid) :
    r.mixed.stamp ≤ r.atSecond.val.stamp ↔ r.EndsUp := by
  rw [stamp_le_iff h r.atSecond.property]
  simp [mixed, EndsUp, le_iff_lt_or_eq]

/-- The date read is one the clock showed during the call if and only if
it was not torn. -/
theorem existed_iff : r.Existed ↔ r.Untorn := by
  have hheld : r.Existed ↔ ∃ h : r.mixed.Valid,
      rtc.Held r.start r.steps ⟨r.mixed, h⟩ := by
    unfold Existed
    rw [getDate_reads]
    constructor
    · rintro ⟨k, hk, hshown⟩
      exact ⟨hshown ▸ (DateTime.next^[k] r.start).property, k, hk,
        Subtype.ext hshown⟩
    · rintro ⟨h, k, hk, hshown⟩
      exact ⟨k, hk, congrArg Subtype.val hshown⟩
  rw [hheld]
  constructor
  · rintro ⟨hvalid, hshown⟩
    rw [rtc.held_iff_shown, Clock.Shown, after_steps, ← centuries_eq]
      at hshown
    refine ⟨hvalid.day_le, ?_⟩
    rcases hshown with ⟨hup, -⟩ | ⟨hone, hend⟩ | htwo
    · exact .inl ((r.goesUp_iff hvalid).1 hup)
    · exact .inr (.inl ⟨hone, (r.endsUp_iff hvalid).1 hend⟩)
    · exact .inr (.inr htwo)
  · rintro ⟨hday, hup⟩
    have hvalid := r.mixed_valid hday
    refine ⟨hvalid, ?_⟩
    rw [rtc.held_iff_shown, Clock.Shown, after_steps, ← centuries_eq]
    rcases hup with hup | ⟨hone, hend⟩ | htwo
    · exact .inl ⟨(r.goesUp_iff hvalid).2 hup, fun h => r.mixed_le h⟩
    · exact .inr (.inl ⟨hone, (r.endsUp_iff hvalid).2 hend⟩)
    · exact .inr (.inr htwo)

end Reading

/-- New Year's Eve, one second to midnight, and one step of the clock
before the month is read. -/
def newYear : Reading :=
  { start := ⟨{ year := 22, month := 12, day := 31, hour := 23, minute := 59
                second := 59 }, by constructor <;> decide⟩
    toMonth := 1, toDay := 0, toHour := 0, toMinute := 0, toSecond := 0 }

/-- The date read is a year behind. -/
theorem newYear_torn :
    getDate newYear.reads = { year := 22, month := 1, day := 1, hour := 0
                              minute := 0, second := 0 }
      ∧ ¬newYear.Existed := by
  refine ⟨by decide, ?_⟩
  rintro ⟨k, hk, hshown⟩
  have hsteps : newYear.steps = 1 := rfl
  rw [hsteps] at hk
  interval_cases k
  · exact absurd hshown (by decide)
  · exact absurd hshown (by decide)

end Lcom.Proj
