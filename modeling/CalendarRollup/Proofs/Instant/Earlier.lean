import CalendarRollup.Proofs.Instant.Months

/-! Going back from an instant. Seconds are counted on the line of nanoseconds, months on the
calendar; in both ways only what lies before the first instant cannot be reached. -/
namespace CalendarRollup

namespace Date

/-- The same day of the month `months` months earlier, or the last day of a month that is too
short for it. -/
structure MonthsEarlier (months : Nat) (d e : Date) : Prop where
  month_range : 1 ≤ e.month ∧ e.month ≤ 12
  months : e.year * 12 + e.month + months = d.year * 12 + d.month
  day : e.day = d.day ∧ d.day ≤ daysInMonth e.year e.month ∨
    e.day = daysInMonth e.year e.month ∧ daysInMonth e.year e.month < d.day

section MonthsEarlier
variable {months : Nat} {d e : Date}

theorem day_monthsBefore : (d.monthsBefore months).day =
    min d.day (daysInMonth (d.monthsBefore months).year (d.monthsBefore months).month) := rfl

theorem months_monthsBefore :
    1 ≤ (d.monthsBefore months).month ∧ (d.monthsBefore months).month ≤ 12 ∧
      (d.monthsBefore months).year * 12 + (d.monthsBefore months).month + months =
        d.year * 12 + d.month := by
  simp only [monthsBefore]
  omega

theorem monthsEarlier_iff :
    MonthsEarlier months d e ↔ e = d.monthsBefore months := by
  obtain ⟨hfirst, hlast, hmonths⟩ := @months_monthsBefore months d
  have hday := @day_monthsBefore months d
  constructor
  · rintro ⟨hrange, hmonths', hday'⟩
    have hyear : e.year = (d.monthsBefore months).year := by omega
    have hmonth : e.month = (d.monthsBefore months).month := by omega
    rw [← hyear, ← hmonth] at hday
    have hsame : e.day = (d.monthsBefore months).day := by omega
    calc e = ⟨e.year, e.month, e.day⟩ := rfl
      _ = d.monthsBefore months := by rw [hyear, hmonth, hsame]
  · rintro rfl
    exact ⟨⟨hfirst, hlast⟩, hmonths, by omega⟩

theorem isValid_monthsBefore (valid : d.IsValid) : (d.monthsBefore months).IsValid := by
  obtain ⟨hfirst, hlast, _⟩ := @months_monthsBefore months d
  have hday := @day_monthsBefore months d
  have hpos := daysInMonth_pos (d.monthsBefore months).year (d.monthsBefore months).month
  have hday' := valid.2.2.1
  exact ⟨hfirst, hlast, by omega, by omega⟩

theorem not_before_monthsBefore (valid : d.IsValid) : ¬ d.Before (d.monthsBefore months) := by
  obtain ⟨hfirst, hlast, hmonths⟩ := @months_monthsBefore months d
  obtain ⟨hfirst', hlast', _⟩ := valid
  have hday := @day_monthsBefore months d
  simp only [Before]
  omega

end MonthsEarlier
end Date

namespace Instant

/-- Nanoseconds since 1970-01-01. Those of a leap second go on into the next second. -/
def toNanos (t : Instant) : Int := t.seconds * secondNanos + t.nano

/-- The first instant there is. -/
def earliest : Instant := ⟨minSeconds, 0, by decide⟩

/-- The last second there is. -/
def latest : Instant := ⟨maxSeconds, 0, by decide⟩

theorem seconds_eq_date (t : Instant) :
    t.seconds = t.date.toDays * daySeconds + t.seconds % daySeconds := by
  simp only [date, Date.toDays_ofDays, daySeconds]
  omega

theorem date_earliest : earliest.date = ⟨-262143, 1, 1⟩ := by decide

theorem toDays_earliest : earliest.date.toDays = -96465292 := by decide

theorem date_latest : latest.date = ⟨262142, 12, 31⟩ := by decide

section
variable {t r : Instant} {n : Nat}

theorem isValid_date (t : Instant) : t.date.IsValid := Date.isValid_ofDays _

theorem not_lt_earliest (t : Instant) : ¬ t < earliest := by
  obtain ⟨hleast, _⟩ := t.inRange
  have hseconds : earliest.seconds = minSeconds := rfl
  have hnano : earliest.nano = 0 := rfl
  change ¬(t.seconds < earliest.seconds ∨ t.seconds = earliest.seconds ∧ t.nano < earliest.nano)
  omega

theorem not_latest_before (t : Instant) : ¬ latest.date.Before t.date := by
  rw [← Date.toDays_lt_iff latest.isValid_date t.isValid_date]
  obtain ⟨_, hmost, _⟩ := t.inRange
  have ht := t.seconds_eq_date
  have hlast : latest.date.toDays = 95026236 := by decide
  simp only [maxSeconds, daySeconds] at *
  omega

theorem date_eq_of_seconds {d : Date} (valid : d.IsValid) {second : Int}
    (within : 0 ≤ second ∧ second < daySeconds)
    (seconds : t.seconds = d.toDays * daySeconds + second) : t.date = d := by
  have hday : t.seconds / daySeconds = d.toDays := by
    unfold daySeconds at *
    omega
  rw [date, hday, Date.ofDays_toDays valid]

/-- The second of the day, and the nanoseconds after it began. -/
def timeOfDay (t : Instant) : Int × Nat := (t.seconds % daySeconds, t.nano)

theorem timeOfDay_eq_iff : r.timeOfDay = t.timeOfDay ↔
    r.seconds % daySeconds = t.seconds % daySeconds ∧ r.nano = t.nano :=
  Prod.mk.injEq .. ▸ Iff.rfl

theorem ofSeconds?_eq_none_iff {seconds : Int} {nano : Nat} :
    ofSeconds? seconds nano = none ↔ ¬ InRange seconds nano := by
  simp [ofSeconds?]

/-- Going back by months keeps the time of day. -/
theorem monthsBefore?_eq_some_iff : t.monthsBefore? n = some r ↔
    r.date = t.date.monthsBefore n ∧ r.timeOfDay = t.timeOfDay := by
  have hvalid := @Date.isValid_monthsBefore n t.date t.isValid_date
  have hwithin : 0 ≤ t.seconds % daySeconds ∧ t.seconds % daySeconds < daySeconds := by
    unfold daySeconds
    omega
  rw [monthsBefore?, ofSeconds?_eq_some_iff, timeOfDay_eq_iff]
  constructor
  · rintro ⟨hseconds, hnano⟩
    refine ⟨date_eq_of_seconds hvalid hwithin hseconds, ?_, hnano⟩
    rw [hseconds]
    unfold daySeconds
    omega
  · rintro ⟨hdate, hsecond, hnano⟩
    refine ⟨?_, hnano⟩
    rw [← hdate, ← hsecond]
    exact r.seconds_eq_date

/-- Only dates before the first one cannot be reached by months. -/
theorem monthsBefore?_eq_none_iff : t.monthsBefore? n = none ↔
    (t.date.monthsBefore n).Before earliest.date := by
  have hvalid := @Date.isValid_monthsBefore n t.date t.isValid_date
  have hback := @Date.not_before_monthsBefore n t.date t.isValid_date
  rw [← Date.toDays_lt_iff t.isValid_date hvalid] at hback
  rw [monthsBefore?, ofSeconds?_eq_none_iff, ← Date.toDays_lt_iff hvalid earliest.isValid_date]
  have ht := t.seconds_eq_date
  obtain ⟨_, hmost, hnano⟩ := t.inRange
  rw [toDays_earliest]
  simp only [InRange, minSeconds, daySeconds] at *
  omega

theorem secondsBefore?_zero (t : Instant) : t.secondsBefore? 0 = some t := rfl

theorem isLeapSecond_eq_false_iff : t.isLeapSecond = false ↔ t.nano < secondNanos := by
  simp [isLeapSecond]

/-- Going back by seconds is exact to the nanosecond, and leaves a leap second. -/
theorem secondsBefore?_eq_some_iff (pos : 0 < n) : t.secondsBefore? n = some r ↔
    r.isLeapSecond = false ∧ r.toNanos = t.toNanos - n * secondNanos := by
  obtain ⟨_, _, hnano⟩ := t.inRange
  rw [secondsBefore?, if_neg (by omega), isLeapSecond_eq_false_iff]
  cases hleap : t.isLeapSecond with
  | false =>
    rw [isLeapSecond_eq_false_iff] at hleap
    rw [if_neg Bool.false_ne_true, ofSeconds?_eq_some_iff]
    simp only [toNanos, secondNanos] at *
    omega
  | true =>
    rw [isLeapSecond, decide_eq_true_eq] at hleap
    rw [if_pos rfl, ofSeconds?_eq_some_iff]
    simp only [toNanos, secondNanos] at *
    omega

/-- Only what lies before the first instant cannot be reached by seconds. -/
theorem secondsBefore?_eq_none_iff (pos : 0 < n) : t.secondsBefore? n = none ↔
    t.toNanos - n * secondNanos < earliest.toNanos := by
  obtain ⟨_, hmost, hnano⟩ := t.inRange
  rw [secondsBefore?, if_neg (by omega)]
  cases hleap : t.isLeapSecond with
  | false =>
    rw [isLeapSecond_eq_false_iff] at hleap
    rw [if_neg Bool.false_ne_true, ofSeconds?_eq_none_iff]
    simp only [toNanos, earliest, InRange, minSeconds, secondNanos] at *
    omega
  | true =>
    rw [isLeapSecond, decide_eq_true_eq] at hleap
    rw [if_pos rfl, ofSeconds?_eq_none_iff]
    simp only [toNanos, earliest, InRange, minSeconds, secondNanos] at *
    omega

end
end Instant
end CalendarRollup
