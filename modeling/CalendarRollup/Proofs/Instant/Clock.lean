import CalendarRollup.Instant.Basic

/-! The date and the time of day of an instant: both are valid, and together they are the instant
that clocks show. -/
namespace CalendarRollup

namespace Date

/-- A year from March has 366 days only where it ends in a leap year. -/
theorem isLeapYear_of_yearAndDay {z : Int} (h : (yearAndDay z).2 = 365) :
    isLeapYear ((yearAndDay z).1 + 1) = true := by
  simp only [yearAndDay, cycleDays, centuryDays, fourYearDays, yearDays] at h ⊢
  have hr : 0 ≤ z % 146097 ∧ z % 146097 ≤ 146096 := by omega
  generalize z / 146097 = era at *
  generalize z % 146097 = r at *
  have hc : 0 ≤ min (r / 36524) 3 ∧ min (r / 36524) 3 ≤ 3 ∧
      (min (r / 36524) 3 < 3 → r - 36524 * min (r / 36524) 3 < 36524) ∧
      0 ≤ r - 36524 * min (r / 36524) 3 ∧ r - 36524 * min (r / 36524) 3 ≤ 36524 := by omega
  generalize min (r / 36524) 3 = c at *
  generalize r - 36524 * c = s at *
  have hq : 0 ≤ s / 1461 ∧ s / 1461 ≤ 24 := by omega
  have ht : s - 1461 * (s / 1461) = 1460 := by omega
  generalize hs : s / 1461 = q at *
  rw [ht]
  have hyear : 400 * era + 100 * c + 4 * q + min (1460 / 365) 3 + 1 =
      400 * era + 100 * c + 4 * q + 4 := by omega
  -- the four years end a century only as its last ones, and a century that is a day longer then
  have hcentury : q = 24 → c = 3 := by omega
  simp only [hyear, isLeapYear, Bool.and_eq_true, Bool.or_eq_true, beq_iff_eq, bne_iff_ne]
  omega

theorem daysInMonth_le (year : Int) (month : Nat) : daysInMonth year month ≤ 31 := by
  unfold daysInMonth
  split
  · split <;> decide
  all_goals decide

/-- The lengths of the months from March to December, as their first days tell. -/
theorem daysInMonth_add_three (year : Int) {m : Nat} (h : m < 10) :
    (daysInMonth year (m + 3) : Int) = (153 * (m + 1) + 2) / 5 - (153 * m + 2) / 5 := by
  match m, h with
  | 0, _ | 1, _ | 2, _ | 3, _ | 4, _ | 5, _ | 6, _ | 7, _ | 8, _ | 9, _ => rfl

theorem isValid_ofYearAndDay {y d : Int} (h0 : 0 ≤ d) (h1 : d ≤ 365)
    (leap : d = 365 → isLeapYear (y + 1) = true) : (ofYearAndDay y d).IsValid := by
  obtain ⟨m, hm⟩ : ∃ m : Nat, (5 * d + 2) / 153 = m := Int.eq_ofNat_of_zero_le (by omega)
  simp only [ofYearAndDay, hm]
  split
  next hmonth =>
    have hlength := @daysInMonth_add_three y m (by omega)
    have hnumber : ((m : Int) + 3).toNat = m + 3 := by omega
    simp only [IsValid, hnumber]
    omega
  next hmonth =>
    have hm' : m = 10 ∨ m = 11 := by omega
    rcases hm' with rfl | rfl
    case inl =>
      have hlength : daysInMonth (y + 1) 1 = 31 := rfl
      have hnumber : (((10 : Nat) : Int) - 9).toNat = 1 := rfl
      simp only [IsValid, hnumber]
      omega
    case inr =>
      have hlength : daysInMonth (y + 1) 2 = if isLeapYear (y + 1) then 29 else 28 := rfl
      have hnumber : (((11 : Nat) : Int) - 9).toNat = 2 := rfl
      simp only [IsValid, hnumber, hlength]
      split
      next => omega
      next hcommon =>
        have hlast : d ≠ 365 := fun h => hcommon (leap h)
        omega

/-- The date of a day is valid. -/
theorem isValid_ofDays (days : Int) : (ofDays days).IsValid := by
  obtain ⟨_, h0, h1⟩ := yearAndDay_spec (days + 719468)
  exact isValid_ofYearAndDay h0 h1 isLeapYear_of_yearAndDay

end Date

namespace Instant

theorem eq_of_seconds_nano {a b : Instant} (seconds : a.seconds = b.seconds)
    (nano : a.nano = b.nano) : a = b := by
  cases a
  cases b
  cases seconds
  cases nano
  rfl

theorem ofSeconds?_eq_some_iff {seconds : Int} {nano : Nat} {t : Instant} :
    ofSeconds? seconds nano = some t ↔ t.seconds = seconds ∧ t.nano = nano := by
  unfold ofSeconds?
  constructor
  · intro h
    split at h
    next =>
      cases h
      exact ⟨rfl, rfl⟩
    next => cases h
  · rintro ⟨rfl, rfl⟩
    exact dif_pos t.inRange

/-- Numbers of milliseconds from the year -262143 to the year 262142 are instants. -/
theorem ofMillis?_eq_some_iff {millis : Int} {t : Instant} :
    ofMillis? millis = some t ↔
      (-8334601228800000 ≤ millis ∧ millis ≤ 8210266876799999) ∧
        t.seconds = millis / 1000 ∧ (t.nano : Int) = millis % 1000 * 1000000 := by
  unfold ofMillis?
  rw [ofSeconds?_eq_some_iff]
  obtain ⟨hleast, hmost, _⟩ := t.inRange
  unfold minSeconds at hleast
  unfold maxSeconds at hmost
  omega

theorem exists_ofMillis? {millis : Int} (least : -8334601228800000 ≤ millis)
    (most : millis ≤ 8210266876799999) : ∃ t, ofMillis? millis = some t := by
  have hrange : InRange (millis / 1000) ((millis % 1000).toNat * 1000000) := by
    simp only [InRange, minSeconds, maxSeconds, secondNanos]
    omega
  exact ⟨_, dif_pos hrange⟩

/-- Clocks show no other instant alike: only the last second of a minute goes on past its end, where
they show a second 60. -/
def IsOnClock (t : Instant) : Prop := secondNanos ≤ t.nano → t.seconds % 60 = 59

instance (t : Instant) : Decidable t.IsOnClock := inferInstanceAs (Decidable (_ → _))

theorem isOnClock_of_lt {t : Instant} (lt : t.nano < secondNanos) : t.IsOnClock :=
  fun h => absurd h (Nat.not_le_of_lt lt)

/-- The instant that clocks show: past the end of a second they count on, up to the minute's. -/
def carried (t : Instant) : Instant :=
  if h : t.IsOnClock then t
  else {
    seconds := t.seconds + 1
    nano := t.nano - secondNanos
    inRange := by
      obtain ⟨hleast, hmost, hnano⟩ := t.inRange
      simp only [IsOnClock, InRange, minSeconds, maxSeconds, secondNanos] at *
      omega }

section Carried
variable {t : Instant}

theorem carried_of_isOnClock (onClock : t.IsOnClock) : t.carried = t := dif_pos onClock

theorem carried_of_not (off : ¬ t.IsOnClock) : t.carried.isLeapSecond = false ∧
    t.carried.seconds = t.seconds + 1 ∧ t.carried.nano + secondNanos = t.nano := by
  obtain ⟨_, _, hnano⟩ := t.inRange
  obtain ⟨hleap, _⟩ := Classical.not_imp.mp off
  have hlt : t.nano - secondNanos < secondNanos := by omega
  rw [carried, dif_neg off]
  exact ⟨decide_eq_false (Nat.not_le_of_lt hlt), rfl, Nat.sub_add_cancel hleap⟩

theorem isOnClock_carried (t : Instant) : t.carried.IsOnClock := by
  by_cases h : t.IsOnClock
  · rwa [carried_of_isOnClock h]
  · obtain ⟨hleap, _⟩ := carried_of_not h
    exact isOnClock_of_lt (Nat.lt_of_not_le (of_decide_eq_false hleap))

end Carried

/-- The date on clocks that are so many seconds ahead of universal time. -/
def dateAt (t : Instant) (ahead : Int) : Date := Date.ofDays ((t.seconds + ahead) / daySeconds)

/-- The time of day on clocks that are so many seconds ahead of universal time. -/
def clockAt (t : Instant) (ahead : Int) : ClockTime :=
  let s := ((t.seconds + ahead) % daySeconds).toNat
  { hour := s / 3600
    minute := s / 60 % 60
    second := s % 60 + t.nano / secondNanos
    nano := t.nano % secondNanos }

theorem dateAt_zero (t : Instant) : t.dateAt 0 = t.date := by
  rw [dateAt, Int.add_zero, date]

theorem clockAt_zero (t : Instant) : t.clockAt 0 = t.clock := by
  rw [clockAt, Int.add_zero, clock]

theorem isValid_clockAt (t : Instant) (ahead : Int) : (t.clockAt ahead).IsValid := by
  obtain ⟨_, _, hnano⟩ := t.inRange
  simp only [ClockTime.IsValid, clockAt, daySeconds, secondNanos] at *
  omega

theorem isValid_clock (t : Instant) : t.clock.IsValid :=
  t.clockAt_zero ▸ t.isValid_clockAt 0

section OnClock
variable {t : Instant}

/-- Clocks that are whole minutes ahead show a second 60 in leap seconds, and only there. -/
theorem second_clockAt (onClock : t.IsOnClock) {ahead : Int} (whole : ahead % 60 = 0) :
    (t.clockAt ahead).second =
      if secondNanos ≤ t.nano then 60 else ((t.seconds + ahead) % daySeconds).toNat % 60 := by
  obtain ⟨_, _, hnano⟩ := t.inRange
  have hsecond : (t.clockAt ahead).second =
      ((t.seconds + ahead) % daySeconds).toNat % 60 + t.nano / secondNanos := rfl
  rw [hsecond]
  unfold IsOnClock at onClock
  unfold daySeconds secondNanos at *
  split <;> omega

/-- The second that clocks show, from their date and their time of day. They are whole minutes
ahead, or a leap second would not be at the end of their minute. -/
theorem seconds_add_eq (onClock : t.IsOnClock) {ahead : Int} (whole : ahead % 60 = 0) :
    t.seconds + ahead = (t.dateAt ahead).toDays * daySeconds + (t.clockAt ahead).hour * 3600 +
      (t.clockAt ahead).minute * 60 + (min (t.clockAt ahead).second 59 : Nat) := by
  rw [second_clockAt onClock whole]
  simp only [dateAt, Date.toDays_ofDays, clockAt, daySeconds]
  split
  next hnano =>
    have hend := onClock hnano
    omega
  next => omega

/-- The nanoseconds of an instant, from the time of day on any clock. -/
theorem nano_eq_at (onClock : t.IsOnClock) {ahead : Int} (whole : ahead % 60 = 0) :
    t.nano = (if (t.clockAt ahead).second = 60 then secondNanos else 0) +
      (t.clockAt ahead).nano := by
  obtain ⟨_, _, hlt⟩ := t.inRange
  have hclock : (t.clockAt ahead).nano = t.nano % secondNanos := rfl
  rw [second_clockAt onClock whole, hclock]
  unfold secondNanos at *
  split
  next hnano =>
    rw [if_pos rfl]
    omega
  next hnano =>
    rw [if_neg (by omega)]
    omega

theorem ofClock?_of_isOnClock (onClock : t.IsOnClock) : ofClock? t.date t.clock 0 = some t := by
  have hdate : t.date.IsValid := Date.isValid_ofDays _
  have hseconds := seconds_add_eq onClock (Int.zero_emod 60)
  have hnano := nano_eq_at onClock (Int.zero_emod 60)
  rw [Int.add_zero, dateAt_zero, clockAt_zero] at hseconds
  rw [clockAt_zero] at hnano
  unfold ofClock?
  rw [if_pos ⟨hdate, t.isValid_clock⟩]
  simp only [Int.sub_zero, ← hseconds, ← hnano]
  unfold ofSeconds?
  rw [dif_pos t.inRange]

end OnClock

/-- A second that is not the last of its minute is on the same date as the one behind it. -/
theorem date_carried (t : Instant) : t.carried.date = t.date := by
  by_cases h : t.IsOnClock
  · rw [carried_of_isOnClock h]
  · obtain ⟨_, hseconds, _⟩ := carried_of_not h
    have hday : (t.seconds + 1) / daySeconds = t.seconds / daySeconds := by
      simp only [IsOnClock, daySeconds] at *
      omega
    rw [date, date, hseconds, hday]

theorem clock_carried (t : Instant) : t.carried.clock = t.clock := by
  by_cases h : t.IsOnClock
  · rw [carried_of_isOnClock h]
  · obtain ⟨_, _, hlt⟩ := t.inRange
    obtain ⟨_, hseconds, hnano⟩ := carried_of_not h
    simp only [clock, ClockTime.mk.injEq, hseconds]
    simp only [IsOnClock, daySeconds, secondNanos] at *
    omega

/-- The date and the time of day that clocks show are those of an instant on the clock. -/
theorem ofClock?_date_clock (t : Instant) : ofClock? t.date t.clock 0 = some t.carried := by
  rw [← date_carried, ← clock_carried]
  exact ofClock?_of_isOnClock t.isOnClock_carried

/-- A date and a time of day on clocks make an instant on the clock. -/
theorem isOnClock_of_ofClock? {d : Date} {time : ClockTime} {t : Instant}
    (made : ofClock? d time 0 = some t) : t.IsOnClock := by
  unfold ofClock? at made
  split at made
  next hvalid =>
    obtain ⟨_, _, _, _, hnano⟩ := hvalid
    obtain ⟨hseconds, hnanos⟩ := ofSeconds?_eq_some_iff.mp made
    simp only [IsOnClock, daySeconds, secondNanos] at *
    split at hnanos <;> omega
  next => cases made

end Instant
end CalendarRollup
