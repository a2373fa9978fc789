import CalendarRollup.Proofs.Instant.Readback

/-! The spellings of one instant: in universal time with a blank or a `T` in the middle, in the time
of any zone, and as a number of milliseconds. All of them are read as that instant. -/
namespace CalendarRollup.Instant

/-- Digits after a point that tell so many nanoseconds, by themselves or cut down to whole ones. -/
def IsFraction (digits : List Char) (nano : Nat) : Prop :=
  (∀ c ∈ digits, c.isDigit = true) ∧ nanos digits = nano

instance (digits : List Char) (nano : Nat) : Decidable (IsFraction digits nano) :=
  decidable_of_iff (digits.all Char.isDigit = true ∧ nanos digits = nano) (by simp [IsFraction])

theorem isFraction_fixed {nano : Nat} (lt : nano < secondNanos) :
    IsFraction (Numeral.fixed 9 nano) nano := by
  refine ⟨fun _ => Numeral.isDigit_of_mem_fixed, ?_⟩
  unfold secondNanos at lt
  rw [nanos, Numeral.value_fixed, Numeral.length_fixed]
  omega

/-- How an instant is spelt. In universal time any year will do; a zone is told in years of four
digits on its clocks only. -/
inductive Spells (t : Instant) : List Char → Prop
  | spaced {digits} (fraction : IsFraction digits t.clock.nano) :
    Spells t (t.date.chars ++ ' ' :: t.clock.chars ++ pointed digits)
  | joined {digits} (fraction : IsFraction digits t.clock.nano) :
    Spells t (t.date.chars ++ 'T' :: t.clock.chars ++ pointed digits)
  | zoned {zone : Zone} {separator digits} (valid : zone.IsValid)
    (separates : separator = 'T' ∨ separator = 't' ∨ separator = ' ')
    (year_fits : 0 ≤ (t.dateAt zone.seconds).year ∧ (t.dateAt zone.seconds).year ≤ 9999)
    (fraction : IsFraction digits t.clock.nano) :
    Spells t ((t.dateAt zone.seconds).chars ++ separator :: (t.clockAt zone.seconds).chars ++
      pointed digits ++ zone.chars)

theorem ofClock?_nanos {t : Instant} (onClock : t.IsOnClock) {digits : List Char}
    (fraction : IsFraction digits t.clock.nano) :
    ofClock? t.date { t.clock with nano := nanos digits } 0 = some t := by
  rw [fraction.2]
  exact ofClock?_of_isOnClock onClock

/-- The clocks of a zone tell the instant, as they are whole minutes ahead. -/
theorem rfc3339_zoned {t : Instant} (onClock : t.IsOnClock) {zone : Zone} {separator : Char}
    {digits : List Char} (valid : zone.IsValid)
    (separates : separator = 'T' ∨ separator = 't' ∨ separator = ' ')
    (year_fits : 0 ≤ (t.dateAt zone.seconds).year ∧ (t.dateAt zone.seconds).year ≤ 9999)
    (fraction : IsFraction digits t.clock.nano) :
    Parser.rfc3339 ((t.dateAt zone.seconds).chars ++ separator ::
      (t.clockAt zone.seconds).chars ++ pointed digits ++ zone.chars) = some t := by
  obtain ⟨hhour, hminute, hsecond, _⟩ := t.isValid_clockAt zone.seconds
  let text : Rfc3339 := {
    date := t.dateAt zone.seconds
    separator, zone
    hour := (t.clockAt zone.seconds).hour
    minute := (t.clockAt zone.seconds).minute
    second := (t.clockAt zone.seconds).second
    fraction := digits
    year_fits
    date_valid := Date.isValid_ofDays _
    separates
    time_valid := ⟨hhour, hminute, hsecond⟩
    digits := fraction.1
    zone_valid := valid }
  have hinstant : text.instant = t := by
    apply eq_of_seconds_nano
    · change text.seconds = t.seconds
      have hsum := seconds_add_eq onClock valid.seconds.2.2
      simp only [Rfc3339.seconds, text]
      omega
    · change text.nano = t.nano
      have hnano : (t.clockAt zone.seconds).nano = nanos digits := fraction.2.symm
      rw [nano_eq_at onClock valid.seconds.2.2, hnano]
      rfl
  have hread := text.rfc3339_chars
  rw [hinstant] at hread
  exact hread

/-- A spelling has one of the forms, for the instant that it spells. -/
theorem Spells.form {t : Instant} (onClock : t.IsOnClock) {cs : List Char} (spells : Spells t cs) :
    ∃ form ∈ Parser.forms, form cs = some t := by
  have hdate : t.date.IsValid := Date.isValid_ofDays _
  cases spells with
  | spaced fraction =>
    exact ⟨Parser.spaced, by simp [Parser.forms],
      Parser.spaced_chars hdate t.isValid_clock fraction.1 (ofClock?_nanos onClock fraction)⟩
  | joined fraction =>
    exact ⟨Parser.joined, by simp [Parser.forms],
      Parser.joined_chars hdate t.isValid_clock fraction.1 (ofClock?_nanos onClock fraction)⟩
  | zoned valid separates year_fits fraction =>
    exact ⟨Parser.rfc3339, by simp [Parser.forms],
      rfc3339_zoned onClock valid separates year_fits fraction⟩

/-- An instant within the seconds that clocks count is told by its milliseconds, if it has whole
ones; a leap second's milliseconds are those of the next second. -/
theorem ofMillis?_toMillis {t : Instant} (leap : t.isLeapSecond = false)
    (whole : t.nano % 1000000 = 0) : ofMillis? t.toMillis = some t := by
  obtain ⟨hleast, hmost, _⟩ := t.inRange
  have hnano : t.nano < secondNanos := by simpa [isLeapSecond] using leap
  rw [ofMillis?_eq_some_iff]
  simp only [toMillis, minSeconds, maxSeconds, secondNanos] at *
  omega

theorem isExact_toMillis (t : Instant) : Json.IsExact t.toMillis := by
  obtain ⟨hleast, hmost, hnano⟩ := t.inRange
  simp only [minSeconds, maxSeconds, secondNanos, toMillis, Json.IsExact] at *
  omega

/-- Every timestamp that is read is on the clock. -/
theorem isOnClock_of_ofJson {value : Json} {t : Instant} (read : ofJson value = .ok t) :
    t.IsOnClock := by
  unfold ofJson at read
  split at read
  next s =>
    unfold ofText at read
    split at read
    next hread =>
      cases read
      obtain ⟨form, mem, hform⟩ := Parser.timestamp_eq_some_iff.mp hread
      exact Parser.isOnClock_of_form mem hform
    next => cases read
  next n =>
    split at read
    next hread =>
      cases read
      cases n with
      | integer millis exact =>
        obtain ⟨_, _, hnano⟩ := ofMillis?_eq_some_iff.mp hread
        exact isOnClock_of_lt (by simp only [secondNanos] at *; omega)
      | float x => cases hread
    next => cases read
  next => cases read

/-- A date alone and the same text with a midnight behind it, after a `T` or blanks, have two of the
forms for one instant. -/
theorem dateOnly_midnight {cs gap clock : List Char} {t : Instant}
    (read : Parser.dateOnly cs = some t) (midnight : Parser.time clock = some (.midnight, []))
    (apart : gap = ['T'] ∨ gap ≠ [] ∧ Text.IsBlank gap) :
    ∃ form ∈ Parser.forms, form (cs ++ (gap ++ clock)) = some t := by
  obtain ⟨d, hdate, hclock⟩ := Parser.dateOnly_eq_some_iff.mp read
  rcases apart with rfl | ⟨hsome, hblank⟩
  · have hfront := Parser.date_append (['T'] ++ clock) hdate fun _ c hc => by
      cases hc
      decide
    exact ⟨Parser.joined, by simp [Parser.forms],
      Parser.joined_eq_some_iff.mpr ⟨d, _, _, hfront, midnight, hclock⟩⟩
  · have hfront := Parser.date_append (gap ++ clock) hdate fun _ c hc => by
      obtain ⟨first, others, rfl⟩ := List.exists_cons_of_ne_nil hsome
      cases hc
      refine Bool.eq_false_iff.mpr fun hdigit => ?_
      exact Bool.eq_false_iff.mp (Text.isBlank_of_isDigit hdigit) (hblank c List.mem_cons_self)
    have htime := Parser.time_append_of_blank hblank clock
    exact ⟨Parser.spaced, by simp [Parser.forms],
      Parser.spaced_eq_some_iff.mpr ⟨d, _, _, hfront, htime.trans midnight, hclock⟩⟩

theorem ofJson_surrounded {before cs after : List Char} {t : Instant}
    (read : ∃ form ∈ Parser.forms, form cs = some t) (before_blank : Text.IsBlank before)
    (after_blank : Text.IsBlank after) :
    ofJson (.text (String.ofList (before ++ cs ++ after))) = .ok t := by
  obtain ⟨form, hmem, hform⟩ := read
  rw [ofJson, ofText, ofText?_surrounded hmem hform before_blank after_blank]

/-- A quarter of a second into the leap second at the end of 2008. -/
def leapQuarter : Instant := ⟨1230767999, 1250000000, by decide⟩

/-- Clocks in the zone are in the next year, and their leap second is not at the end of an hour. -/
theorem spells_leapQuarter : Spells leapQuarter "2009-01-01t05:29:60.25+05:30".toList := by
  have hzone : (Zone.offset '+' 5 30).IsValid := ⟨.inl rfl, by decide, by decide⟩
  have hfraction : IsFraction ['2', '5'] leapQuarter.clock.nano := by decide
  exact .zoned hzone (by decide) (by decide) hfraction

/-- The last millisecond before 1970. -/
def lastBefore1970 : Instant := ⟨-1, 999000000, by decide⟩

/-- The first instant of 2009, the next after the leap second. -/
def newYear2009 : Instant := ⟨1230768000, 0, by decide⟩

end CalendarRollup.Instant
