import CalendarRollup.Instant.Format
import CalendarRollup.Instant.Parser
import CalendarRollup.Proofs.Decimal.Fixed
import CalendarRollup.Proofs.Instant.Clock

/-! Texts of RFC 3339 in their parts. The reader takes the texts that can be put together from such
parts and no others, each for the instant that its parts tell. -/
namespace CalendarRollup.Instant

/-- The nanoseconds of the digits after a point: what is less than one does not count. -/
def nanos (digits : List Char) : Nat := Numeral.value digits * 10 ^ 9 / 10 ^ digits.length

def pointed (digits : List Char) : List Char := if digits = [] then [] else '.' :: digits

/-- How a text says how far its clock is ahead of universal time. -/
inductive Zone where
  | universal (letter : Char)
  | offset (sign : Char) (hours minutes : Nat)
  deriving DecidableEq, Repr

namespace Zone

def IsValid : Zone → Prop
  | universal letter => letter = 'Z' ∨ letter = 'z'
  | offset sign hours minutes =>
    (sign = '+' ∨ sign = '-' ∨ sign = '−') ∧ hours ≤ 23 ∧ minutes ≤ 59

def chars : Zone → List Char
  | universal letter => [letter]
  | offset sign hours minutes => sign :: Numeral.fixed 2 hours ++ ':' :: Numeral.fixed 2 minutes

def seconds : Zone → Int
  | universal _ => 0
  | offset sign hours minutes =>
    if sign = '+' then hours * 3600 + minutes * 60 else -(hours * 3600 + minutes * 60)

/-- An offset is less than a day, in whole minutes. -/
theorem IsValid.seconds {zone : Zone} (valid : zone.IsValid) :
    -86400 < zone.seconds ∧ zone.seconds < 86400 ∧ zone.seconds % 60 = 0 := by
  cases zone with
  | universal letter => simp [Zone.seconds]
  | offset sign hours minutes =>
    obtain ⟨_, hhours, hminutes⟩ := valid
    simp only [Zone.seconds]
    split <;> omega

end Zone

namespace Parser

theorem expect_eq_some_iff {c : Char} {cs rest : Chars} :
    expect c cs = some rest ↔ cs = c :: rest := by
  cases cs with
  | nil => simp [expect]
  | cons d cs =>
    by_cases h : d = c
    · simp [expect, h]
    · simp [expect, h]

theorem takeWhile_isDigit {digits : Chars} (all : ∀ c ∈ digits, c.isDigit = true) :
    digits.takeWhile Char.isDigit = digits := by
  have happend := @List.takeWhile_append_of_pos Char Char.isDigit digits [] all
  simpa using happend

theorem isDigit_of_mem_takeWhile {cs : Chars} {c : Char} (h : c ∈ cs.takeWhile Char.isDigit) :
    c.isDigit = true :=
  List.all_eq_true.mp List.all_takeWhile c h

theorem exactly_eq_some_iff {width n : Nat} {cs rest : Chars} :
    exactly width cs = some (n, rest) ↔
      n < 10 ^ width ∧ cs = Numeral.fixed width n ++ rest := by
  simp only [exactly]
  constructor
  · intro h
    split at h
    next hlength =>
      cases h
      have hall : (cs.take width).takeWhile Char.isDigit = cs.take width :=
        (List.takeWhile_prefix _).eq_of_length_le (by rw [hlength]; exact List.length_take_le ..)
      rw [hall] at hlength ⊢
      have hdigits : ∀ c ∈ cs.take width, c.isDigit = true :=
        fun c hc => isDigit_of_mem_takeWhile (hall.symm ▸ hc)
      have hlt := Numeral.value_lt hdigits
      rw [hlength] at hlt
      exact ⟨hlt, by rw [Numeral.fixed_value hlength hdigits, List.take_append_drop]⟩
    next => cases h
  · rintro ⟨hlt, rfl⟩
    have htake : (Numeral.fixed width n ++ rest).take width = Numeral.fixed width n :=
      List.take_left' (Numeral.length_fixed width n)
    have hdrop : (Numeral.fixed width n ++ rest).drop width = rest :=
      List.drop_left' (Numeral.length_fixed width n)
    rw [htake, hdrop, takeWhile_isDigit fun _ => Numeral.isDigit_of_mem_fixed,
      if_pos (Numeral.length_fixed width n), Numeral.value_fixed, Nat.mod_eq_of_lt hlt]

/-- The first nine digits, with zeros for those that are missing. -/
theorem value_take_nine {digits : List Char} (all : ∀ c ∈ digits, c.isDigit = true) :
    Numeral.value ((digits ++ List.replicate 9 '0').take 9) = nanos digits := by
  unfold nanos
  by_cases hlength : digits.length ≤ 9
  · obtain ⟨missing, hmissing⟩ := Nat.exists_eq_add_of_le hlength
    have htake : (digits ++ List.replicate 9 '0').take 9 =
        digits ++ List.replicate missing '0' := by
      rw [List.take_append, List.take_of_length_le hlength, List.take_replicate]
      congr 2
      omega
    have hzeros : Numeral.value (List.replicate missing '0') = 0 := by
      simp [Numeral.value, Nat.ofDigitChars_replicate_zero]
    rw [htake, Numeral.value_append, hzeros, List.length_replicate, Nat.add_zero, hmissing,
      Nat.pow_add, Nat.mul_left_comm, Nat.mul_div_cancel_left _ (Nat.pow_pos (by decide))]
  · have htake : (digits ++ List.replicate 9 '0').take 9 = digits.take 9 :=
      List.take_append_of_le_length (by omega)
    have hvalue := Numeral.value_append (digits.take 9) (digits.drop 9)
    have hlt : Numeral.value (digits.drop 9) < 10 ^ (digits.drop 9).length :=
      Numeral.value_lt fun c h => all c (List.mem_of_mem_drop h)
    have hpow : 10 ^ digits.length = 10 ^ (digits.drop 9).length * 10 ^ 9 := by
      rw [← Nat.pow_add, List.length_drop]
      congr 1
      omega
    rw [List.take_append_drop] at hvalue
    rw [htake, hpow, Nat.mul_div_mul_right _ _ (by decide), hvalue, Nat.add_comm,
      Nat.add_mul_div_right _ _ (Nat.pow_pos (by decide)), Nat.div_eq_of_lt hlt, Nat.zero_add]

theorem fraction_eq_some {n : Nat} {cs rest : Chars} (h : fraction cs = some (n, rest)) :
    ∃ digits, (∀ c ∈ digits, c.isDigit = true) ∧ cs = pointed digits ++ rest ∧
      n = nanos digits := by
  unfold fraction at h
  split at h
  next cs =>
    have hall : ∀ c ∈ cs.takeWhile Char.isDigit, c.isDigit = true :=
      fun _ => isDigit_of_mem_takeWhile
    simp only at h
    split at h
    next => cases h
    next hne =>
      cases h
      refine ⟨cs.takeWhile Char.isDigit, hall, ?_, value_take_nine hall⟩
      have hsplit := List.prefix_iff_eq_append.mp (List.takeWhile_prefix (l := cs) Char.isDigit)
      rw [pointed, if_neg (by simpa using hne), List.cons_append, hsplit]
  next =>
    cases h
    exact ⟨[], by simp, rfl, rfl⟩

/-- A fraction ends before what is neither a digit nor a point. -/
theorem fraction_pointed {digits rest : Chars} (all : ∀ c ∈ digits, c.isDigit = true)
    (ends : ∀ c ∈ rest.head?, c.isDigit = false ∧ c ≠ '.') :
    fraction (pointed digits ++ rest) = some (nanos digits, rest) := by
  cases digits with
  | nil =>
    cases rest with
    | nil => rfl
    | cons c rest =>
      obtain ⟨_, hpoint⟩ := ends c rfl
      simp only [pointed, if_true, List.nil_append]
      unfold fraction
      split
      next hpointed => exact absurd (List.cons.inj hpointed).1 hpoint
      next => rfl
  | cons c digits =>
    have hrest : rest.takeWhile Char.isDigit = [] := by
      cases rest with
      | nil => rfl
      | cons d rest => simp [(ends d rfl).1]
    have htake : (c :: digits ++ rest).takeWhile Char.isDigit = c :: digits := by
      rw [List.takeWhile_append_of_pos all, hrest, List.append_nil]
    have hvalue := value_take_nine all
    simp only [pointed, reduceCtorEq, if_false, List.cons_append] at htake hvalue ⊢
    simp only [fraction, htake, List.isEmpty_cons, Bool.false_eq_true, if_false, List.cons_append,
      hvalue]
    simp

theorem offset_eq_some_iff {seconds : Int} {cs rest : Chars} :
    offset cs = some (seconds, rest) ↔
      ∃ zone : Zone, zone.IsValid ∧ cs = zone.chars ++ rest ∧ seconds = zone.seconds := by
  constructor
  · intro h
    cases cs with
    | nil => cases h
    | cons c cs =>
      simp only [offset] at h
      split at h
      next hletter =>
        cases h
        exact ⟨.universal c, hletter, rfl, rfl⟩
      next =>
        split at h
        next hsign =>
          simp only [Option.bind_eq_bind, Option.bind_eq_some_iff, Prod.exists,
            exactly_eq_some_iff, expect_eq_some_iff] at h
          obtain ⟨hours, _, ⟨_, rfl⟩, _, rfl, minutes, left, ⟨_, rfl⟩, h⟩ := h
          split at h
          next hbounds =>
            cases h
            exact ⟨.offset c hours minutes, ⟨hsign, hbounds⟩, by simp [Zone.chars], rfl⟩
          next => cases h
        next => cases h
  · rintro ⟨zone, hvalid, rfl, rfl⟩
    cases zone with
    | universal letter => exact if_pos hvalid
    | offset sign hours minutes =>
      obtain ⟨hsign, hhours, hminutes⟩ := hvalid
      have hletter : ¬ (sign = 'Z' ∨ sign = 'z') := by
        rcases hsign with rfl | rfl | rfl <;> decide
      simp only [offset, Zone.chars, List.cons_append, if_neg hletter, if_pos hsign,
        List.append_assoc]
      simp only [Option.bind_eq_bind, Option.bind_eq_some_iff, Prod.exists]
      refine ⟨hours, _, exactly_eq_some_iff.mpr ⟨by omega, rfl⟩, _,
        expect_eq_some_iff.mpr rfl, minutes, rest, exactly_eq_some_iff.mpr ⟨by omega, rfl⟩, ?_⟩
      rw [if_pos ⟨hhours, hminutes⟩]
      rfl

end Parser

/-- The parts of a text of RFC 3339. -/
structure Rfc3339 where
  date : Date
  separator : Char
  hour : Nat
  minute : Nat
  second : Nat
  /-- The digits after the point; without any there is no point. -/
  fraction : List Char
  zone : Zone
  year_fits : 0 ≤ date.year ∧ date.year ≤ 9999
  date_valid : date.IsValid
  separates : separator = 'T' ∨ separator = 't' ∨ separator = ' '
  time_valid : hour ≤ 23 ∧ minute ≤ 59 ∧ second ≤ 60
  digits : ∀ c ∈ fraction, c.isDigit = true
  zone_valid : zone.IsValid

namespace Rfc3339

def time (text : Rfc3339) : ClockTime :=
  ⟨text.hour, text.minute, text.second, nanos text.fraction⟩

def chars (text : Rfc3339) : List Char :=
  text.date.chars ++ text.separator :: text.time.chars ++ pointed text.fraction ++ text.zone.chars

def seconds (text : Rfc3339) : Int :=
  text.date.toDays * daySeconds + text.hour * 3600 + text.minute * 60 +
    (min text.second 59 : Nat) - text.zone.seconds

/-- A second 60 is the second before with as many nanoseconds again. -/
def nano (text : Rfc3339) : Nat :=
  (if text.second = 60 then secondNanos else 0) + nanos text.fraction

theorem nanos_lt (text : Rfc3339) : nanos text.fraction < secondNanos := by
  have hlt := Numeral.value_lt text.digits
  have hpos : 0 < 10 ^ text.fraction.length := Nat.pow_pos (by decide)
  exact (Nat.div_lt_iff_lt_mul hpos).mpr (by unfold secondNanos; omega)

theorem toDays_bounds (text : Rfc3339) :
    -1000000 ≤ text.date.toDays ∧ text.date.toDays ≤ 4000000 := by
  obtain ⟨hleast, hmost⟩ := text.year_fits
  obtain ⟨_, hmonth, _, hday⟩ := text.date_valid
  have hdays := Date.daysInMonth_le text.date.year text.date.month
  unfold Date.toDays
  split <;> simp only [*] <;> omega

theorem inRange (text : Rfc3339) : InRange text.seconds text.nano := by
  obtain ⟨hleast, hmost⟩ := text.toDays_bounds
  obtain ⟨hhour, hminute, hsecond⟩ := text.time_valid
  obtain ⟨hbehind, hahead, hwhole⟩ := text.zone_valid.seconds
  have hnano := text.nanos_lt
  simp only [InRange, minSeconds, maxSeconds, secondNanos, seconds, nano, daySeconds] at hnano ⊢
  exact ⟨by omega, by omega, by split <;> omega⟩

/-- The instant that the parts tell. -/
def instant (text : Rfc3339) : Instant := ⟨text.seconds, text.nano, text.inRange⟩

/-- A second 60 is at the end of a minute in universal time too, as zones are whole minutes
ahead. -/
theorem isOnClock (text : Rfc3339) : text.instant.IsOnClock := by
  obtain ⟨_, _, hsecond⟩ := text.time_valid
  obtain ⟨_, _, hwhole⟩ := text.zone_valid.seconds
  have hnano := text.nanos_lt
  intro hleap
  simp only [instant, seconds, nano, daySeconds] at hleap ⊢
  split at hleap <;> omega

theorem ofClock?_parts (text : Rfc3339) :
    ofClock? text.date text.time text.zone.seconds = some text.instant := by
  obtain ⟨hhour, hminute, hsecond⟩ := text.time_valid
  have htime : text.time.IsValid := ⟨hhour, hminute, hsecond, text.nanos_lt⟩
  unfold ofClock?
  rw [if_pos ⟨text.date_valid, htime⟩]
  exact dif_pos text.inRange

theorem dateChars_eq (text : Rfc3339) : text.date.chars =
    Numeral.fixed 4 text.date.year.natAbs ++ '-' :: Numeral.fixed 2 text.date.month ++
      '-' :: Numeral.fixed 2 text.date.day := by
  rw [Date.chars, Date.yearChars, if_pos text.year_fits]

/-- A zone begins with what cannot belong to a fraction. -/
theorem zone_ends (text : Rfc3339) :
    ∀ c ∈ text.zone.chars.head?, c.isDigit = false ∧ c ≠ '.' := by
  have hvalid := text.zone_valid
  intro c hc
  cases hzone : text.zone with
  | universal letter =>
    rw [hzone] at hvalid hc
    cases hc
    rcases hvalid with rfl | rfl <;> decide
  | offset sign hours minutes =>
    rw [hzone] at hvalid hc
    cases hc
    rcases hvalid.1 with rfl | rfl | rfl <;> decide

theorem rfc3339_chars (text : Rfc3339) : Parser.rfc3339 text.chars = some text.instant := by
  obtain ⟨hleast, hmost⟩ := text.year_fits
  obtain ⟨_, hmonth, _, hday⟩ := text.date_valid
  obtain ⟨hhour, hminute, hsecond⟩ := text.time_valid
  have hdays := Date.daysInMonth_le text.date.year text.date.month
  have hdate : (⟨(text.date.year.natAbs : Int), text.date.month, text.date.day⟩ : Date) =
      text.date := by
    have hyear : (text.date.year.natAbs : Int) = text.date.year := by omega
    rw [hyear]
  have hseparator : Parser.isDateTimeSeparator text.separator = true := by
    rcases text.separates with h | h | h <;> rw [h] <;> decide
  have hoffset : Parser.offset text.zone.chars = some (text.zone.seconds, []) :=
    Parser.offset_eq_some_iff.mpr ⟨text.zone, text.zone_valid, by simp, rfl⟩
  simp only [chars, dateChars_eq, ClockTime.chars, List.append_assoc, List.cons_append]
  simp only [Parser.rfc3339, Option.bind_eq_bind, Option.bind_eq_some_iff, Prod.exists]
  refine ⟨_, _, Parser.exactly_eq_some_iff.mpr ⟨?_, rfl⟩, _, Parser.expect_eq_some_iff.mpr rfl,
    _, _, Parser.exactly_eq_some_iff.mpr ⟨?_, rfl⟩, _, Parser.expect_eq_some_iff.mpr rfl,
    _, _, Parser.exactly_eq_some_iff.mpr ⟨?_, rfl⟩, ?_⟩
  case refine_4 =>
    simp only [if_pos hseparator, Option.bind_eq_some_iff, Prod.exists]
    refine ⟨_, _, Parser.exactly_eq_some_iff.mpr ⟨?_, rfl⟩, _, Parser.expect_eq_some_iff.mpr rfl,
      _, _, Parser.exactly_eq_some_iff.mpr ⟨?_, rfl⟩, _, Parser.expect_eq_some_iff.mpr rfl,
      _, _, Parser.exactly_eq_some_iff.mpr ⟨?_, rfl⟩,
      _, _, Parser.fraction_pointed text.digits text.zone_ends, _, _, hoffset, ?_⟩
    case refine_4 =>
      rw [hdate]
      exact text.ofClock?_parts
    all_goals
      simp only [time]
      omega
  all_goals omega

/-- The reader takes what has parts, for the instant that they tell. -/
theorem rfc3339_eq_some_iff {cs : List Char} {t : Instant} :
    Parser.rfc3339 cs = some t ↔ ∃ text : Rfc3339, text.chars = cs ∧ text.instant = t := by
  constructor
  · intro h
    simp only [Parser.rfc3339, Option.bind_eq_bind, Option.bind_eq_some_iff, Prod.exists,
      Parser.exactly_eq_some_iff, Parser.expect_eq_some_iff] at h
    obtain ⟨year, _, ⟨hyear, rfl⟩, _, rfl, month, _, ⟨hmonth, rfl⟩, _, rfl, day, cs, ⟨hday, rfl⟩, h⟩
      := h
    split at h
    next => cases h
    next separator cs =>
      split at h
      next hseparator =>
        simp only [Option.bind_eq_some_iff, Prod.exists,
          Parser.exactly_eq_some_iff, Parser.expect_eq_some_iff] at h
        obtain ⟨hour, _, ⟨hhour, rfl⟩, _, rfl, minute, _, ⟨hminute, rfl⟩, _, rfl, second, cs,
          ⟨hsecond, rfl⟩, nano, _, hfraction, offset, rest, hoffset, h⟩ := h
        obtain ⟨digits, hdigits, rfl, rfl⟩ := Parser.fraction_eq_some hfraction
        obtain ⟨zone, hzone, rfl, rfl⟩ := Parser.offset_eq_some_iff.mp hoffset
        split at h
        next hempty =>
          have hvalid : (⟨year, month, day⟩ : Date).IsValid ∧
              (⟨hour, minute, second, nanos digits⟩ : ClockTime).IsValid := by
            unfold ofClock? at h
            split at h
            next hvalid => exact hvalid
            next => cases h
          obtain ⟨hdate, hhours, hminutes, hseconds, _⟩ := hvalid
          refine ⟨{
            date := ⟨year, month, day⟩
            separator, hour, minute, second, zone
            fraction := digits
            year_fits := ⟨Int.natCast_nonneg year, Int.ofNat_le.mpr (Nat.le_of_lt_succ hyear)⟩
            date_valid := hdate
            separates := by simpa [Parser.isDateTimeSeparator, or_assoc] using hseparator
            time_valid := ⟨hhours, hminutes, hseconds⟩
            digits := hdigits
            zone_valid := hzone }, ?_, ?_⟩
          · rw [chars, dateChars_eq, List.isEmpty_iff.mp hempty]
            simp [ClockTime.chars, time]
          · rw [← Option.some_inj, ← ofClock?_parts]
            exact h
        next => cases h
      next => cases h
  · rintro ⟨text, rfl, rfl⟩
    exact text.rfc3339_chars

end Rfc3339
end CalendarRollup.Instant
