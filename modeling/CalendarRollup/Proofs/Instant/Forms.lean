import CalendarRollup.Proofs.Instant.Rfc3339
import CalendarRollup.Proofs.Text.Blanks

/-! The forms of timestamps. All but RFC 3339 begin with a date in one and the same lenient
spelling, and so do the texts of RFC 3339; what follows the date tells the forms apart. -/
namespace CalendarRollup.Instant

namespace Parser

section Numbers
variable {width n : Nat} {cs digits rest : Chars}

theorem upTo_digits (all : ∀ c ∈ digits, c.isDigit = true) (some : digits ≠ [])
    (fits : digits.length ≤ width)
    (ends : digits.length = width ∨ ∀ c ∈ rest.head?, c.isDigit = false) :
    upTo width (digits ++ rest) = .some (Numeral.value digits, rest) := by
  have hdigits : ((digits ++ rest).take width).takeWhile Char.isDigit = digits := by
    rw [List.take_append, List.take_of_length_le fits, List.takeWhile_append_of_pos all]
    rcases ends with hfull | hrest
    · rw [hfull, Nat.sub_self, List.take_zero, List.takeWhile_nil, List.append_nil]
    · cases hleft : rest.take (width - digits.length) with
      | nil => rw [List.takeWhile_nil, List.append_nil]
      | cons c left =>
        have hhead : c ∈ rest.head? := by
          cases rest with
          | nil => simp at hleft
          | cons d rest =>
            cases hroom : width - digits.length with
            | zero => simp [hroom] at hleft
            | succ room => simp_all
        rw [List.takeWhile_cons_of_neg (by simp [hrest c hhead]), List.append_nil]
  unfold upTo
  simp only [hdigits, List.isEmpty_iff, some, if_false, List.drop_left]

/-- A number is as long as it can be within its width. -/
theorem upTo_eq_some_iff : upTo width cs = .some (n, rest) ↔
    ∃ digits, digits ≠ [] ∧ (∀ c ∈ digits, c.isDigit = true) ∧ digits.length ≤ width ∧
      (digits.length = width ∨ ∀ c ∈ rest.head?, c.isDigit = false) ∧
      cs = digits ++ rest ∧ n = Numeral.value digits := by
  constructor
  · intro h
    have hkept := List.takeWhile_append_dropWhile (p := Char.isDigit) (l := cs.take width)
    have hsplit := List.take_append_drop width cs
    unfold upTo at h
    generalize hdigits : (cs.take width).takeWhile Char.isDigit = digits at h hkept
    generalize hleft : (cs.take width).dropWhile Char.isDigit = left at hkept
    rw [← hkept, List.append_assoc] at hsplit
    simp only at h
    split at h
    next => cases h
    next hne =>
      cases h
      have hrest : cs.drop digits.length = left ++ cs.drop width := by
        have hdrop := congrArg (List.drop digits.length) hsplit
        rw [List.drop_left] at hdrop
        exact hdrop.symm
      have hlength : digits.length ≤ width := by
        have htake := List.length_take_le width cs
        have hle := congrArg List.length hkept
        rw [List.length_append] at hle
        omega
      refine ⟨digits, by simpa using hne, ?_, hlength, ?_, by rw [hrest, hsplit], rfl⟩
      · intro c hc
        exact isDigit_of_mem_takeWhile (hdigits ▸ hc)
      · rw [hrest]
        cases left with
        | cons c left =>
          have hhead := List.head?_dropWhile_not Char.isDigit (cs.take width)
          rw [hleft] at hhead
          exact .inr fun d hd => by cases hd; exact hhead
        | nil =>
          -- all that was kept is digits, so that the width is full or the text ends
          rw [List.append_nil] at hkept
          rcases Nat.lt_or_ge digits.length width with hlt | hge
          · have hshort : cs.length ≤ width := by
              rw [hkept, List.length_take] at hlt
              omega
            rw [List.drop_of_length_le hshort]
            exact .inr fun _ hd => by cases hd
          · exact .inl (Nat.le_antisymm hlength hge)
  · rintro ⟨digits, hsome, hall, hfits, hends, rfl, rfl⟩
    exact upTo_digits hall hsome hfits hends

theorem unbounded_digits (all : ∀ c ∈ digits, c.isDigit = true) (some : digits ≠ [])
    (ends : ∀ c ∈ rest.head?, c.isDigit = false) :
    unbounded (digits ++ rest) = .some (Numeral.value digits, rest) :=
  upTo_digits all some (by simp) (.inr ends)

/-- A text that ends behind a number can be continued with what is no digit. -/
theorem upTo_append {more : Chars} (read : upTo width cs = .some (n, rest))
    (ends : rest = [] → ∀ c ∈ more.head?, c.isDigit = false) :
    upTo width (cs ++ more) = .some (n, rest ++ more) := by
  obtain ⟨digits, hsome, hall, hfits, hends, rfl, rfl⟩ := upTo_eq_some_iff.mp read
  rw [List.append_assoc]
  refine upTo_digits hall hsome hfits (hends.imp id fun hrest => ?_)
  cases rest with
  | nil => exact ends rfl
  | cons c rest => exact hrest

theorem unbounded_append {more : Chars} (read : unbounded cs = .some (n, rest))
    (ends : rest = [] → ∀ c ∈ more.head?, c.isDigit = false) :
    unbounded (cs ++ more) = .some (n, rest ++ more) := by
  obtain ⟨digits, hsome, hall, _, hends, rfl, rfl⟩ := upTo_eq_some_iff.mp read
  rw [List.append_assoc]
  refine unbounded_digits hall hsome ?_
  cases rest with
  | nil => exact ends rfl
  | cons c rest =>
    rcases hends with hfull | hrest
    · simp at hfull
    · exact hrest

end Numbers

/-- What a reader takes of a text ends in a character that is not blank. -/
def Takes (cs rest : Chars) : Prop := ∃ front, Text.EndsSolid front ∧ cs = front ++ rest

section Parts
variable {n : Nat} {y : Int} {c : Char} {d : Date} {t : ClockTime} {cs rest : Chars}

theorem Takes.of_upTo {width : Nat} (read : upTo width cs = some (n, rest)) : Takes cs rest := by
  obtain ⟨digits, hsome, hall, _, _, rfl, _⟩ := upTo_eq_some_iff.mp read
  exact ⟨digits, .of_isDigit hsome hall, rfl⟩

theorem Takes.append (front : Chars) (takes : Takes cs rest) : Takes (front ++ cs) rest := by
  obtain ⟨next, hsolid, rfl⟩ := takes
  exact ⟨front ++ next, hsolid.append front, by rw [List.append_assoc]⟩

theorem Takes.of_trimStart (takes : Takes (Text.trimStart cs) rest) : Takes cs rest := by
  obtain ⟨gap, _, hgap⟩ := Text.exists_blank_append_trimStart cs
  rw [hgap]
  exact takes.append gap

theorem Takes.trans {left : Chars} (first : Takes cs (c :: left)) (second : Takes left rest) :
    Takes cs rest := by
  obtain ⟨front, _, rfl⟩ := first
  exact (second.append [c]).append front

theorem Takes.endsSolid (takes : Takes cs []) : Text.EndsSolid cs := by
  obtain ⟨front, hsolid, rfl⟩ := takes
  rwa [List.append_nil]

theorem trimStart_ne_nil_of_upTo {width : Nat}
    (read : upTo width (Text.trimStart cs) = some (n, rest)) : Text.trimStart cs ≠ [] := by
  intro hempty
  rw [hempty] at read
  simp [upTo] at read

theorem part_append (more : Chars) (read : part cs = some (n, rest))
    (ends : rest = [] → ∀ c ∈ more.head?, c.isDigit = false) :
    part (cs ++ more) = some (n, rest ++ more) := by
  rw [part, Text.trimStart_append more (trimStart_ne_nil_of_upTo read)]
  exact upTo_append read ends

/-- A year is a number of any length behind a sign, or a number of up to four digits. -/
inductive YearText (rest : Chars) : Chars → Int → Prop
  | minus {digits n} (number : unbounded digits = some (n, rest)) : YearText rest ('-' :: digits) (-n)
  | plus {digits n} (number : unbounded digits = some (n, rest)) : YearText rest ('+' :: digits) n
  | plain {digit others n} (isDigit : digit.isDigit = true)
    (number : upTo 4 (digit :: others) = some (n, rest)) : YearText rest (digit :: others) n

theorem year_eq_some_iff : year cs = some (y, rest) ↔ YearText rest (Text.trimStart cs) y := by
  constructor
  · intro h
    unfold year at h
    generalize Text.trimStart cs = start at h ⊢
    split at h
    next digits =>
      obtain ⟨⟨n, left⟩, hnumber, h⟩ := Option.bind_eq_some_iff.mp h
      cases h
      exact .minus hnumber
    next digits =>
      obtain ⟨⟨n, left⟩, hnumber, h⟩ := Option.bind_eq_some_iff.mp h
      cases h
      exact .plus hnumber
    next =>
      obtain ⟨⟨n, left⟩, hnumber, h⟩ := Option.bind_eq_some_iff.mp h
      cases h
      obtain ⟨digits, hsome, hall, _, _, hsplit, _⟩ := upTo_eq_some_iff.mp hnumber
      obtain ⟨digit, others, rfl⟩ := List.exists_cons_of_ne_nil hsome
      subst hsplit
      exact .plain (hall digit List.mem_cons_self) hnumber
  · intro h
    unfold year
    generalize Text.trimStart cs = start at h
    cases h with
    | minus number => simp only [number, Option.bind_eq_bind, Option.bind_some]
    | plus number => simp only [number, Option.bind_eq_bind, Option.bind_some]
    | plain isDigit number =>
      split
      next hminus =>
        cases hminus
        exact absurd isDigit (by decide)
      next hplus =>
        cases hplus
        exact absurd isDigit (by decide)
      next => simp only [number, Option.bind_eq_bind, Option.bind_some]

theorem YearText.takes {start : Chars} (text : YearText rest start y) : Takes start rest := by
  cases text with
  | minus number => exact (Takes.of_upTo number).append ['-']
  | plus number => exact (Takes.of_upTo number).append ['+']
  | plain isDigit number => exact .of_upTo number

theorem YearText.solid {start : Chars} (text : YearText rest start y) :
    ∀ c ∈ start.head?, Text.isBlank c = false := by
  intro c hc
  cases text with
  | minus _ => cases hc; decide
  | plus _ => cases hc; decide
  | plain isDigit _ => cases hc; exact Text.isBlank_of_isDigit isDigit

theorem YearText.append {start more : Chars} (text : YearText rest start y)
    (ends : rest = [] → ∀ c ∈ more.head?, c.isDigit = false) :
    YearText (rest ++ more) (start ++ more) y := by
  cases text with
  | minus number => exact .minus (unbounded_append number ends)
  | plus number => exact .plus (unbounded_append number ends)
  | plain isDigit number => exact .plain isDigit (upTo_append number ends)

theorem year_append (more : Chars) (read : year cs = some (y, rest))
    (ends : rest = [] → ∀ c ∈ more.head?, c.isDigit = false) :
    year (cs ++ more) = some (y, rest ++ more) := by
  have htext := year_eq_some_iff.mp read
  have hstart : Text.trimStart cs ≠ [] := fun hempty => by
    rw [hempty] at htext
    cases htext
  rw [year_eq_some_iff, Text.trimStart_append more hstart]
  exact htext.append ends

theorem date_eq_some_iff : date cs = some (d, rest) ↔ ∃ y month day monthText dayText,
    year cs = some (y, '-' :: monthText) ∧ part monthText = some (month, '-' :: dayText) ∧
      part dayText = some (day, rest) ∧ d = ⟨y, month, day⟩ := by
  simp only [date, Option.bind_eq_bind, Option.bind_eq_some_iff, Prod.exists,
    Parser.expect_eq_some_iff]
  constructor
  · rintro ⟨y, _, hyear, monthText, rfl, month, _, hmonth, dayText, rfl, day, left, hday, h⟩
    cases h
    exact ⟨y, month, day, monthText, dayText, hyear, hmonth, hday, rfl⟩
  · rintro ⟨y, month, day, monthText, dayText, hyear, hmonth, hday, rfl⟩
    exact ⟨y, _, hyear, monthText, rfl, month, _, hmonth, dayText, rfl, day, rest, hday, rfl⟩

theorem Takes.of_date (read : date cs = some (d, rest)) : Takes cs rest := by
  obtain ⟨y, month, day, _, _, hyear, hmonth, hday, _⟩ := date_eq_some_iff.mp read
  exact (year_eq_some_iff.mp hyear).takes.of_trimStart.trans
    ((Takes.of_upTo hmonth).of_trimStart.trans (Takes.of_upTo hday).of_trimStart)

/-- A text that ends behind a date can be continued with what is no digit. -/
theorem date_append (more : Chars) (read : date cs = some (d, rest))
    (ends : rest = [] → ∀ c ∈ more.head?, c.isDigit = false) :
    date (cs ++ more) = some (d, rest ++ more) := by
  obtain ⟨y, month, day, _, _, hyear, hmonth, hday, rfl⟩ := date_eq_some_iff.mp read
  have hfirst := year_append more hyear fun h => by cases h
  have hsecond := part_append more hmonth fun h => by cases h
  exact date_eq_some_iff.mpr ⟨y, month, day, _, _, hfirst, hsecond, part_append more hday ends, rfl⟩

/-- Blanks before a date do not count. -/
theorem date_trimStart (cs : Chars) : date (Text.trimStart cs) = date cs := by
  have hyear : year (Text.trimStart cs) = year cs := by
    rw [year, Text.trimStart_trimStart, ← year]
  rw [date, hyear, ← date]

theorem Takes.of_fraction {left : Chars} (takes : Takes cs left)
    (read : fraction left = some (n, rest)) : Takes cs rest := by
  obtain ⟨digits, hall, rfl, _⟩ := fraction_eq_some read
  unfold pointed at takes
  split at takes
  next => exact takes
  next hsome =>
    obtain ⟨front, _, rfl⟩ := takes
    exact ⟨front ++ '.' :: digits, ((Text.EndsSolid.of_isDigit hsome hall).append ['.']).append front,
      by simp⟩

theorem Takes.of_time (read : time cs = some (t, rest)) : Takes cs rest := by
  simp only [time, Option.bind_eq_bind, Option.bind_eq_some_iff, Prod.exists,
    Parser.expect_eq_some_iff] at read
  obtain ⟨hour, _, hhour, _, rfl, minute, _, hminute, _, rfl, second, _, hsecond, nano, left,
    hfraction, h⟩ := read
  cases h
  have hclock := (Takes.of_upTo hhour).of_trimStart.trans
    ((Takes.of_upTo hminute).of_trimStart.trans (Takes.of_upTo hsecond).of_trimStart)
  exact hclock.of_fraction hfraction

/-- Blanks before a time of day do not count. -/
theorem time_append_of_blank {gap : Chars} (blank : Text.IsBlank gap) (cs : Chars) :
    time (gap ++ cs) = time cs := by
  have hhour : part (gap ++ cs) = part cs := by
    rw [part, Text.trimStart_append_of_blank blank, ← part]
  rw [time, hhour, ← time]

/-- A time of day begins with a digit, or with blanks. -/
theorem time_cons_eq_none (solid : Text.isBlank c = false) (other : c.isDigit = false) :
    time (c :: cs) = none := by
  have hstart : Text.trimStart (c :: cs) = c :: cs :=
    Text.trimStart_of_head fun d hd => by cases hd; exact solid
  have hhour : part (c :: cs) = none := by
    rw [part, hstart]
    simp [upTo, other]
  rw [time, hhour]
  rfl

end Parts

section Written
variable {rest : Chars}

/-- Two digits are read without the blanks before them. -/
theorem part_fixed {n : Nat} (lt : n < 100) (rest : Chars) :
    part (Numeral.fixed 2 n ++ rest) = some (n, rest) := by
  have hstart : Text.trimStart (Numeral.fixed 2 n ++ rest) = Numeral.fixed 2 n ++ rest := by
    apply Text.trimStart_of_head
    intro c hc
    apply Text.isBlank_of_isDigit
    cases hc
    exact Numeral.isDigit_digit (n / 10)
  rw [part, hstart, upTo_digits (fun _ => Numeral.isDigit_of_mem_fixed) (by simp [Numeral.fixed])
    (by simp) (.inl (by simp)), Numeral.value_fixed, Nat.mod_eq_of_lt (show n < 10 ^ 2 from lt)]

theorem yearText_yearChars (y : Int) (ends : ∀ c ∈ rest.head?, c.isDigit = false) :
    YearText rest (Date.yearChars y ++ rest) y := by
  unfold Date.yearChars
  split
  next hplain =>
    have hvalue : ((y.natAbs % 10 ^ 4 : Nat) : Int) = y := by omega
    have hall : ∀ c ∈ Numeral.fixed 4 y.natAbs, c.isDigit = true :=
      fun _ => Numeral.isDigit_of_mem_fixed
    have hlength := Numeral.length_fixed 4 y.natAbs
    have hvalueFixed := Numeral.value_fixed 4 y.natAbs
    generalize Numeral.fixed 4 y.natAbs = digits at hall hlength hvalueFixed ⊢
    obtain ⟨digit, others, rfl⟩ := List.exists_cons_of_length_eq_add_one hlength
    rw [← hvalue, ← hvalueFixed]
    exact .plain (hall digit List.mem_cons_self)
      (upTo_digits hall (List.cons_ne_nil _ _) (Nat.le_of_eq hlength) (.inl hlength))
  next =>
    have hnumber := unbounded_digits (fun _ => Numeral.isDigit_of_mem_padded)
      (Numeral.padded_ne_nil 4 y.natAbs) ends
    rw [Numeral.value_padded] at hnumber
    split
    next hnegative =>
      have hvalue : -((y.natAbs : Nat) : Int) = y := by omega
      have htext := YearText.minus hnumber
      rwa [hvalue] at htext
    next hnegative =>
      have hvalue : ((y.natAbs : Nat) : Int) = y := by omega
      have htext := YearText.plus hnumber
      rwa [hvalue] at htext

/-- A year is read with its sign, and ends before what is no digit. -/
theorem year_yearChars (y : Int) (ends : ∀ c ∈ rest.head?, c.isDigit = false) :
    year (Date.yearChars y ++ rest) = some (y, rest) := by
  have htext := yearText_yearChars y ends
  rw [year_eq_some_iff, Text.trimStart_of_head htext.solid]
  exact htext

theorem trimStart_dateChars (d : Date) (rest : Chars) :
    Text.trimStart (d.chars ++ rest) = d.chars ++ rest := by
  apply Text.trimStart_of_head
  simp only [Date.chars, List.append_assoc, List.cons_append]
  exact (yearText_yearChars d.year (by simp)).solid

theorem date_chars {d : Date} (valid : d.IsValid) (rest : Chars) :
    date (d.chars ++ rest) = some (d, rest) := by
  obtain ⟨_, hmonth, _, hday⟩ := valid
  have hdays := Date.daysInMonth_le d.year d.month
  simp only [Date.chars, List.append_assoc, List.cons_append]
  exact date_eq_some_iff.mpr ⟨_, _, _, _, _, year_yearChars d.year (by simp),
    part_fixed (by omega) _, part_fixed (by omega) _, rfl⟩

/-- A time of day is read with its fraction, up to what cannot belong to that. -/
theorem time_chars {t : ClockTime} (valid : t.IsValid) {digits : Chars}
    (all : ∀ c ∈ digits, c.isDigit = true)
    (ends : ∀ c ∈ rest.head?, c.isDigit = false ∧ c ≠ '.') :
    time (t.chars ++ (pointed digits ++ rest)) = some ({ t with nano := nanos digits }, rest) := by
  obtain ⟨hhour, hminute, hsecond, _⟩ := valid
  simp only [ClockTime.chars, List.append_assoc, List.cons_append]
  simp only [time, Option.bind_eq_bind, Option.bind_eq_some_iff, Prod.exists]
  exact ⟨_, _, part_fixed (by omega) _, _, expect_eq_some_iff.mpr rfl,
    _, _, part_fixed (by omega) _, _, expect_eq_some_iff.mpr rfl, _, _, part_fixed (by omega) _,
    _, _, fraction_pointed all ends, rfl⟩

end Written

/-- The forms of timestamps, in the order in which they are tried. -/
def forms : List (Chars → Option Instant) := [rfc3339, spaced, joined, dateOnly]

section Forms
variable {cs : Chars} {t : Instant}

theorem spaced_eq_some_iff : spaced cs = some t ↔ ∃ d time rest, date cs = some (d, rest) ∧
    Parser.time rest = some (time, []) ∧ ofClock? d time 0 = some t := by
  simp only [spaced, Option.bind_eq_bind, Option.bind_eq_some_iff, Prod.exists]
  constructor
  · rintro ⟨d, rest, hdate, time, left, htime, h⟩
    split at h
    next hempty => exact ⟨d, time, rest, hdate, List.isEmpty_iff.mp hempty ▸ htime, h⟩
    next => cases h
  · rintro ⟨d, time, rest, hdate, htime, h⟩
    exact ⟨d, rest, hdate, time, [], htime, h⟩

theorem joined_eq_some_iff : joined cs = some t ↔ ∃ d time rest, date cs = some (d, 'T' :: rest) ∧
    Parser.time rest = some (time, []) ∧ ofClock? d time 0 = some t := by
  simp only [joined, Option.bind_eq_bind, Option.bind_eq_some_iff, Prod.exists, expect_eq_some_iff]
  constructor
  · rintro ⟨d, _, hdate, rest, rfl, time, left, htime, h⟩
    split at h
    next hempty => exact ⟨d, time, rest, hdate, List.isEmpty_iff.mp hempty ▸ htime, h⟩
    next => cases h
  · rintro ⟨d, time, rest, hdate, htime, h⟩
    exact ⟨d, _, hdate, rest, rfl, time, [], htime, h⟩

theorem dateOnly_eq_some_iff : dateOnly cs = some t ↔ ∃ d, date cs = some (d, []) ∧
    ofClock? d .midnight 0 = some t := by
  simp only [dateOnly, Option.bind_eq_bind, Option.bind_eq_some_iff, Prod.exists]
  constructor
  · rintro ⟨d, rest, hdate, h⟩
    split at h
    next hempty => exact ⟨d, List.isEmpty_iff.mp hempty ▸ hdate, h⟩
    next => cases h
  · rintro ⟨d, hdate, h⟩
    exact ⟨d, [], hdate, h⟩

section Written
variable {d : Date} {time : ClockTime} {digits : Chars}

theorem time_chars_nil (valid : time.IsValid) (all : ∀ c ∈ digits, c.isDigit = true) :
    Parser.time (time.chars ++ pointed digits) = some ({ time with nano := nanos digits }, []) := by
  have htime := @time_chars [] time valid digits all (by simp)
  rwa [List.append_nil] at htime

theorem spaced_chars (date_valid : d.IsValid) (time_valid : time.IsValid)
    (all : ∀ c ∈ digits, c.isDigit = true)
    (clock : ofClock? d { time with nano := nanos digits } 0 = some t) :
    spaced (d.chars ++ ' ' :: time.chars ++ pointed digits) = some t := by
  have hgap : Text.IsBlank [' '] := by decide
  have hblank := time_append_of_blank hgap (time.chars ++ pointed digits)
  rw [List.append_assoc]
  exact spaced_eq_some_iff.mpr ⟨d, _, _, date_chars date_valid _,
    hblank.trans (time_chars_nil time_valid all), clock⟩

theorem joined_chars (date_valid : d.IsValid) (time_valid : time.IsValid)
    (all : ∀ c ∈ digits, c.isDigit = true)
    (clock : ofClock? d { time with nano := nanos digits } 0 = some t) :
    joined (d.chars ++ 'T' :: time.chars ++ pointed digits) = some t := by
  rw [List.append_assoc]
  exact joined_eq_some_iff.mpr ⟨d, _, _, date_chars date_valid _, time_chars_nil time_valid all,
    clock⟩

end Written

theorem endsSolid_zone {zone : Zone} (valid : zone.IsValid) : Text.EndsSolid zone.chars := by
  cases zone with
  | universal letter =>
    refine ⟨letter, rfl, ?_⟩
    rcases valid with rfl | rfl <;> decide
  | offset sign hours minutes =>
    have hminutes : Text.EndsSolid (Numeral.fixed 2 minutes) :=
      .of_isDigit (by simp [Numeral.fixed]) fun _ => Numeral.isDigit_of_mem_fixed
    exact (hminutes.append [':']).append (sign :: Numeral.fixed 2 hours)

/-- A text of RFC 3339 is a date and a time of day for the other readers too, but these do not come
to its end. -/
theorem date_of_rfc3339 (read : rfc3339 cs = some t) :
    ∃ d separator time rest zone, date cs = some (d, separator :: rest) ∧
      (separator = 'T' ∨ separator = 't' ∨ separator = ' ') ∧
      Parser.time rest = some (time, zone) ∧ Text.EndsSolid zone := by
  obtain ⟨text, rfl, _⟩ := Rfc3339.rfc3339_eq_some_iff.mp read
  have htime : text.time.IsValid := ⟨text.time_valid.1, text.time_valid.2.1, text.time_valid.2.2,
    text.nanos_lt⟩
  have hchars : text.chars = text.date.chars ++
      text.separator :: (text.time.chars ++ (pointed text.fraction ++ text.zone.chars)) := by
    simp [Rfc3339.chars]
  rw [hchars]
  exact ⟨_, _, _, _, _, date_chars text.date_valid _, text.separates,
    time_chars htime text.digits text.zone_ends, endsSolid_zone text.zone_valid⟩

/-- No text has two of the forms: behind the date stands nothing, a time of day to the end of the
text, a letter before such a one, or one that does not go to the end. -/
theorem forms_exclusive (cs : Chars) :
    forms.Pairwise fun form other => ∀ t u, form cs = some t → other cs = some u → False := by
  have hletter (c : Char) (letter : c = 'T' ∨ c = 't') (rest : Chars) : time (c :: rest) = none := by
    rcases letter with rfl | rfl
    · exact time_cons_eq_none (by decide) (by decide)
    · exact time_cons_eq_none (by decide) (by decide)
  simp only [forms, List.pairwise_cons, List.mem_cons, List.not_mem_nil, or_false, forall_eq_or_imp,
    forall_eq, spaced_eq_some_iff, joined_eq_some_iff, dateOnly_eq_some_iff]
  refine ⟨⟨?_, ?_, ?_⟩, ⟨?_, ?_⟩, ?_, ?_⟩
  · rintro t u hrfc ⟨_, _, _, hdate, htime, _⟩
    obtain ⟨_, separator, _, rest, zone, hdate', hseparator, hzone, hsolid⟩ := date_of_rfc3339 hrfc
    cases hdate.symm.trans hdate'
    rcases hseparator with rfl | rfl | rfl
    · cases htime.symm.trans (hletter 'T' (.inl rfl) rest)
    · cases htime.symm.trans (hletter 't' (.inr rfl) rest)
    · have hgap : Text.IsBlank [' '] := by decide
      have hblank := time_append_of_blank hgap rest
      cases htime.symm.trans (hblank.trans hzone)
      exact hsolid.ne_nil rfl
  · rintro t u hrfc ⟨_, _, _, hdate, htime, _⟩
    obtain ⟨_, _, _, _, _, hdate', _, hzone, hsolid⟩ := date_of_rfc3339 hrfc
    cases hdate.symm.trans hdate'
    cases htime.symm.trans hzone
    exact hsolid.ne_nil rfl
  · rintro t u hrfc ⟨_, hdate, _⟩
    obtain ⟨_, _, _, _, _, hdate', _⟩ := date_of_rfc3339 hrfc
    cases hdate.symm.trans hdate'
  · rintro t u ⟨_, _, _, hdate, htime, _⟩ ⟨_, _, rest, hdate', _⟩
    cases hdate.symm.trans hdate'
    cases htime.symm.trans (hletter 'T' (.inl rfl) rest)
  · rintro t u ⟨_, _, _, hdate, htime, _⟩ ⟨_, hdate', _⟩
    cases hdate.symm.trans hdate'
    cases htime
  · rintro t u ⟨_, _, _, hdate, _⟩ ⟨_, hdate', _⟩
    cases hdate.symm.trans hdate'
  · simp

/-- Where no two readers take the same, any of them decides. -/
theorem findSome?_eq_some_iff_of_exclusive {α β : Type} {f : α → Option β} {readers : List α} {b : β}
    (exclusive : readers.Pairwise fun a a' => ∀ x y, f a = some x → f a' = some y → False) :
    readers.findSome? f = some b ↔ ∃ a ∈ readers, f a = some b := by
  induction readers with
  | nil => simp
  | cons a rest ih =>
    obtain ⟨hfirst, hrest⟩ := List.pairwise_cons.mp exclusive
    cases ha : f a with
    | none => simp [ha, ih hrest]
    | some x =>
      have hothers : ¬ ∃ a' ∈ rest, f a' = some b := fun ⟨a', hmem, h⟩ => hfirst a' hmem x b ha h
      simp [ha, hothers]

/-- The order in which the forms are tried does not matter. -/
theorem findSome?_forms {order : List (Chars → Option Instant)} (perm : order.Perm forms)
    (cs : Chars) : order.findSome? (· cs) = timestamp cs := by
  have hforms := forms_exclusive cs
  have horder := (perm.pairwise_iff fun h t u ht hu => h u t hu ht).mpr hforms
  have htimestamp : timestamp cs = forms.findSome? (· cs) := by
    simp only [timestamp, forms, List.findSome?_cons, List.findSome?_nil]
    cases rfc3339 cs <;> cases spaced cs <;> cases joined cs <;> cases dateOnly cs <;> rfl
  rw [htimestamp]
  ext t
  rw [findSome?_eq_some_iff_of_exclusive horder, findSome?_eq_some_iff_of_exclusive hforms]
  simp only [perm.mem_iff]

theorem timestamp_eq_some_iff : timestamp cs = some t ↔ ∃ form ∈ forms, form cs = some t := by
  rw [← findSome?_forms (.refl _), findSome?_eq_some_iff_of_exclusive (forms_exclusive cs)]

theorem timestamp_of_form {form : Chars → Option Instant} (mem : form ∈ forms)
    (read : form cs = some t) : timestamp cs = some t :=
  timestamp_eq_some_iff.mpr ⟨form, mem, read⟩

/-- A form tells a time of day on clocks. -/
theorem isOnClock_of_form {form : Chars → Option Instant} (mem : form ∈ forms)
    (read : form cs = some t) : t.IsOnClock := by
  simp only [forms, List.mem_cons, List.not_mem_nil, or_false] at mem
  rcases mem with rfl | rfl | rfl | rfl
  · obtain ⟨text, _, rfl⟩ := Rfc3339.rfc3339_eq_some_iff.mp read
    exact text.isOnClock
  · obtain ⟨_, _, _, _, _, made⟩ := spaced_eq_some_iff.mp read
    exact isOnClock_of_ofClock? made
  · obtain ⟨_, _, _, _, _, made⟩ := joined_eq_some_iff.mp read
    exact isOnClock_of_ofClock? made
  · obtain ⟨_, _, made⟩ := dateOnly_eq_some_iff.mp read
    exact isOnClock_of_ofClock? made

/-- What has a form ends in a solid character. -/
theorem endsSolid_of_form {form : Chars → Option Instant} (mem : form ∈ forms)
    (read : form cs = some t) : Text.EndsSolid cs := by
  simp only [forms, List.mem_cons, List.not_mem_nil, or_false] at mem
  rcases mem with rfl | rfl | rfl | rfl
  · obtain ⟨_, _, _, _, _, hdate, _, htime, hzone⟩ := date_of_rfc3339 read
    obtain ⟨front, _, rfl⟩ := (Takes.of_date hdate).trans (Takes.of_time htime)
    exact hzone.append front
  · obtain ⟨_, _, _, hdate, htime, _⟩ := spaced_eq_some_iff.mp read
    obtain ⟨front, _, rfl⟩ := Takes.of_date hdate
    exact (Takes.of_time htime).endsSolid.append front
  · obtain ⟨_, _, _, hdate, htime, _⟩ := joined_eq_some_iff.mp read
    exact ((Takes.of_date hdate).trans (Takes.of_time htime)).endsSolid
  · obtain ⟨_, hdate, _⟩ := dateOnly_eq_some_iff.mp read
    exact (Takes.of_date hdate).endsSolid

/-- What has a form has it without the blanks in front too; RFC 3339 does not allow any. -/
theorem form_trimStart {form : Chars → Option Instant} (mem : form ∈ forms)
    (read : form cs = some t) : form (Text.trimStart cs) = some t := by
  simp only [forms, List.mem_cons, List.not_mem_nil, or_false] at mem
  rcases mem with rfl | rfl | rfl | rfl
  · obtain ⟨text, rfl, _⟩ := Rfc3339.rfc3339_eq_some_iff.mp read
    have hstart : Text.trimStart text.chars = text.chars := by
      simp only [Rfc3339.chars, List.append_assoc]
      exact trimStart_dateChars _ _
    rwa [hstart]
  · rwa [spaced, date_trimStart, ← spaced]
  · rwa [joined, date_trimStart, ← joined]
  · rwa [dateOnly, date_trimStart, ← dateOnly]

end Forms
end Parser

/-- A text in one of the forms is read with any blanks around it. -/
theorem ofText?_surrounded {form : List Char → Option Instant} (mem : form ∈ Parser.forms)
    {before cs after : List Char} {t : Instant} (read : form cs = some t)
    (before_blank : Text.IsBlank before) (after_blank : Text.IsBlank after) :
    ofText? (String.ofList (before ++ cs ++ after)) = some t := by
  rw [ofText?, Text.trim_surrounded before_blank after_blank (Parser.endsSolid_of_form mem read)]
  exact Parser.timestamp_of_form mem (Parser.form_trimStart mem read)

theorem ofText?_of_form {form : List Char → Option Instant} (mem : form ∈ Parser.forms)
    {cs : List Char} {t : Instant} (read : form cs = some t) :
    ofText? (String.ofList cs) = some t := by
  have hnone : Text.IsBlank [] := by decide
  have hsurrounded := ofText?_surrounded mem read hnone hnone
  rwa [List.nil_append, List.append_nil] at hsurrounded

end CalendarRollup.Instant
