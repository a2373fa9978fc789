/-! Dates of the Gregorian calendar, extended to all years, and their numbering by days from
1970-01-01. -/
namespace CalendarRollup

structure Date where
  year : Int
  month : Nat
  day : Nat
  deriving DecidableEq, Repr, Inhabited

namespace Date

def isLeapYear (year : Int) : Bool := year % 4 == 0 && (year % 100 != 0 || year % 400 == 0)

def daysInMonth (year : Int) : Nat → Nat
  | 2 => if isLeapYear year then 29 else 28
  | 4 | 6 | 9 | 11 => 30
  | _ => 31

/-- A month from 1 to 12 and a day that the month has. -/
def IsValid (d : Date) : Prop :=
  1 ≤ d.month ∧ d.month ≤ 12 ∧ 1 ≤ d.day ∧ d.day ≤ daysInMonth d.year d.month

instance (d : Date) : Decidable d.IsValid := inferInstanceAs (Decidable (_ ∧ _ ∧ _ ∧ _))

/-- The day's number. Years are counted from March, so that a leap day ends its year. -/
def toDays (d : Date) : Int :=
  let y := if d.month ≤ 2 then d.year - 1 else d.year
  let m : Int := if d.month ≤ 2 then d.month + 9 else d.month - 3
  365 * y + y / 4 - y / 100 + y / 400 + (153 * m + 2) / 5 + d.day - 1 - 719468

/-- Days of a cycle of 400 years, of a century within it, of four years within that, and of one. -/
def cycleDays : Int := 146097
def centuryDays : Int := 36524
def fourYearDays : Int := 1461
def yearDays : Int := 365

/-- The year from March that a day falls in, and the day's place in it. The last century of a cycle
and the last of four years are a day longer, which the bounds of 3 allow for. -/
def yearAndDay (z : Int) : Int × Int :=
  let r := z % cycleDays
  let century := min (r / centuryDays) 3
  let r := r - centuryDays * century
  let four := r / fourYearDays
  let r := r - fourYearDays * four
  let year := min (r / yearDays) 3
  (400 * (z / cycleDays) + 100 * century + 4 * four + year, r - yearDays * year)

/-- The date of a day in a year from March. -/
def ofYearAndDay (year dayOfYear : Int) : Date :=
  let month := (5 * dayOfYear + 2) / 153
  let day := (dayOfYear - (153 * month + 2) / 5 + 1).toNat
  if month < 10 then ⟨year, (month + 3).toNat, day⟩ else ⟨year + 1, (month - 9).toNat, day⟩

/-- The date with a number. -/
def ofDays (days : Int) : Date :=
  let (year, dayOfYear) := yearAndDay (days + 719468)
  ofYearAndDay year dayOfYear

theorem yearAndDay_spec (z : Int) :
    365 * (yearAndDay z).1 + (yearAndDay z).1 / 4 - (yearAndDay z).1 / 100 +
      (yearAndDay z).1 / 400 + (yearAndDay z).2 = z ∧
    0 ≤ (yearAndDay z).2 ∧ (yearAndDay z).2 ≤ 365 := by
  simp only [yearAndDay, cycleDays, centuryDays, fourYearDays, yearDays]
  have hz := Int.mul_ediv_add_emod z 146097
  have hr : 0 ≤ z % 146097 ∧ z % 146097 ≤ 146096 := by omega
  generalize z / 146097 = era at *
  generalize z % 146097 = r at *
  have hc : 0 ≤ min (r / 36524) 3 ∧ min (r / 36524) 3 ≤ 3 ∧
      0 ≤ r - 36524 * min (r / 36524) 3 ∧ r - 36524 * min (r / 36524) 3 ≤ 36524 := by omega
  generalize min (r / 36524) 3 = c at *
  generalize hs : r - 36524 * c = s at *
  have hq : 0 ≤ s / 1461 ∧ s / 1461 ≤ 24 ∧ 0 ≤ s - 1461 * (s / 1461) ∧
      s - 1461 * (s / 1461) ≤ 1460 := by omega
  generalize s / 1461 = q at *
  generalize ht : s - 1461 * q = t at *
  have hy : 0 ≤ min (t / 365) 3 ∧ min (t / 365) 3 ≤ 3 ∧ 0 ≤ t - 365 * min (t / 365) 3 ∧
      t - 365 * min (t / 365) 3 ≤ 365 := by omega
  generalize min (t / 365) 3 = y at *
  have h4 : (400 * era + 100 * c + 4 * q + y) / 4 = 100 * era + 25 * c + q := by omega
  have h100 : (400 * era + 100 * c + 4 * q + y) / 100 = 4 * era + c := by omega
  have h400 : (400 * era + 100 * c + 4 * q + y) / 400 = era := by omega
  rw [h4, h100, h400]
  omega

theorem toDays_ofYearAndDay {y d : Int} (h0 : 0 ≤ d) (h1 : d ≤ 365) :
    (ofYearAndDay y d).toDays = 365 * y + y / 4 - y / 100 + y / 400 + d - 719468 := by
  simp only [ofYearAndDay]
  have hm : 0 ≤ (5 * d + 2) / 153 ∧ (5 * d + 2) / 153 ≤ 11 := by omega
  have hd : 0 ≤ d - (153 * ((5 * d + 2) / 153) + 2) / 5 := by omega
  generalize (5 * d + 2) / 153 = m at *
  split
  · have e : ¬ (m + 3).toNat ≤ 2 := by omega
    have e' : ((m + 3).toNat : Int) - 3 = m := by omega
    simp only [toDays, e, if_false, e']
    omega
  · have e : (m - 9).toNat ≤ 2 := by omega
    have e' : ((m - 9).toNat : Int) + 9 = m := by omega
    simp only [toDays, e, if_true, e', Int.add_sub_cancel]
    omega

@[simp] theorem toDays_ofDays (days : Int) : (ofDays days).toDays = days := by
  have h := yearAndDay_spec (days + 719468)
  simp only [ofDays]
  rw [toDays_ofYearAndDay h.2.1 h.2.2]
  omega

/-- The date `months` months earlier, its day reduced to the last one the month has. -/
def monthsBefore (d : Date) (months : Nat) : Date :=
  let index := d.year * 12 + (d.month - 1 : Int) - months
  let year := index / 12
  let month := (index % 12).toNat + 1
  { year, month, day := min d.day (daysInMonth year month) }

end Date
end CalendarRollup
