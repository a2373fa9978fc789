import CalendarRollup.Instant.Date

/-! Instants of universal time, to the nanosecond, in the years from -262143 to 262142. The second
60 of a minute is an instant too: it is the 59th second with another `10 ^ 9` nanoseconds, so it
lies between the end of the 59th second and the next minute. Any other second can be as long, but
clocks show what is past its end as the next second. -/
namespace CalendarRollup

/-- A time of day as clocks write it; `second` is 60 in a leap second. -/
structure ClockTime where
  hour : Nat
  minute : Nat
  second : Nat
  nano : Nat
  deriving DecidableEq, Repr

def ClockTime.midnight : ClockTime := ⟨0, 0, 0, 0⟩

def ClockTime.IsValid (t : ClockTime) : Prop :=
  t.hour ≤ 23 ∧ t.minute ≤ 59 ∧ t.second ≤ 60 ∧ t.nano < 1000000000

instance (t : ClockTime) : Decidable t.IsValid := inferInstanceAs (Decidable (_ ∧ _ ∧ _ ∧ _))

namespace Instant

def daySeconds : Int := 86400

def secondNanos : Nat := 1000000000

/-- The first second of the year -262143. -/
def minSeconds : Int := -8334601228800

/-- The last second of the year 262142. -/
def maxSeconds : Int := 8210266876799

/-- A second and its nanoseconds are an instant: the second is in range, and goes on for less than
two seconds. -/
def InRange (seconds : Int) (nano : Nat) : Prop :=
  minSeconds ≤ seconds ∧ seconds ≤ maxSeconds ∧ nano < 2 * secondNanos

instance (seconds : Int) (nano : Nat) : Decidable (InRange seconds nano) :=
  inferInstanceAs (Decidable (_ ∧ _ ∧ _))

end Instant

/-- `seconds` since 1970-01-01 00:00:00, and nanoseconds after that second began. -/
structure Instant where
  seconds : Int
  nano : Nat
  inRange : Instant.InRange seconds nano
  deriving DecidableEq, Repr

namespace Instant

def ofSeconds? (seconds : Int) (nano : Nat) : Option Instant :=
  if h : InRange seconds nano then some ⟨seconds, nano, h⟩ else none

/-- The instant of a date and a time of day, `offset` seconds ahead of universal time. -/
def ofClock? (date : Date) (time : ClockTime) (offset : Int) : Option Instant :=
  if date.IsValid ∧ time.IsValid then
    let second := min time.second 59
    let leap := if time.second = 60 then secondNanos else 0
    ofSeconds?
      (date.toDays * daySeconds + time.hour * 3600 + time.minute * 60 + second - offset)
      (leap + time.nano)
  else none

/-- The instant a number of milliseconds after 1970-01-01. -/
def ofMillis? (millis : Int) : Option Instant :=
  ofSeconds? (millis / 1000) ((millis % 1000).toNat * 1000000)

/-- Milliseconds since 1970-01-01; a leap second counts as the next second. -/
def toMillis (t : Instant) : Int := t.seconds * 1000 + (t.nano / 1000000 : Nat)

/-- The instant is past the end of its second, in one that has been put in behind it. -/
def isLeapSecond (t : Instant) : Bool := secondNanos ≤ t.nano

def date (t : Instant) : Date := Date.ofDays (t.seconds / daySeconds)

/-- What clocks show. They count a leap second on within its minute. -/
def clock (t : Instant) : ClockTime :=
  let s := (t.seconds % daySeconds).toNat
  { hour := s / 3600
    minute := s / 60 % 60
    second := s % 60 + t.nano / secondNanos
    nano := t.nano % secondNanos }

instance : LT Instant where
  lt a b := a.seconds < b.seconds ∨ a.seconds = b.seconds ∧ a.nano < b.nano

instance (a b : Instant) : Decidable (a < b) := inferInstanceAs (Decidable (_ ∨ _))

/-- The instant `n` whole seconds earlier, if there is one. A leap second is left by going on to
the next second first; going back by nothing stays in it. -/
def secondsBefore? (t : Instant) (n : Nat) : Option Instant :=
  if n = 0 then some t
  else if t.isLeapSecond then ofSeconds? (t.seconds + 1 - n) (t.nano - secondNanos)
  else ofSeconds? (t.seconds - n) t.nano

/-- The same time of day `n` calendar months earlier, if there is such an instant. -/
def monthsBefore? (t : Instant) (n : Nat) : Option Instant :=
  ofSeconds? ((t.date.monthsBefore n).toDays * daySeconds + t.seconds % daySeconds) t.nano

end Instant
end CalendarRollup
