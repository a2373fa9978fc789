import CalendarRollup.Rollup.Reading

/-! The window of time that a rollup covers, from explicit bounds or by a policy and a lookback. -/
namespace CalendarRollup

structure Window where
  start : Instant
  finish : Instant
  start_lt_finish : start < finish
  deriving DecidableEq, Repr

/-- The window between two instants, in whichever order they come; equal ones bound none. -/
def Window.between (a b : Instant) : Except RequestFault Window :=
  if h : a < b then .ok ⟨a, b, h⟩
  else if h : b < a then .ok ⟨b, a, h⟩
  else .error (.emptyWindow a)

/-- The length of a window whose start is not given. -/
structure Lookback where
  range : Nat
  unit : TimeUnit
  range_le : range ≤ 4294967295
  deriving DecidableEq, Repr

namespace Lookback

/-- Months are counted in 32 bits. -/
def mostMonths : Nat := 4294967295

/-- Seconds are counted in 64 bits, one of which is for the sign. -/
def mostSeconds : Nat := 9223372036854775807

/-- The seconds of a span of time, the milliseconds of which are counted in 64 bits. -/
def longestSpan : Nat := 9223372036854775

/-- A product, unless it is more than `most`. -/
def product? (most a b : Nat) : Option Nat := if a * b ≤ most then some (a * b) else none

/-- Months and years are counted on the calendar, all other units are fixed numbers of seconds. -/
def before? (lookback : Lookback) (finish : Instant) : Option Instant :=
  match lookback.unit with
  | .month => finish.monthsBefore? lookback.range
  | .year => do
    let months ← product? mostMonths lookback.range 12
    finish.monthsBefore? months
  | unit => do
    let seconds ← product? mostSeconds lookback.range unit.seconds
    if seconds ≤ longestSpan then finish.secondsBefore? seconds else none

def before (lookback : Lookback) (finish : Instant) : Except RequestFault Instant :=
  match lookback.before? finish with
  | some start => .ok start
  | none => .error (.lookbackOutOfRange lookback.range lookback.unit finish)

def toJson (lookback : Lookback) : Json :=
  .object [("range", .ofNat lookback.range (Nat.lt_of_le_of_lt lookback.range_le (by decide))),
    ("unit", .text lookback.unit.name)]

end Lookback

/-- Where a window ends that has no explicit end: at the time of processing, at the timestamp of
the payload, or at a fixed time. -/
inductive EndTime where
  | now
  | payloadTimestamp
  | fixed (reference : String)
  deriving DecidableEq, Repr, Inhabited

namespace EndTime

def name : EndTime → String
  | .now => "now"
  | .payloadTimestamp => "payload-timestamp"
  | .fixed _ => "fixed"

def toJson (policy : EndTime) : Json :=
  match policy with
  | .fixed reference => .object [("policy", .text policy.name), ("reference", .text reference)]
  | policy => .object [("policy", .text policy.name)]

end EndTime

/-- The bounds and the reference time that one request gives. -/
structure WindowRequest where
  start : Option Instant
  finish : Option Instant
  reference : Option Instant
  deriving DecidableEq, Repr

namespace WindowRequest

def finishBy (asked : WindowRequest) (policy : EndTime) (now : Instant) :
    Except RequestFault Instant :=
  match asked.finish, policy with
  | some finish, _ => .ok finish
  | none, .now => .ok now
  | none, .payloadTimestamp =>
    match asked.reference with
    | some reference => .ok reference
    | none => .error .noReference
  | none, .fixed reference => Instant.ofText reference

def startBefore (asked : WindowRequest) (lookback : Lookback) (finish : Instant) :
    Except RequestFault Instant :=
  match asked.start with
  | some start => .ok start
  | none => lookback.before finish

/-- An explicit end wins over the policy, an explicit start over the lookback. -/
def resolve (asked : WindowRequest) (policy : EndTime) (lookback : Lookback) (now : Instant) :
    Except RequestFault Window := do
  let finish ← asked.finishBy policy now
  let start ← asked.startBefore lookback finish
  Window.between start finish

end WindowRequest
end CalendarRollup
