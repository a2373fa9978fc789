import CalendarRollup.Calendar.Json

/-! The fine bucket that smooths a signal before it is rolled up: about a fiftieth of the calendar,
taken from a fixed table. -/
namespace CalendarRollup

inductive SamplingBucket where
  | oneSecond | oneMinute | fifteenMinutes | oneHour | oneMonth | oneYear
  deriving DecidableEq, Repr

namespace SamplingBucket

def name : SamplingBucket → String
  | .oneSecond => "1 second"
  | .oneMinute => "1 minute"
  | .fifteenMinutes => "15 minutes"
  | .oneHour => "1 hour"
  | .oneMonth => "1 month"
  | .oneYear => "1 year"

def calendar : SamplingBucket → CalendarSpec
  | .oneSecond => ⟨1, .second, by decide, by decide⟩
  | .oneMinute => ⟨1, .minute, by decide, by decide⟩
  | .fifteenMinutes => ⟨15, .minute, by decide, by decide⟩
  | .oneHour => ⟨1, .hour, by decide, by decide⟩
  | .oneMonth => ⟨1, .month, by decide, by decide⟩
  | .oneYear => ⟨1, .year, by decide, by decide⟩

def calendarName (bucket : SamplingBucket) : String := bucket.calendar.calendarName

/-- The fine interval is one part in `divisor` of the calendar. -/
def divisor : Nat := 50

/-- Buckets by the number of seconds that the fine interval stays below; the longest bucket takes
the rest. -/
def table : List (Nat × SamplingBucket) :=
  [(60, .oneSecond), (900, .oneMinute), (3600, .fifteenMinutes), (86400, .oneHour),
    (2592000, .oneMonth)]

end SamplingBucket

/-- The bucket of the first bound above the fine interval, compared without division. -/
def CalendarSpec.samplingBucket (spec : CalendarSpec) : SamplingBucket :=
  match SamplingBucket.table.find? fun entry =>
      spec.totalSeconds < entry.1 * SamplingBucket.divisor with
  | some entry => entry.2
  | none => .oneYear

/-- The bucket of a calendar, which one without a range would not have. -/
def CalendarSpec.selectBucket (spec : CalendarSpec) : Except CalendarFault SamplingBucket :=
  if spec.range = 0 then .error (.range 0) else .ok spec.samplingBucket

/-- Every calendar has a range. -/
theorem CalendarSpec.selectBucket_eq (spec : CalendarSpec) :
    spec.selectBucket = .ok spec.samplingBucket :=
  if_neg (Nat.ne_of_gt spec.range_pos)

end CalendarRollup
