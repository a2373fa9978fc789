import CalendarRollup.Backend.Response
import CalendarRollup.Text.Basic

/-! Objects that are created in the backend unless they are there, the statements that create
them, and what the answers mean. -/
namespace CalendarRollup

/-- Records are stored through a virtual table over a base table. -/
def virtualTableName (table : String) : String := table ++ "_v"

inductive BackendObject where
  | pattern (spec : CalendarSpec)
  | calendar (spec : CalendarSpec)
  | virtualTable (base : String)
  deriving DecidableEq, Repr

namespace BackendObject

/-- The kind and the name of an object. -/
def description : BackendObject → String
  | .pattern spec => "calendar pattern " ++ spec.patternName
  | .calendar spec => "calendar " ++ spec.calendarName
  | .virtualTable base => "virtual table " ++ virtualTableName base

/-- The statement that creates an object. A calendar refers to its pattern by name. -/
def createStatement : BackendObject → String
  | .pattern spec =>
    "INSERT INTO CalendarPatterns VALUES ('" ++ spec.patternName ++ "', '" ++
      spec.patternDefinition ++ "');"
  | .calendar spec =>
    "INSERT INTO CalendarTable(c_name, c_calendar) VALUES ('" ++ spec.calendarName ++
      "', 'startdate(" ++ CalendarSpec.anchor ++ "), pattstart(" ++ CalendarSpec.anchor ++
      "), pattname(" ++ spec.patternName ++ ")');"
  | .virtualTable base =>
    "execute procedure tscreatevirtualtab(" ++ Text.literal (virtualTableName base) ++ ", " ++
      Text.literal base ++ ");"

end BackendObject

inductive Creation where
  | created
  | alreadyExists
  deriving DecidableEq, Repr

/-- The backend refused to create an object. -/
structure ProvisionFault where
  object : BackendObject
  response : Response
  deriving DecidableEq, Repr

namespace Creation

/-- Parts of an answer that say that the object is there already. -/
def existsMarkers : List String :=
  ["duplicate value in a UNIQUE INDEX column", "already exists"]

def mentionsExisting (body : String) : Bool :=
  existsMarkers.any fun marker => Text.occursIn marker.toList body.toList

/-- What a successful answer means; every other answer is a refusal, whatever it mentions. -/
def ofResponse? (response : Response) : Option Creation :=
  if !response.isSuccess then none
  else if mentionsExisting response.body then some .alreadyExists
  else some .created

end Creation
end CalendarRollup
