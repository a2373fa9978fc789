import CalendarRollup.Config.Setting

/-! Where the backend is found. -/
namespace CalendarRollup

structure BackendConfig where
  address : String
  database : String
  user : Option String
  password : Option String
  requestTimeoutSecs : Nat
  deriving DecidableEq, Repr

namespace BackendConfig

/-- The seconds that a command may take, where nothing is said. -/
def defaultRequestTimeoutSecs : Nat := 30

def databaseUrl (config : BackendConfig) : String :=
  "http://" ++ config.address ++ "/" ++ config.database

/-- Where statements are sent. -/
def statementUrl (config : BackendConfig) : String := config.databaseUrl ++ "/system.sql"

/-- Where the documents of a table are sent. -/
def tableUrl (config : BackendConfig) (table : String) : String :=
  config.databaseUrl ++ "/" ++ table

end BackendConfig

def Setting.asBackend (dialect : Dialect) : Decoder BackendConfig := fun s => do
  let fields ← asFields dialect
    ["address", "database", "user", "password", "request_timeout_secs"] s
  fields.check
    [("address", checked asText), ("database", checked asText),
      ("user", checked (asOptional asText)), ("password", checked (asOptional asText)),
      ("request_timeout_secs", checked asCount)]
  let address ← fields.required "address" asText
  let database ← fields.required "database" asText
  let user ← fields.optional? "user" (asOptional asText)
  let password ← fields.optional? "password" (asOptional asText)
  let timeout ← fields.optional? "request_timeout_secs" asCount
  return {
    address, database, user := user.join, password := password.join
    requestTimeoutSecs := timeout.getD BackendConfig.defaultRequestTimeoutSecs }

end CalendarRollup
