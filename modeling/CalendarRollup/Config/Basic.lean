import CalendarRollup.Config.Backend
import CalendarRollup.Config.Logging
import CalendarRollup.Config.Rollup
import CalendarRollup.Toml.Parser

/-! The configuration of the service, read from a TOML file. -/
namespace CalendarRollup

structure Config where
  backend : BackendConfig
  plan : RollupPlan
  /-- The base table that events are stored in, if it is not that of the plan. -/
  ingest : Option String
  log : LogTarget
  deriving Repr

namespace Config

def ingestTable (config : Config) : String := config.ingest.getD config.plan.table

/-- What a well-formed configuration may still not say. -/
def validate (config : Config) : Except ConfigFault Unit := do
  if config.plan.lookback.range = 0 then throw .zeroLookback
  if Text.isAllBlank config.plan.table then throw (.blank "table")
  if Text.isAllBlank config.plan.idColumn then throw (.blank "id_column")
  if Text.isAllBlank config.plan.timeColumn then throw (.blank "time_column")
  if config.ingest.any Text.isAllBlank then throw (.blank "ingest table")

end Config

namespace Setting

def asIngest (dialect : Dialect) : Decoder (Option String) := fun s => do
  let fields ← asFields dialect ["table"] s
  fields.check [("table", checked (asOptional asText))]
  let table ← fields.optional? "table" (asOptional asText)
  return table.join

def asConfig (dialect : Dialect) : Decoder Config := fun s => do
  let fields ← asFields dialect ["backend", "rollup", "ingest", "log"] s
  fields.check
    [("backend", checked (asBackend dialect)), ("rollup", checked (asPlan dialect)),
      ("ingest", checked (asIngest dialect)), ("log", checked asLogTarget)]
  let backend ← fields.required "backend" (asBackend dialect)
  let plan ← fields.required "rollup" (asPlan dialect)
  let ingest ← fields.optional? "ingest" (asIngest dialect)
  let log ← fields.required "log" asLogTarget
  return { backend, plan, ingest := ingest.join, log }

end Setting

namespace Config

/-- The configuration that a TOML text gives, before it is validated. -/
def ofToml (text : String) : Except Refusal Config :=
  match Toml.parse? text with
  | none => .error .shape
  | some setting => Setting.asConfig .toml setting

/-- The configuration of a file that has been read, or could not be. -/
def ofFile (path : String) (read : Except FileFault String) : Except ConfigFault Config := do
  let text ← read.mapError (.unreadable path)
  let config ← (ofToml text).mapError (.unusable ⟨path, text⟩)
  config.validate
  return config

def load (files : Files) (path : String) : Except ConfigFault Config :=
  ofFile path (files.read path)

end Config
end CalendarRollup
