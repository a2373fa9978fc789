import CalendarRollup.Backend.Creation
import CalendarRollup.Backend.Response
import CalendarRollup.Calendar.Basic
import CalendarRollup.Calendar.Json
import CalendarRollup.Calendar.Sampling
import CalendarRollup.Config.Backend
import CalendarRollup.Config.Basic
import CalendarRollup.Config.Fault
import CalendarRollup.Config.Files
import CalendarRollup.Config.Logging
import CalendarRollup.Config.Rollup
import CalendarRollup.Config.Setting
import CalendarRollup.Decimal.Binary64
import CalendarRollup.Decimal.Numeral
import CalendarRollup.Decimal.Shortest
import CalendarRollup.Event
import CalendarRollup.Fault
import CalendarRollup.Ingest.Ingester
import CalendarRollup.Ingest.Record
import CalendarRollup.Instant.Basic
import CalendarRollup.Instant.Date
import CalendarRollup.Instant.Format
import CalendarRollup.Instant.Parser
import CalendarRollup.Json.Parser
import CalendarRollup.Json.Printer
import CalendarRollup.Json.Value
import CalendarRollup.Main
import CalendarRollup.Orchestrator.Basic
import CalendarRollup.Orchestrator.Handling
import CalendarRollup.Proofs.Backend.Tables
import CalendarRollup.Proofs.Calendar.Decoding
import CalendarRollup.Proofs.Calendar.Names
import CalendarRollup.Proofs.Calendar.Readback
import CalendarRollup.Proofs.Calendar.Sampling
import CalendarRollup.Proofs.Calendar.Units
import CalendarRollup.Proofs.Decimal.Fixed
import CalendarRollup.Proofs.Decimal.Nearest
import CalendarRollup.Proofs.Decimal.Rounding
import CalendarRollup.Proofs.Event.Fields
import CalendarRollup.Proofs.Except
import CalendarRollup.Proofs.Ingest.Insertions
import CalendarRollup.Proofs.Ingest.Records
import CalendarRollup.Proofs.Instant.Clock
import CalendarRollup.Proofs.Instant.Datetimes
import CalendarRollup.Proofs.Instant.Earlier
import CalendarRollup.Proofs.Instant.Forms
import CalendarRollup.Proofs.Instant.LiteralForm
import CalendarRollup.Proofs.Instant.Months
import CalendarRollup.Proofs.Instant.Order
import CalendarRollup.Proofs.Instant.Readback
import CalendarRollup.Proofs.Instant.Rfc3339
import CalendarRollup.Proofs.Instant.Spellings
import CalendarRollup.Proofs.Json.Distinct
import CalendarRollup.Proofs.Json.Floats
import CalendarRollup.Proofs.Json.Grammar
import CalendarRollup.Proofs.Json.Numbers
import CalendarRollup.Proofs.Json.Numerals
import CalendarRollup.Proofs.Json.Reading
import CalendarRollup.Proofs.Json.Rendering
import CalendarRollup.Proofs.Json.Strings
import CalendarRollup.Proofs.Json.Unambiguity
import CalendarRollup.Proofs.Orchestrator.Alone
import CalendarRollup.Proofs.Orchestrator.Calendars
import CalendarRollup.Proofs.Orchestrator.Handlings
import CalendarRollup.Proofs.Orchestrator.Outcomes
import CalendarRollup.Proofs.Orchestrator.Queries
import CalendarRollup.Proofs.Orchestrator.Timing
import CalendarRollup.Proofs.Provision.Memory
import CalendarRollup.Proofs.Provision.Readiness
import CalendarRollup.Proofs.Provision.Sharing
import CalendarRollup.Proofs.Provision.Transparency
import CalendarRollup.Proofs.Provision.Uniqueness
import CalendarRollup.Proofs.Provision.Waits
import CalendarRollup.Proofs.Rollup.Columns
import CalendarRollup.Proofs.Rollup.Emission
import CalendarRollup.Proofs.Rollup.LongerLookbacks
import CalendarRollup.Proofs.Rollup.Lookbacks
import CalendarRollup.Proofs.Rollup.PayloadFields
import CalendarRollup.Proofs.Rollup.PayloadIds
import CalendarRollup.Proofs.Rollup.QueryCalendars
import CalendarRollup.Proofs.Rollup.QueryFaults
import CalendarRollup.Proofs.Rollup.QueryInjective
import CalendarRollup.Proofs.Rollup.QueryLiterals
import CalendarRollup.Proofs.Rollup.QueryReader
import CalendarRollup.Proofs.Rollup.QueryStructure
import CalendarRollup.Proofs.Rollup.Resolution
import CalendarRollup.Proofs.Rollup.RowTimestamps
import CalendarRollup.Proofs.Rollup.Rows
import CalendarRollup.Proofs.Rollup.WindowLiterals
import CalendarRollup.Proofs.Service.Answers
import CalendarRollup.Proofs.Text.Blanks
import CalendarRollup.Proofs.Text.Nesting
import CalendarRollup.Proofs.Text.Readers
import CalendarRollup.Provision.Ensure
import CalendarRollup.Provision.Gate
import CalendarRollup.Provision.Provisioner
import CalendarRollup.Rollup.Fault
import CalendarRollup.Rollup.IdFilter
import CalendarRollup.Rollup.Payload
import CalendarRollup.Rollup.Reading
import CalendarRollup.Rollup.Request
import CalendarRollup.Rollup.Result
import CalendarRollup.Rollup.Rule
import CalendarRollup.Rollup.Window
import CalendarRollup.Service.Arguments
import CalendarRollup.Service.Program
import CalendarRollup.Service.Serving
import CalendarRollup.Simulation.Exchange
import CalendarRollup.Simulation.Schedule
import CalendarRollup.Text.Basic
import CalendarRollup.Text.Lines
import CalendarRollup.Text.Quoted
import CalendarRollup.Toml.Document
import CalendarRollup.Toml.Parser
import CalendarRollup.Toml.Scalar
import CalendarRollup.Toml.Text
