/-! The arguments of the program: a command, the path of its configuration, and for a query the
payload and the time. -/
namespace CalendarRollup

inductive Invocation where
  | run (config : String)
  | ingest (config : String)
  | query (config payload : String) (moment : Option String)
  deriving DecidableEq, Repr

namespace Invocation

/-- The options and the other arguments found so far. -/
structure Found where
  payload : Option String
  moment : Option String
  others : List String

inductive OptionName where
  | payload
  | moment
  deriving DecidableEq

/-- An option may be given once. -/
def Found.set (found : Found) (name : OptionName) (value : String) : Option Found :=
  match name with
  | .payload => if found.payload.isNone then some { found with payload := some value } else none
  | .moment => if found.moment.isNone then some { found with moment := some value } else none

def optionNamed? (name : String) : Option OptionName :=
  if name = "payload" then some .payload else if name = "now" then some .moment else none

/-- An option with its value, if that is in the same argument. -/
def option? (argument : List Char) : Option (OptionName × Option String) :=
  match argument with
  | '-' :: '-' :: rest =>
    let name := rest.takeWhile (· != '=')
    (optionNamed? (String.ofList name)).map fun option =>
      match rest.drop name.length with
      | [] => (option, none)
      | _ :: value => (option, some (String.ofList value))
  | ['-', 'p'] => some (.payload, none)
  | '-' :: 'p' :: '=' :: value => some (.payload, some (String.ofList value))
  | '-' :: 'p' :: value => some (.payload, some (String.ofList value))
  | _ => none

/-- An argument that begins with a hyphen is an option, unless it is nothing else. -/
def isOption (argument : String) : Bool :=
  match argument.toList with
  | '-' :: _ :: _ => true
  | _ => false

/-- Goes through arguments; after two hyphens none is an option. -/
def scan (found : Found) : List String → Option Found
  | [] => some found
  | argument :: rest =>
    if argument = "--" then some { found with others := found.others ++ rest }
    else if isOption argument then
      match option? argument.toList with
      | some (name, some value) => do scan (← found.set name value) rest
      | some (name, none) =>
        match rest with
        | [] => none
        | value :: rest => if isOption value then none else do scan (← found.set name value) rest
      | none => none
    else scan { found with others := found.others ++ [argument] } rest

/-- The command that arguments spell, if they spell one. -/
def parse? (arguments : List String) : Option Invocation := do
  match arguments with
  | [] => none
  | command :: rest =>
    let found ← scan ⟨none, none, []⟩ rest
    match command, found with
    | "run", ⟨none, none, [config]⟩ => some (.run config)
    | "ingest", ⟨none, none, [config]⟩ => some (.ingest config)
    | "query", ⟨some payload, moment, [config]⟩ => some (.query config payload moment)
    | _, _ => none

end Invocation
end CalendarRollup
