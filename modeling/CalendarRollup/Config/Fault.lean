import CalendarRollup.Config.Setting

/-! What can be wrong with a configuration and with the files it names. -/
namespace CalendarRollup

/-- Why a file cannot be opened, read or made. -/
inductive FileFault where
  | missing
  | present
  | notDirectory
  | isDirectory
  | nameTooLong
  | nulInName
  | other (reason : String)
  deriving DecidableEq, Repr

def FileFault.message : FileFault → String
  | .missing => "No such file or directory (os error 2)"
  | .present => "File exists (os error 17)"
  | .notDirectory => "Not a directory (os error 20)"
  | .isDirectory => "Is a directory (os error 21)"
  | .nameTooLong => "File name too long (os error 36)"
  | .nulInName => "file name contained an unexpected NUL byte"
  | .other reason => reason

/-- A file that a configuration has been read from. -/
structure ConfigFile where
  path : String
  text : String
  deriving Repr

inductive ConfigFault where
  | unreadable (path : String) (cause : FileFault)
  | unusable (file : ConfigFile) (refusal : Refusal)
  | zeroLookback
  | blank (setting : String)
  | logUnopened (path : String) (cause : FileFault)
  deriving Repr

def ConfigFault.message : ConfigFault → String
  | .unreadable path cause => "read \"" ++ path ++ "\": " ++ cause.message
  | .unusable file _ => "parse \"" ++ file.path ++ "\""
  | .zeroLookback => "lookback range must be a positive integer"
  | .blank setting => setting ++ " must not be empty"
  | .logUnopened path cause => "open log file \"" ++ path ++ "\": " ++ cause.message

end CalendarRollup
