namespace Instrument

inductive Severity
  | error
  | warning
  deriving DecidableEq

namespace Severity

def name : Severity → String
  | error => "error"
  | warning => "warning"

def capitals : Severity → String
  | error => "ERROR"
  | warning => "WARNING"

def ofName? (s : String) : Option Severity := [error, warning].find? (·.name == s)

end Severity

end Instrument
