import Instrument.Text.Capital
import Instrument.Text.PathName

namespace Instrument

structure Settings where
  /-- The catalog file, `none` for the catalog that comes with the library. -/
  catalogPath : Option String
  strict : Bool
  logLevel : String

namespace Settings

def catalogVariable : String := "SYNTHLANG_CATALOG_PATH"

def strictVariable : String := "SYNTHLANG_STRICT"

def levelVariable : String := "SYNTHLANG_LOG_LEVEL"

def saysYes (text : String) : Bool :=
  let word := (Text.strip text.toList).map Char.toLower
  ["1", "true", "yes", "on"].any (·.toList == word)

def defaultLevel : String := "WARNING"

def levelName (text : String) : String :=
  let name := String.ofList (Text.capitals (Text.strip text.toList))
  if name = "" then defaultLevel else name

def ofEnvironment (read : String → Option String) : Settings where
  catalogPath := ((read catalogVariable).filter (· != "")).map Text.normalPath
  strict := saysYes ((read strictVariable).getD "")
  logLevel := levelName ((read levelVariable).getD defaultLevel)

def levels : List (String × Nat) :=
  [("CRITICAL", 50), ("FATAL", 50), ("ERROR", 40), ("WARN", 30), ("WARNING", 30), ("INFO", 20),
    ("DEBUG", 10), ("NOTSET", 0)]

/-- The rank from which notes are logged. An unknown level counts as a warning. -/
def logRank (s : Settings) : Nat := (levels.lookup s.logLevel).getD 30

end Settings

end Instrument
