import CqlWorkload.Text.Blank

/-!
# Log entries

What a compile reports besides its result is kept as data: a list of entries,
each with a level.
-/

namespace CqlWorkload

namespace Log

inductive Level
  | debug
  | info
  | warning
  deriving DecidableEq

def Level.text : Level → String
  | .debug => "DEBUG"
  | .info => "INFO"
  | .warning => "WARNING"

structure Entry where
  level : Level
  text : String
  deriving DecidableEq

end Log

/-- The entries of a log, oldest first. -/
abbrev Log := List Log.Entry

namespace Log

def debug (text : String) : Log := [⟨.debug, text⟩]

def info (text : String) : Log := [⟨.info, text⟩]

def warning (text : String) : Log := [⟨.warning, text⟩]

/-- The entries above the level of details. -/
def reports (log : Log) : Log := log.filter (·.level != .debug)

/-- Where the names of all loggers begin. -/
def loggerRoot : String := "cqlgen"

/-- The name of a logger, which is put below the root unless it begins like it. -/
def loggerName (name : String) : String :=
  if Text.beginsWith loggerRoot name then name else loggerRoot ++ "." ++ name

end Log
end CqlWorkload
