/-!
# Log messages

Messages that accompany an operation, each of a level.
-/

namespace MetricQuery

inductive LogLevel where
  | info
  | warning
deriving DecidableEq

def LogLevel.name : LogLevel → String
  | .info => "INFO"
  | .warning => "WARNING"

structure LogMessage where
  level : LogLevel
  text : String
deriving DecidableEq

/-- A message in one line. -/
def LogMessage.line (m : LogMessage) : String := m.level.name ++ " " ++ m.text

end MetricQuery
