/-!
# Log lines

What the library tells of its work: plain facts, and warnings about what it had to pass over.
-/

namespace UnitLoader

/-- How much a log line matters. -/
inductive LogLevel where
  | info
  | warn
  deriving DecidableEq, Repr

/-- One line of the log. -/
structure LogLine where
  /-- How much it matters. -/
  level : LogLevel
  /-- What it says. -/
  message : String
  deriving DecidableEq, Repr

/-- A plain fact. -/
def LogLine.info (message : String) : LogLine := ⟨.info, message⟩

/-- A warning. -/
def LogLine.warn (message : String) : LogLine := ⟨.warn, message⟩

/-- The text of a log line: level and message. -/
def LogLine.text (l : LogLine) : String :=
  match l.level with
  | .info => "INFO " ++ l.message
  | .warn => "WARN " ++ l.message

end UnitLoader
