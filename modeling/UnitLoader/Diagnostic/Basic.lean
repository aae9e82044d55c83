/-!
# Diagnostics

A diagnostic is one message about a unit: what the compiler says, how grave it is, and where it
points to. `Diagnostic.terminal` is its short form for a terminal.
-/

namespace UnitLoader

/-- How grave a diagnostic is. -/
inductive Severity where
  | error
  | warning
  | note
  | help
  deriving DecidableEq, Repr

/-- A place in a named text; line and column count from one. -/
structure Location where
  /-- The name of the unit's virtual file, or `Location.dispatchFile`. -/
  file : String
  /-- The line. -/
  line : Nat
  /-- The column. -/
  column : Nat
  deriving DecidableEq, Repr

/-- The file name of places in generated code. -/
def Location.dispatchFile : String := "<hotload shim>"

/-- A stretch of text that a diagnostic points to. -/
structure Span where
  /-- Where the stretch starts. -/
  location : Location
  /-- Where it ends, if that is on another line. -/
  endLocation : Option Location
  /-- What the compiler says about the stretch. -/
  label : Option String
  /-- The stretch is what the message is about. -/
  isPrimary : Bool
  deriving DecidableEq, Repr

/-- One message about a unit. -/
structure Diagnostic where
  /-- The message. -/
  message : String
  /-- The code of the message, such as `E0308`. -/
  code : Option String
  /-- How grave it is. -/
  level : Severity
  /-- The start of the first primary span. -/
  location : Option Location
  /-- All spans in the compiler's order. -/
  spans : List Span
  /-- The message as the compiler prints it. -/
  rendered : Option String
  deriving DecidableEq, Repr

namespace Diagnostic

/-- An error that is a message and nothing else. -/
def simple (message : String) : Diagnostic := ⟨message, none, .error, none, [], none⟩

/-- An error whose message is also its printed form. -/
def simpleRendered (message : String) : Diagnostic :=
  ⟨message, none, .error, none, [], some message⟩

/-- The diagnostic is an error. -/
def isError (d : Diagnostic) : Bool := d.level == .error

end Diagnostic

/-- The name of a severity in its colour. -/
def Severity.coloured : Severity → String
  | .error => "\x1b[1;31merror\x1b[0m"
  | .warning => "\x1b[1;33mwarning\x1b[0m"
  | .note => "\x1b[1;36mnote\x1b[0m"
  | .help => "\x1b[1;32mhelp\x1b[0m"

/-- The text of a place: file, line and column. -/
def Location.text (l : Location) : String := s!"{l.file}:{l.line}:{l.column}"

/-- The form of a diagnostic for a terminal: severity, code and message on one line, the place on
the next. -/
def Diagnostic.terminal (d : Diagnostic) : String :=
  let code := match d.code with
    | some code => s!"[{code}]"
    | none => ""
  let place := match d.location with
    | some place => s!"  \x1b[1;34m-->\x1b[0m {place.text}\n"
    | none => ""
  s!"{d.level.coloured}{code}: {d.message}\n{place}"

end UnitLoader
